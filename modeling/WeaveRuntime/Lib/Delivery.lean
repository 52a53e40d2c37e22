/-
A queue that delivers its items by claims and requeues those that fail.

An item is known by its tag: its identifier, the number of its attempt and
the claim it was last handed out under. It waits in the inbox, is claimed,
and ends as done or as failed; a failed attempt below the ceiling is
archived and the item goes back to the inbox with the next attempt.

A history goes along with the queue: the identifiers published, the tags
handed out, the ceilings that were in force. `Conserved` is what a reader
of the history may rely on, and `Ledger` the invariant that carries it.
There is one rule for each thing the queue can do (`Ledger.publish`,
`Ledger.claim`, `Ledger.settle`, `Ledger.retry`); what a tag handed out
long ago can be compared with is in the ledger too (`Ledger.stale`).
-/
import Mathlib.Data.Multiset.Count

namespace WeaveRuntime.Lib.Delivery

-- ============= buckets

structure Tag (ι : Type u) (κ : Type v) where
  id : ι
  attempt : Int
  claim : Option κ
  deriving DecidableEq

variable {ι : Type u} {κ : Type v}

/-- Where the items of a queue are. -/
structure Buckets (ι : Type u) (κ : Type v) where
  inbox : Multiset (Tag ι κ)
  claimed : Multiset (Tag ι κ)
  done : Multiset (Tag ι κ)
  failed : Multiset (Tag ι κ)
  retry : Multiset (Tag ι κ)

/-- What has happened to a queue. -/
structure History (ι : Type u) (κ : Type v) where
  published : List ι
  issued : List (Tag ι κ)
  ceilings : List (ι × Int)

def History.init : History ι κ := ⟨[], [], []⟩

def Buckets.init : Buckets ι κ := ⟨0, 0, 0, 0, 0⟩

variable [DecidableEq ι]

def copies (i : ι) (bucket : Multiset (Tag ι κ)) : Nat :=
  bucket.countP fun t => t.id = i

@[simp] theorem copies_zero (i : ι) :
    copies i (0 : Multiset (Tag ι κ)) = 0 := Multiset.countP_zero _

@[simp] theorem copies_cons (i : ι) (t : Tag ι κ)
    (bucket : Multiset (Tag ι κ)) :
    copies i (t ::ₘ bucket) = copies i bucket + if t.id = i then 1 else 0 :=
  Multiset.countP_cons _ _ _

theorem copies_pos {i : ι} {bucket : Multiset (Tag ι κ)} :
    0 < copies i bucket ↔ ∃ t ∈ bucket, t.id = i := Multiset.countP_pos

/-- The places that hold `i` now: not the archive of its attempts. -/
def Buckets.held (b : Buckets ι κ) (i : ι) : Nat :=
  copies i b.inbox + copies i b.claimed + copies i b.done + copies i b.failed

/-- `t` is what the queue knows of its item now. -/
def Buckets.Current (b : Buckets ι κ) (t : Tag ι κ) : Prop :=
  t ∈ b.inbox ∨ t ∈ b.claimed ∨ t ∈ b.done ∨ t ∈ b.failed

/-- How often `i` was handed out. -/
def History.claims (h : History ι κ) (i : ι) : Nat :=
  h.issued.countP fun t => t.id = i

@[simp] theorem claims_cons (i : ι) (t : Tag ι κ) (p : List ι)
    (s : List (Tag ι κ)) (c : List (ι × Int)) :
    (History.mk p (t :: s) c).claims i
      = (History.mk p s c).claims i + if t.id = i then 1 else 0 := by
  show (t :: s).countP _ = s.countP _ + _
  rw [List.countP_cons]
  simp

/-- Every published item is in one place, its archive holds the attempts
before the current one, and it was handed out no more often than the
ceilings in force for it allow. -/
structure Conserved (b : Buckets ι κ) (h : History ι κ) : Prop where
  held : ∀ i ∈ h.published, b.held i = 1
  archive : ∀ t, b.Current t → (copies t.id b.retry : Int) = t.attempt - 1
  claims : ∀ i ∈ h.published, ∀ c, (∀ e ∈ h.ceilings, e.1 = i → e.2 ≤ c) →
    (h.claims i : Int) ≤ max 1 c

-- ============== ledger

/-- The account every operation keeps. -/
structure Ledger (b : Buckets ι κ) (h : History ι κ) : Prop where
  held : ∀ i, b.held i = if i ∈ h.published then 1 else 0
  archive : ∀ t, b.Current t → (copies t.id b.retry : Int) = t.attempt - 1
  claims : ∀ i, h.claims i = copies i b.retry + copies i b.claimed
    + copies i b.done + copies i b.failed
  archived : ∀ i, 0 < copies i b.retry → i ∈ h.published
  ceilings : ∀ i, 0 < copies i b.retry →
    ∃ c, (i, c) ∈ h.ceilings ∧ (copies i b.retry : Int) + 1 ≤ c
  /-- What is claimed was handed out as it is. -/
  live : ∀ t ∈ b.claimed, t ∈ h.issued
  /-- What is archived was handed out, at an earlier attempt. -/
  filed : ∀ t ∈ b.retry,
    t ∈ h.issued ∧ t.attempt ≤ (copies t.id b.retry : Int)
  /-- A tag handed out is the current one, or of an archived attempt. -/
  stale : ∀ j ∈ h.issued, j.attempt ≤ (copies j.id b.retry : Int)
    ∨ (copies j.id b.inbox = 0 ∧ ∀ t ∈ b.claimed, t.id = j.id → t = j)
  distinct : ∀ j ∈ h.issued, ∀ k ∈ h.issued, j.claim = k.claim → j = k

theorem Ledger.init : Ledger (Buckets.init : Buckets ι κ) .init := by
  refine ⟨?_, ?_, ?_, ?_, ?_, ?_, ?_, ?_, ?_⟩
  all_goals simp [Buckets.init, History.init, Buckets.held, History.claims,
    Buckets.Current]

variable {b : Buckets ι κ} {h : History ι κ} {rest : Multiset (Tag ι κ)}
  {t : Tag ι κ}

theorem Ledger.nowhere (L : Ledger b h) {i : ι} (hi : i ∉ h.published) :
    copies i b.inbox = 0 ∧ copies i b.claimed = 0 ∧ copies i b.done = 0
      ∧ copies i b.failed = 0 := by
  have hheld := L.held i
  rw [if_neg hi] at hheld
  unfold Buckets.held at hheld
  omega

theorem Ledger.only_claimed (L : Ledger b h)
    (hclaimed : b.claimed = t ::ₘ rest) :
    t.id ∈ h.published ∧ copies t.id b.inbox = 0 ∧ copies t.id rest = 0
      ∧ copies t.id b.done = 0 ∧ copies t.id b.failed = 0 := by
  have hheld := L.held t.id
  unfold Buckets.held at hheld
  rw [hclaimed, copies_cons, if_pos rfl] at hheld
  by_cases hpub : t.id ∈ h.published
  · rw [if_pos hpub] at hheld
    exact ⟨hpub, by omega, by omega, by omega, by omega⟩
  · rw [if_neg hpub] at hheld
    omega

theorem Ledger.only_waiting (L : Ledger b h) (hinbox : b.inbox = t ::ₘ rest) :
    t.id ∈ h.published ∧ copies t.id rest = 0 ∧ copies t.id b.claimed = 0
      ∧ copies t.id b.done = 0 ∧ copies t.id b.failed = 0 := by
  have hheld := L.held t.id
  unfold Buckets.held at hheld
  rw [hinbox, copies_cons, if_pos rfl] at hheld
  by_cases hpub : t.id ∈ h.published
  · rw [if_pos hpub] at hheld
    exact ⟨hpub, by omega, by omega, by omega, by omega⟩
  · rw [if_neg hpub] at hheld
    omega

theorem not_mem_of_copies {bucket : Multiset (Tag ι κ)}
    (h : copies t.id bucket = 0) {u : Tag ι κ} (hu : u ∈ bucket) :
    u.id ≠ t.id := by
  intro heq
  have hpos := copies_pos.2 ⟨u, hu, heq⟩
  omega

theorem History.claims_pos {j : Tag ι κ} (hj : j ∈ h.issued) :
    0 < h.claims j.id :=
  List.countP_pos_iff.2 ⟨j, hj, decide_eq_true rfl⟩

theorem Ledger.publish (L : Ledger b h) (hid : t.id ∉ h.published)
    (hattempt : t.attempt = 1) :
    Ledger { b with inbox := t ::ₘ b.inbox }
      { h with published := t.id :: h.published } := by
  have hretry : copies t.id b.retry = 0 := by
    by_contra hpos
    exact hid (L.archived t.id (by omega))
  refine {
    held := fun i => ?_
    archive := fun u hu => ?_
    claims := L.claims
    archived := fun i hi => List.mem_cons_of_mem _ (L.archived i hi)
    ceilings := L.ceilings
    live := L.live
    filed := L.filed
    stale := fun j hj => ?_
    distinct := L.distinct }
  · have hheld := L.held i
    unfold Buckets.held at hheld ⊢
    dsimp only
    rw [copies_cons]
    by_cases hi : t.id = i
    · rw [if_pos hi, if_pos (hi ▸ List.mem_cons_self ..)]
      rw [if_neg (hi ▸ hid)] at hheld
      omega
    · have hmem : i ∈ t.id :: h.published ↔ i ∈ h.published := by
        rw [List.mem_cons]
        exact ⟨fun hor => hor.resolve_left (Ne.symm hi), Or.inr⟩
      rw [if_neg hi, if_congr hmem rfl rfl]
      omega
  · rcases hu with hu | hu
    · rcases Multiset.mem_cons.1 hu with hu | hu
      · rw [hu, hattempt]
        show (copies t.id b.retry : Int) = 1 - 1
        omega
      · exact L.archive u (Or.inl hu)
    · exact L.archive u (Or.inr hu)
  · refine (L.stale j hj).imp_right fun hcur => ⟨?_, hcur.2⟩
    have hne : t.id ≠ j.id := by
      intro heq
      obtain ⟨-, hclaimed, hdone, hfailed⟩ := L.nowhere hid
      have hpos : 0 < h.claims j.id := History.claims_pos hj
      rw [L.claims, ← heq] at hpos
      omega
    show copies j.id (t ::ₘ b.inbox) = 0
    rw [copies_cons, if_neg hne, hcur.1]

theorem Ledger.claim (L : Ledger b h) {c : κ} (hinbox : b.inbox = t ::ₘ rest)
    (hfresh : ∀ j ∈ h.issued, j.claim ≠ some c) :
    Ledger
      { b with
        inbox := rest
        claimed := { t with claim := some c } ::ₘ b.claimed }
      { h with issued := { t with claim := some c } :: h.issued } := by
  obtain ⟨hpub, hrest, hclaimed, hdone, hfailed⟩ := L.only_waiting hinbox
  have hcopies : ∀ i, copies i b.inbox
      = copies i rest + if t.id = i then 1 else 0 := by
    intro i
    rw [hinbox, copies_cons]
  refine {
    held := fun i => ?_
    archive := fun u hu => ?_
    claims := fun i => ?_
    archived := L.archived
    ceilings := L.ceilings
    live := fun u hu => ?_
    filed := fun u hu => ?_
    stale := fun j hj => ?_
    distinct := fun j hj k hk hjk => ?_ }
  · have hheld := L.held i
    unfold Buckets.held at hheld ⊢
    rw [hcopies] at hheld
    dsimp only
    rw [copies_cons, ← hheld]
    dsimp only
    omega
  · rcases hu with hu | hu | hu
    · exact L.archive u (Or.inl (hinbox ▸ Multiset.mem_cons_of_mem hu))
    · rcases Multiset.mem_cons.1 hu with hu | hu
      · rw [hu]
        exact L.archive t (Or.inl (hinbox ▸ Multiset.mem_cons_self ..))
      · exact L.archive u (Or.inr (Or.inl hu))
    · exact L.archive u (Or.inr (Or.inr hu))
  · rw [claims_cons]
    have hclaims := L.claims i
    dsimp only
    rw [copies_cons]
    dsimp only
    show h.claims i + _ = _
    omega
  · rcases Multiset.mem_cons.1 hu with hu | hu
    · rw [hu]
      exact List.mem_cons_self ..
    · exact List.mem_cons_of_mem _ (L.live u hu)
  · obtain ⟨hu, hle⟩ := L.filed u hu
    exact ⟨List.mem_cons_of_mem _ hu, hle⟩
  · rcases List.mem_cons.1 hj with hj | hj
    · right
      refine ⟨by rw [hj]; exact hrest, fun u hu hid => ?_⟩
      rcases Multiset.mem_cons.1 hu with hu | hu
      · rw [hu, hj]
      · refine absurd hid ?_
        rw [hj]
        exact not_mem_of_copies hclaimed hu
    · rcases L.stale j hj with hle | ⟨hzero, hcur⟩
      · exact Or.inl hle
      · -- the item was in the inbox, so it is another one
        have hne : t.id ≠ j.id := by
          intro heq
          rw [hcopies, if_pos heq] at hzero
          omega
        right
        refine ⟨?_, fun u hu hid => ?_⟩
        · rw [hcopies, if_neg hne] at hzero
          exact hzero
        · rcases Multiset.mem_cons.1 hu with hu | hu
          · rw [hu] at hid
            exact absurd hid hne
          · exact hcur u hu hid
  · rcases List.mem_cons.1 hj with hj | hj
    · rcases List.mem_cons.1 hk with hk | hk
      · rw [hj, hk]
      · rw [hj] at hjk
        exact absurd hjk.symm (hfresh k hk)
    · rcases List.mem_cons.1 hk with hk | hk
      · rw [hk] at hjk
        exact absurd hjk (hfresh j hj)
      · exact L.distinct j hj k hk hjk

theorem Ledger.settle (L : Ledger b h) {done failed : Multiset (Tag ι κ)}
    (hclaimed : b.claimed = t ::ₘ rest)
    (hends : done = t ::ₘ b.done ∧ failed = b.failed
      ∨ done = b.done ∧ failed = t ::ₘ b.failed) {ceilings : List (ι × Int)}
    (hmore : ∀ e ∈ h.ceilings, e ∈ ceilings) :
    Ledger { b with claimed := rest, done := done, failed := failed }
      { h with ceilings := ceilings } := by
  have hcopies : ∀ i, copies i b.claimed
      = copies i rest + if t.id = i then 1 else 0 := by
    intro i
    rw [hclaimed, copies_cons]
  have hended : ∀ i, copies i done + copies i failed
      = copies i b.done + copies i b.failed + if t.id = i then 1 else 0 := by
    intro i
    rcases hends with ⟨hd, hf⟩ | ⟨hd, hf⟩
    · rw [hd, hf, copies_cons]
      omega
    · rw [hd, hf, copies_cons]
      omega
  have hsub : ∀ u ∈ rest, u ∈ b.claimed := by
    intro u hu
    rw [hclaimed]
    exact Multiset.mem_cons_of_mem hu
  refine {
    held := fun i => ?_
    archive := fun u hu => ?_
    claims := fun i => ?_
    archived := L.archived
    ceilings := fun i hi => ?_
    live := fun u hu => L.live u (hsub u hu)
    filed := L.filed
    stale := fun j hj => ?_
    distinct := L.distinct }
  · have hheld := L.held i
    have hsum := hended i
    unfold Buckets.held at hheld ⊢
    rw [hcopies] at hheld
    dsimp only
    omega
  · have hcur : b.Current u := by
      rcases hu with hu | hu | hu
      · exact Or.inl hu
      · exact Or.inr (Or.inl (hsub u hu))
      · have ht : t ∈ b.claimed := hclaimed ▸ Multiset.mem_cons_self ..
        rcases hends with ⟨hd, hf⟩ | ⟨hd, hf⟩
        · rw [hd, hf, Multiset.mem_cons] at hu
          rcases hu with (hu | hu) | hu
          · exact Or.inr (Or.inl (hu ▸ ht))
          · exact Or.inr (Or.inr (Or.inl hu))
          · exact Or.inr (Or.inr (Or.inr hu))
        · rw [hd, hf, Multiset.mem_cons] at hu
          rcases hu with hu | hu | hu
          · exact Or.inr (Or.inr (Or.inl hu))
          · exact Or.inr (Or.inl (hu ▸ ht))
          · exact Or.inr (Or.inr (Or.inr hu))
    exact L.archive u hcur
  · have hclaims := L.claims i
    have hsum := hended i
    rw [hcopies] at hclaims
    show h.claims i = _
    dsimp only
    omega
  · obtain ⟨c, hc, hle⟩ := L.ceilings i hi
    exact ⟨c, hmore _ hc, hle⟩
  · refine (L.stale j hj).imp_right fun hcur => ⟨hcur.1, fun u hu => ?_⟩
    exact hcur.2 u (hsub u hu)

theorem Ledger.retry (L : Ledger b h) {ceiling : Int}
    (hclaimed : b.claimed = t ::ₘ rest) (hbelow : t.attempt < ceiling) :
    Ledger
      { b with
        claimed := rest
        retry := t ::ₘ b.retry
        inbox := ⟨t.id, t.attempt + 1, none⟩ ::ₘ b.inbox }
      { h with ceilings := (t.id, ceiling) :: h.ceilings } := by
  obtain ⟨hpub, hinbox, hrest, hdone, hfailed⟩ := L.only_claimed hclaimed
  have ht : t ∈ b.claimed := hclaimed ▸ Multiset.mem_cons_self ..
  have hattempt := L.archive t (Or.inr (Or.inl ht))
  have hcopies : ∀ i, copies i b.claimed
      = copies i rest + if t.id = i then 1 else 0 := by
    intro i
    rw [hclaimed, copies_cons]
  have hsub : ∀ u ∈ rest, u ∈ b.claimed := by
    intro u hu
    rw [hclaimed]
    exact Multiset.mem_cons_of_mem hu
  have hother : ∀ i, t.id ≠ i → copies i (t ::ₘ b.retry) = copies i b.retry := by
    intro i hi
    rw [copies_cons, if_neg hi, Nat.add_zero]
  have hself : copies t.id (t ::ₘ b.retry) = copies t.id b.retry + 1 := by
    rw [copies_cons, if_pos rfl]
  have hkeep : ∀ u, b.Current u → u.id ≠ t.id →
      (copies u.id (t ::ₘ b.retry) : Int) = u.attempt - 1 := by
    intro u hu hne
    rw [hother u.id (Ne.symm hne)]
    exact L.archive u hu
  refine {
    held := fun i => ?_
    archive := fun u hu => ?_
    claims := fun i => ?_
    archived := fun i hi => ?_
    ceilings := fun i hi => ?_
    live := fun u hu => L.live u (hsub u hu)
    filed := fun u hu => ?_
    stale := fun j hj => ?_
    distinct := L.distinct }
  · have hheld := L.held i
    unfold Buckets.held at hheld ⊢
    rw [hcopies] at hheld
    dsimp only
    rw [copies_cons]
    dsimp only
    omega
  · rcases hu with hu | hu | hu | hu
    · rcases Multiset.mem_cons.1 hu with hu | hu
      · rw [hu]
        dsimp only
        rw [hself]
        omega
      · exact hkeep u (Or.inl hu) (not_mem_of_copies hinbox hu)
    · exact hkeep u (Or.inr (Or.inl (hsub u hu))) (not_mem_of_copies hrest hu)
    · exact hkeep u (Or.inr (Or.inr (Or.inl hu))) (not_mem_of_copies hdone hu)
    · exact hkeep u (Or.inr (Or.inr (Or.inr hu)))
        (not_mem_of_copies hfailed hu)
  · have hclaims := L.claims i
    rw [hcopies] at hclaims
    show h.claims i = copies i (t ::ₘ b.retry) + _ + _ + _
    rw [copies_cons]
    dsimp only
    omega
  · by_cases heq : t.id = i
    · exact heq ▸ hpub
    · dsimp only at hi
      rw [hother i heq] at hi
      exact L.archived i hi
  · by_cases heq : t.id = i
    · refine ⟨ceiling, heq ▸ List.mem_cons_self .., ?_⟩
      rw [← heq]
      dsimp only
      rw [hself]
      omega
    · dsimp only at hi ⊢
      rw [hother i heq] at hi ⊢
      obtain ⟨c, hc, hle⟩ := L.ceilings i hi
      exact ⟨c, List.mem_cons_of_mem _ hc, hle⟩
  · rcases Multiset.mem_cons.1 hu with hu | hu
    · rw [hu]
      refine ⟨L.live t ht, ?_⟩
      dsimp only
      rw [hself]
      omega
    · obtain ⟨hissued, hle⟩ := L.filed u hu
      refine ⟨hissued, ?_⟩
      dsimp only
      rw [copies_cons]
      omega
  · by_cases heq : t.id = j.id
    · -- every attempt so far is archived now
      left
      dsimp only
      rw [← heq, hself]
      rcases L.stale j hj with hle | ⟨-, hcur⟩
      · rw [← heq] at hle
        omega
      · rw [← hcur t ht heq]
        omega
    · dsimp only
      rw [hother j.id heq]
      refine (L.stale j hj).imp_right fun hcur => ⟨?_, fun u hu => ?_⟩
      · rw [copies_cons, if_neg heq, hcur.1]
      · exact hcur.2 u (hsub u hu)

/-- The account tells what a reader may rely on. -/
theorem Ledger.conserved (L : Ledger b h) : Conserved b h := by
  refine ⟨fun i hi => ?_, L.archive, fun i hi c hc => ?_⟩
  · rw [L.held, if_pos hi]
  · have hheld := L.held i
    rw [if_pos hi] at hheld
    unfold Buckets.held at hheld
    have hclaims := L.claims i
    by_cases hretry : 0 < copies i b.retry
    · obtain ⟨ceiling, hmem, hle⟩ := L.ceilings i hretry
      have hbound := hc _ hmem rfl
      dsimp only at hbound
      omega
    · omega

end WeaveRuntime.Lib.Delivery
