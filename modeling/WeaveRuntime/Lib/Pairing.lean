/-
Requests and replies in a trace, paired by identifier.

A trace is a list of marks: an ask opens a request, a reply answers the
last ask of its identifier. A mark stands where it may stand or it does
not (`placed`); what that means is up to the user.

`Paired` is the meaning of a well formed trace. `Kept` is a repair that
works by identifiers alone: an ask stays when a reply to its identifier
is ever accepted, a reply stays when it is the first one accepted for its
identifier. The repair is a filter, so it is given by the decision at each
place of the trace, `Kept pre post m`.

# What the repair achieves

Repairing keeps exactly one reply per answered identifier, so it is
idempotent (`kept_of_survivors`); but it keeps every ask of an answered
identifier, so its outcome is paired just when no answered identifier is
asked twice (`paired_iff_asked_once`).
-/
import Mathlib.Data.List.Basic
import Mathlib.Data.List.Induction
import Mathlib.Data.List.TakeWhile

namespace WeaveRuntime.Lib.Pairing

-- =============== marks

inductive Mark (ι : Type u) where
  | ask (placed : Bool) (id : ι)
  | reply (placed : Bool) (id : ι)
  deriving DecidableEq, Repr

variable {ι : Type u}

-- ============ answered

/-- Some placed ask of `i` is followed by a placed reply. -/
def Answered (i : ι) (trace : List (Mark ι)) : Prop :=
  [.ask true i, .reply true i].Sublist trace

variable {i : ι} {trace : List (Mark ι)}

theorem answered_iff :
    Answered i trace ↔ ∃ pre post, trace = pre ++ .reply true i :: post
      ∧ .ask true i ∈ pre := by
  refine ⟨fun h => ?_, fun h => ?_⟩
  · obtain ⟨front, back, heq, hask, hreply⟩ := List.cons_sublist_iff.1 h
    obtain ⟨mid, post, hback⟩ := List.append_of_mem
      (List.singleton_sublist.1 hreply)
    refine ⟨front ++ mid, post, ?_, List.mem_append_left _ hask⟩
    rw [heq, hback, List.append_assoc]
  · obtain ⟨pre, post, heq, hask⟩ := h
    rw [heq]
    exact (List.singleton_sublist.2 hask).append
      (List.singleton_sublist.2 (List.mem_cons_self ..))

theorem Answered.ask_mem (h : Answered i trace) : .ask true i ∈ trace :=
  h.subset (List.mem_cons_self ..)

theorem Answered.mono {short long : List (Mark ι)} (h : Answered i short)
    (hsub : short.Sublist long) : Answered i long :=
  List.Sublist.trans h hsub

theorem answered_concat {pre : List (Mark ι)} {m : Mark ι} :
    Answered i (pre ++ [m])
      ↔ Answered i pre ∨ (m = .reply true i ∧ .ask true i ∈ pre) := by
  refine ⟨fun h => ?_, fun h => ?_⟩
  · obtain ⟨front, post, heq, hask⟩ := answered_iff.1 h
    rcases List.eq_nil_or_concat post with hnil | ⟨mid, last, hlast⟩
    · rw [hnil] at heq
      obtain ⟨hpre, hm⟩ := List.append_inj' heq rfl
      cases hm
      exact Or.inr ⟨rfl, hpre ▸ hask⟩
    · rw [hlast, List.concat_eq_append, ← List.cons_append,
        ← List.append_assoc] at heq
      obtain ⟨hpre, -⟩ := List.append_inj' heq rfl
      exact Or.inl (answered_iff.2 ⟨front, mid, hpre, hask⟩)
  · rcases h with h | ⟨hm, hask⟩
    · exact h.mono (List.sublist_append_left _ _)
    · exact answered_iff.2 ⟨pre, [], by rw [hm], hask⟩

theorem Answered.first (h : Answered i trace) :
    ∃ pre post, trace = pre ++ .reply true i :: post
      ∧ .ask true i ∈ pre ∧ ¬ Answered i pre := by
  induction trace using List.reverseRecOn with
  | nil => cases h
  | append_singleton trace m ih =>
    by_cases hpre : Answered i trace
    · obtain ⟨pre, post, heq, hask, hfirst⟩ := ih hpre
      refine ⟨pre, post ++ [m], ?_, hask, hfirst⟩
      rw [heq, List.append_assoc, List.cons_append]
    · rcases answered_concat.1 h with hans | ⟨hm, hask⟩
      · exact absurd hans hpre
      · exact ⟨trace, [], by rw [hm], hask, hpre⟩

-- ============== repair

/-- The repair's decision on a mark between `pre` and `post`. -/
def Kept (pre post : List (Mark ι)) : Mark ι → Prop
  | .ask placed i => Answered i (pre ++ .ask placed i :: post)
  | .reply placed i =>
    placed = true ∧ .ask true i ∈ pre ∧ ¬ Answered i pre

section Repair

variable {α : Type v} (mark : α → Mark ι) (keep : α → Bool)

/-- `keep` takes the repair's decision at every place of the trace that
the elements of `L` mark. -/
def Repairs (L : List α) : Prop :=
  ∀ pre x post, L = pre ++ x :: post →
    (keep x = true ↔ Kept (pre.map mark) (post.map mark) (mark x))

/-- The marks that stay. -/
def survivors (L : List α) : List (Mark ι) := (L.filter keep).map mark

variable {mark : α → Mark ι} {keep : α → Bool} {L : List α}

theorem survivors_sublist : (survivors mark keep L).Sublist (L.map mark) :=
  List.filter_sublist.map mark

theorem mem_survivors {pre post : List α} {x : α} (hx : keep x = true) :
    mark x ∈ survivors mark keep (pre ++ x :: post) := by
  refine List.mem_map_of_mem (List.mem_filter.2 ⟨?_, hx⟩)
  exact List.mem_append_right _ (List.mem_cons_self ..)

theorem survivors_split {front back : List (Mark ι)} {m : Mark ι}
    (h : survivors mark keep L = front ++ m :: back) :
    ∃ pre x post, L = pre ++ x :: post ∧ mark x = m ∧ keep x = true
      ∧ survivors mark keep pre = front := by
  obtain ⟨l₁, l₂, hL, h₁, h₂⟩ := List.map_eq_append_iff.1 h
  obtain ⟨x, l₃, hl₂, hx, -⟩ := List.map_eq_cons_iff.1 h₂
  obtain ⟨p₁, p₂, hp, hpre, hrest⟩ := List.filter_eq_append_iff.1 hL
  rw [hl₂] at hrest
  obtain ⟨q₁, q₂, hq, hnone, hkeep, -⟩ := List.filter_eq_cons_iff.1 hrest
  refine ⟨p₁ ++ q₁, x, q₂, ?_, hx, hkeep, ?_⟩
  · rw [hp, hq, List.append_assoc]
  · have hq₁ : q₁.filter keep = [] :=
      List.filter_eq_nil_iff.2 fun a ha => hnone a ha
    show ((p₁ ++ q₁).filter keep).map mark = front
    rw [List.filter_append, hq₁, List.append_nil, hpre, h₁]

theorem ask_mem_survivors (hrep : Repairs mark keep L) {i : ι}
    {pre post : List α} (hL : L = pre ++ post)
    (hans : Answered i (L.map mark)) (hask : .ask true i ∈ pre.map mark) :
    .ask true i ∈ survivors mark keep pre := by
  obtain ⟨y, hy, hmark⟩ := List.mem_map.1 hask
  obtain ⟨p₁, p₂, hp⟩ := List.append_of_mem hy
  have hL' : L = p₁ ++ y :: (p₂ ++ post) := by
    rw [hL, hp, List.append_assoc, List.cons_append]
  have hopen : keep y = true := by
    refine (hrep p₁ y _ hL').2 ?_
    rw [hmark]
    show Answered i (p₁.map mark ++ .ask true i :: _)
    rw [← hmark, ← List.map_cons (f := mark), ← List.map_append, ← hL']
    exact hans
  rw [← hmark, hp]
  exact mem_survivors hopen

theorem answered_survivors (hrep : Repairs mark keep L) {i : ι} :
    Answered i (survivors mark keep L) ↔ Answered i (L.map mark) := by
  refine ⟨fun h => h.mono survivors_sublist, fun h => ?_⟩
  obtain ⟨front, back, heq, hask, hfirst⟩ := h.first
  obtain ⟨pre, rest, hL, hpre, hrest⟩ := List.map_eq_append_iff.1 heq
  obtain ⟨x, post, hcons, hx, -⟩ := List.map_eq_cons_iff.1 hrest
  rw [hcons] at hL
  rw [← hpre] at hask hfirst
  have hreply : keep x = true := by
    refine (hrep pre x post hL).2 ?_
    rw [hx]
    exact ⟨rfl, hask, hfirst⟩
  refine answered_iff.2 ⟨survivors mark keep pre,
    survivors mark keep post, ?_, ?_⟩
  · rw [hL]
    unfold survivors
    rw [List.filter_append, List.filter_cons_of_pos hreply, List.map_append,
      List.map_cons, hx]
  · exact ask_mem_survivors hrep hL h hask

theorem kept_of_survivors (hrep : Repairs mark keep L)
    {front back : List (Mark ι)} {m : Mark ι}
    (h : survivors mark keep L = front ++ m :: back) : Kept front back m := by
  obtain ⟨pre, x, post, hL, hx, hkeep, hfront⟩ := survivors_split h
  have hdec := (hrep pre x post hL).1 hkeep
  rw [hx] at hdec
  cases m with
  | ask placed i =>
    show Answered i (front ++ .ask placed i :: back)
    rw [← h, answered_survivors hrep, hL, List.map_append, List.map_cons, hx]
    exact hdec
  | reply placed i =>
    obtain ⟨hplaced, hask, hfirst⟩ := hdec
    refine ⟨hplaced, ?_, fun hans => hfirst ?_⟩
    · have hans : Answered i (L.map mark) := by
        refine answered_iff.2 ⟨pre.map mark, post.map mark, ?_, hask⟩
        rw [hL, List.map_append, List.map_cons, hx, hplaced]
      rw [← hfront]
      exact ask_mem_survivors hrep hL hans hask
    · rw [← hfront] at hans
      exact hans.mono survivors_sublist

end Repair

-- ============= pairing

variable [DecidableEq ι]

/-- The mark is an ask of `i`, wherever it stands. -/
def asks (i : ι) : Mark ι → Bool
  | .ask _ j => j = i
  | .reply _ _ => false

@[simp] theorem asks_ask (i j : ι) (b : Bool) :
    asks i (.ask b j) = decide (j = i) := rfl

@[simp] theorem asks_reply (i j : ι) (b : Bool) :
    asks i (.reply b j) = false := rfl

def repliesBefore (i : ι) (post : List (Mark ι)) : Nat :=
  (post.takeWhile fun m => !asks i m).count (.reply true i)

/-- What pairing asks of a mark between `pre` and `post`: an ask has one
reply before its identifier is asked again, a reply comes after an ask. -/
def PairedAt (pre post : List (Mark ι)) : Mark ι → Prop
  | .ask placed i => placed = true ∧ repliesBefore i post = 1
  | .reply placed i => placed = true ∧ .ask true i ∈ pre

def Paired (trace : List (Mark ι)) : Prop :=
  ∀ pre m post, trace = pre ++ m :: post → PairedAt pre post m

theorem repliesBefore_of_not_asked {post : List (Mark ι)}
    (h : post.countP (asks i) = 0) :
    repliesBefore i post = post.count (.reply true i) := by
  have hall : ∀ m ∈ post, (!asks i m) = true := by
    intro m hm
    have hnot := List.countP_eq_zero.1 h m hm
    rw [Bool.not_eq_true] at hnot
    rw [hnot]
    rfl
  unfold repliesBefore
  rw [List.takeWhile_eq_self_iff.2 hall]

theorem repliesBefore_le (i : ι) (post : List (Mark ι)) :
    repliesBefore i post ≤ post.count (.reply true i) :=
  (List.takeWhile_sublist _).count_le _

theorem repliesBefore_add_le {b : Bool} (mid post : List (Mark ι)) :
    repliesBefore i (mid ++ .ask b i :: post) + repliesBefore i post
      ≤ (mid ++ .ask b i :: post).count (.reply true i) := by
  have hfront : repliesBefore i (mid ++ .ask b i :: post)
      ≤ mid.count (.reply true i) := by
    have hcut : (mid ++ .ask b i :: post).takeWhile (fun m => !asks i m)
        = mid.takeWhile fun m => !asks i m := by
      rw [List.takeWhile_append]
      split
      · have hstop : (Mark.ask b i :: post).takeWhile (fun m => !asks i m)
            = [] := List.takeWhile_cons_of_neg (by simp)
        next hfull =>
        rw [hstop, List.append_nil]
        exact ((List.takeWhile_prefix _).eq_of_length hfull).symm
      · rfl
    unfold repliesBefore
    rw [hcut]
    exact (List.takeWhile_sublist _).count_le _
  have hback := repliesBefore_le i post
  rw [List.count_append, List.count_cons]
  omega

theorem two_asks (h : 2 ≤ trace.countP (asks i)) :
    ∃ front mid back b c,
      trace = front ++ .ask b i :: (mid ++ .ask c i :: back) := by
  induction trace with
  | nil => cases h
  | cons m trace ih =>
    cases m with
    | reply c j =>
      rw [List.countP_cons_of_neg (by simp)] at h
      obtain ⟨front, mid, back, b, c', heq⟩ := ih h
      exact ⟨.reply c j :: front, mid, back, b, c', by rw [heq]; rfl⟩
    | ask b j =>
      by_cases hj : j = i
      · rw [List.countP_cons_of_pos (by simp [hj])] at h
        obtain ⟨m', hm', hasks⟩ := List.countP_pos_iff.1
          (show 0 < trace.countP (asks i) by omega)
        obtain ⟨mid, back, heq⟩ := List.append_of_mem hm'
        cases m' with
        | reply c k => cases hasks
        | ask c k =>
          have hk : k = i := of_decide_eq_true hasks
          exact ⟨[], mid, back, b, c, by rw [heq, hj, hk]; rfl⟩
      · rw [List.countP_cons_of_neg (by simp [hj])] at h
        obtain ⟨front, mid, back, b', c, heq⟩ := ih h
        exact ⟨.ask b j :: front, mid, back, b', c, by rw [heq]; rfl⟩

section Outcome

variable {α : Type v} {mark : α → Mark ι} {keep : α → Bool} {L : List α}

theorem count_reply_le_one (hrep : Repairs mark keep L) (i : ι) :
    (survivors mark keep L).count (.reply true i) ≤ 1 := by
  by_contra hmany
  have hmem : Mark.reply true i ∈ survivors mark keep L :=
    List.count_pos_iff.1 (by omega)
  obtain ⟨front, back, heq⟩ := List.append_of_mem hmem
  have hback : Mark.reply true i ∉ back := by
    intro hback
    obtain ⟨mid, last, hmid⟩ := List.append_of_mem hback
    have hsplit : survivors mark keep L
        = (front ++ .reply true i :: mid) ++ .reply true i :: last := by
      rw [heq, hmid, List.append_assoc, List.cons_append]
    -- the later reply is not the first one
    obtain ⟨-, -, hlater⟩ := kept_of_survivors hrep hsplit
    obtain ⟨-, hask, -⟩ := kept_of_survivors hrep heq
    exact hlater (answered_iff.2 ⟨front, mid, rfl, hask⟩)
  have hfront : Mark.reply true i ∉ front := by
    intro hfront
    obtain ⟨first, mid, hmid⟩ := List.append_of_mem hfront
    have hsplit : survivors mark keep L
        = first ++ .reply true i :: (mid ++ .reply true i :: back) := by
      rw [heq, hmid, List.append_assoc, List.cons_append]
    obtain ⟨-, -, hlater⟩ := kept_of_survivors hrep heq
    obtain ⟨-, hask, -⟩ := kept_of_survivors hrep hsplit
    exact hlater (answered_iff.2 ⟨first, mid, hmid, hask⟩)
  rw [heq, List.count_append, List.count_cons_self,
    List.count_eq_zero.2 hfront, List.count_eq_zero.2 hback] at hmany
  omega

theorem countP_asks_survivors (hrep : Repairs mark keep L) {i : ι}
    (hans : Answered i (L.map mark)) :
    (survivors mark keep L).countP (asks i) = (L.map mark).countP (asks i) := by
  unfold survivors
  rw [List.countP_map, List.countP_map, List.countP_filter]
  refine List.countP_congr fun x hx => ?_
  obtain ⟨pre, post, hL⟩ := List.append_of_mem hx
  rw [Bool.and_eq_true]
  refine ⟨fun h => h.1, fun h => ⟨h, (hrep pre x post hL).2 ?_⟩⟩
  cases hm : mark x with
  | reply c j =>
    rw [Function.comp_apply, hm] at h
    cases h
  | ask c j =>
    rw [Function.comp_apply, hm] at h
    have hj : j = i := of_decide_eq_true h
    show Answered j _
    rw [← hm, ← List.map_cons (f := mark), ← List.map_append, ← hL, hj]
    exact hans

theorem paired_ask_of_asked_once {i : ι} {placed : Bool}
    {front back : List (Mark ι)}
    (hans : Answered i (front ++ .ask placed i :: back))
    (hfront : front.countP (asks i) = 0) (hback : back.countP (asks i) = 0)
    (hcount : (front ++ .ask placed i :: back).count (.reply true i) ≤ 1) :
    PairedAt front back (.ask placed i) := by
  have hnot : ∀ part : List (Mark ι), part.countP (asks i) = 0 →
      Mark.ask true i ∉ part := by
    intro part hpart hmem
    exact List.countP_eq_zero.1 hpart _ hmem (by simp)
  have hplaced : placed = true := by
    rcases List.mem_append.1 hans.ask_mem with hmem | hmem
    · exact absurd hmem (hnot front hfront)
    · rcases List.mem_cons.1 hmem with heq | hmem
      · cases heq
        rfl
      · exact absurd hmem (hnot back hback)
  have hreply : Mark.reply true i ∈ back := by
    obtain ⟨pre, post, heq, hask⟩ := answered_iff.1 hans
    rcases List.append_eq_append_iff.1 heq with ⟨mid, hpre, hrest⟩
      | ⟨mid, hpre, hrest⟩
    · cases mid with
      | nil =>
        rw [List.append_nil] at hpre
        rw [hpre] at hask
        exact absurd hask (hnot front hfront)
      | cons m mid =>
        obtain ⟨-, htail⟩ := List.cons_eq_cons.1 hrest
        rw [htail]
        exact List.mem_append_right _ (List.mem_cons_self ..)
    · refine absurd hask (hnot pre ?_)
      rw [hpre, List.countP_append] at hfront
      omega
  refine ⟨hplaced, ?_⟩
  rw [repliesBefore_of_not_asked hback]
  have hpos := List.count_pos_iff.2 hreply
  rw [List.count_append, List.count_cons] at hcount
  omega

/-- The outcome of the repair is paired just when no answered identifier
is asked twice. -/
theorem paired_iff_asked_once (hrep : Repairs mark keep L) :
    Paired (survivors mark keep L)
      ↔ ∀ i, Answered i (L.map mark) → (L.map mark).countP (asks i) ≤ 1 := by
  refine ⟨fun hpaired i hans => ?_, fun honce front m back heq => ?_⟩
  · by_contra hmany
    have hkept : 2 ≤ (survivors mark keep L).countP (asks i) := by
      rw [countP_asks_survivors hrep hans]
      omega
    obtain ⟨front, mid, back, b, c, heq⟩ := two_asks hkept
    obtain ⟨-, hfirst⟩ := hpaired front (.ask b i) _ heq
    have heq' : survivors mark keep L
        = (front ++ .ask b i :: mid) ++ .ask c i :: back := by
      rw [heq, List.append_assoc, List.cons_append]
    obtain ⟨-, hsecond⟩ := hpaired _ (.ask c i) back heq'
    -- each of the two asks has a reply of its own
    have htwo := repliesBefore_add_le (i := i) (b := c) mid back
    have hone := count_reply_le_one hrep i
    rw [heq, List.count_append, List.count_cons] at hone
    omega
  · have hkept := kept_of_survivors hrep heq
    cases m with
    | reply placed i => exact ⟨hkept.1, hkept.2.1⟩
    | ask placed i =>
      have hans : Answered i (survivors mark keep L) := heq ▸ hkept
      have hcount := honce i ((answered_survivors hrep).1 hans)
      rw [← countP_asks_survivors hrep ((answered_survivors hrep).1 hans),
        heq, List.countP_append, List.countP_cons_of_pos (by simp)] at hcount
      have hfront : front.countP (asks i) = 0 := by omega
      have hback : back.countP (asks i) = 0 := by omega
      refine paired_ask_of_asked_once ?_ hfront hback ?_
      · rw [← heq]
        exact hans
      · rw [← heq]
        exact count_reply_le_one hrep i

end Outcome

theorem kept_of_paired (hpaired : Paired trace)
    (honce : ∀ i, trace.countP (asks i) ≤ 1) {pre post : List (Mark ι)}
    {m : Mark ι} (h : trace = pre ++ m :: post) : Kept pre post m := by
  have hat := hpaired pre m post h
  cases m with
  | ask placed i =>
    obtain ⟨hplaced, hone⟩ := hat
    have hreply : Mark.reply true i ∈ post := by
      have hle := repliesBefore_le i post
      exact List.count_pos_iff.1 (by omega)
    refine List.Sublist.trans ?_ (List.sublist_append_right pre _)
    rw [hplaced]
    exact (List.singleton_sublist.2 hreply).cons_cons _
  | reply placed i =>
    obtain ⟨hplaced, hask⟩ := hat
    refine ⟨hplaced, hask, fun hans => ?_⟩
    -- the ask before both replies would have two
    obtain ⟨front, back, heq, hopen⟩ := answered_iff.1 hans
    obtain ⟨first, mid, hfirst⟩ := List.append_of_mem hopen
    have hsplit : trace = first ++ .ask true i
        :: (mid ++ .reply true i :: (back ++ .reply placed i :: post)) := by
      rw [h, heq, hfirst]
      simp only [List.append_assoc, List.cons_append]
    obtain ⟨-, hone⟩ := hpaired _ _ _ hsplit
    have hasked := honce i
    rw [hsplit, List.countP_append,
      List.countP_cons_of_pos (by simp)] at hasked
    rw [repliesBefore_of_not_asked (by omega), List.count_append,
      List.count_cons_self, List.count_append, hplaced,
      List.count_cons_self] at hone
    omega

-- ================ cuts

/-- No identifier is asked twice, and every placed ask has one reply after
it. -/
structure Complete (trace : List (Mark ι)) : Prop where
  once : ∀ i, trace.countP (asks i) ≤ 1
  answered : ∀ pre i post, trace = pre ++ .ask true i :: post →
    post.count (.reply true i) = 1

def Cut (front back : List (Mark ι)) : Prop :=
  ∃ i, .ask true i ∈ front ∧ .reply true i ∈ back

section Cuts

variable {front back : List (Mark ι)}

theorem Complete.answered_back (h : Complete (front ++ back)) {i : ι}
    (hask : .ask true i ∈ back) : Answered i back := by
  obtain ⟨pre, post, rfl⟩ := List.append_of_mem hask
  have hone : post.count (.reply true i) = 1 :=
    h.answered (front ++ pre) i post (List.append_assoc ..).symm
  have hreply : Mark.reply true i ∈ post :=
    List.count_pos_iff.1 (by omega)
  refine List.Sublist.trans ?_ (List.sublist_append_right pre _)
  exact (List.singleton_sublist.2 hreply).cons_cons _

theorem Complete.not_asked_twice (h : Complete (front ++ back)) {i : ι}
    {a b : Bool} (hfront : .ask a i ∈ front) : .ask b i ∉ back := by
  intro hback
  have hone := h.once i
  rw [List.countP_append] at hone
  have hfirst : 0 < front.countP (asks i) :=
    List.countP_pos_iff.2 ⟨_, hfront, by simp⟩
  have hsecond : 0 < back.countP (asks i) :=
    List.countP_pos_iff.2 ⟨_, hback, by simp⟩
  omega

theorem Complete.placed_of_asked (h : Complete front) {i : ι} {a : Bool}
    (hasked : .ask true i ∈ front) (hask : .ask a i ∈ front) : a = true := by
  obtain ⟨pre, post, rfl⟩ := List.append_of_mem hask
  obtain hpre | hpost := List.mem_append.1 hasked
  · exact absurd List.mem_cons_self (h.not_asked_twice hpre)
  · obtain heq | hpost := List.mem_cons.1 hpost
    · cases heq
      rfl
    · have hassoc : pre ++ .ask a i :: post
          = (pre ++ [.ask a i]) ++ post := by simp
      rw [hassoc] at h
      refine absurd hpost (h.not_asked_twice (a := a) ?_)
      exact List.mem_append_right _ List.mem_cons_self

/-- The side after a cut loses no ask of a reply it has exactly when the
cut is between no ask and its reply. -/
theorem Complete.calls_back_iff (h : Complete (front ++ back)) :
    (∀ i, .reply true i ∈ back → .ask true i ∈ front ++ back →
        .ask true i ∈ back)
      ↔ ¬ Cut front back := by
  refine ⟨fun hall hcut => ?_, fun hcut i hreply hask => ?_⟩
  · obtain ⟨i, hask, hreply⟩ := hcut
    exact h.not_asked_twice hask
      (hall i hreply (List.mem_append_left _ hask))
  · obtain hfront | hback := List.mem_append.1 hask
    · exact absurd ⟨i, hfront, hreply⟩ hcut
    · exact hback

/-- What the repair keeps of a complete trace it keeps of the side after a
cut that is between no ask and its reply. -/
theorem Complete.kept_back (h : Complete (front ++ back))
    (hkept : ∀ pre m post, front ++ back = pre ++ m :: post →
      Kept pre post m) (hcut : ¬ Cut front back) {pre post : List (Mark ι)}
    {m : Mark ι} (hback : back = pre ++ m :: post) : Kept pre post m := by
  have hwhole : Kept (front ++ pre) post m := by
    refine hkept _ _ _ ?_
    rw [hback, List.append_assoc]
  cases m with
  | ask placed i =>
    have hmem : Mark.ask placed i ∈ back := by
      rw [hback]
      exact List.mem_append_right _ List.mem_cons_self
    have hans : Answered i (front ++ back) := by
      rw [hback, ← List.append_assoc]
      exact hwhole
    obtain rfl : placed = true :=
      h.placed_of_asked hans.ask_mem (List.mem_append_right _ hmem)
    show Answered i (pre ++ .ask true i :: post)
    rw [← hback]
    exact h.answered_back hmem
  | reply placed i =>
    obtain ⟨hplaced, hask, hfirst⟩ := hwhole
    refine ⟨hplaced, ?_, fun hans => hfirst ?_⟩
    · obtain hfront | hpre := List.mem_append.1 hask
      · refine absurd ⟨i, hfront, ?_⟩ hcut
        rw [hback, ← hplaced]
        exact List.mem_append_right _ List.mem_cons_self
      · exact hpre
    · exact hans.mono (List.sublist_append_right _ _)

end Cuts

end WeaveRuntime.Lib.Pairing
