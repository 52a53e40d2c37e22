/-
What the pieces of an iteration leave alone.

A `Frame` is a preorder on the states of the loop that holds across a
change of anything but the ledger (`Untouched`: the messages, the events,
the iteration, the counters, the terminal) and across a commit. Every
piece that only dispatches, calls and commits moves the loop along every
frame; the pieces that write the ledger in another way have a lemma each
that says what the frame must allow in addition.
-/
import WeaveRuntime.TurnEngine.Loop

namespace WeaveRuntime.TurnEngine

open Lib Python

variable {B W M Q : Type}

/-- The counters of the retries. -/
def RecoveryState.counters (r : RecoveryState) :
    Dict FailureClassification Nat × Dict FailureClassification Nat :=
  (r.retryCounters, r.priorCompactionAttempts)

/-- Nothing of the ledger has changed. -/
structure Untouched (l l' : TurnLoopState W M Q) : Prop where
  messages : l'.workingMessages = l.workingMessages
  events : l'.events = l.events
  iteration : l'.iteration = l.iteration
  counters : l'.recoveryState.counters = l.recoveryState.counters
  terminal : l'.terminal = l.terminal

theorem Untouched.refl (l : TurnLoopState W M Q) : Untouched l l :=
  ⟨rfl, rfl, rfl, rfl, rfl⟩

/-- The loop after a commit. -/
def TurnLoopState.committed (l : TurnLoopState W M Q) (messages : List M) :
    TurnLoopState W M Q :=
  { l with
    workingMessages := l.workingMessages ++ messages
    events := l.events ++ messages.map TurnStreamEvent.message }

structure Frame (R : TurnRun B W M Q → TurnRun B W M Q → Prop) : Prop where
  trans : ∀ s t u, R s t → R t u → R s u
  untouched : ∀ s t, Untouched s.loop t.loop → R s t
  commit : ∀ s messages, R s { s with loop := s.loop.committed messages }

/-- A compaction writes the messages and, later, an event. -/
structure Frame.Compacts (R : TurnRun B W M Q → TurnRun B W M Q → Prop) : Prop where
  replace : ∀ s messages,
    R s { s with loop := { s.loop with workingMessages := messages } }
  event : ∀ s messages,
    R s { s with loop := { s.loop with
      events := s.loop.events ++ [.compaction messages] } }

namespace Frame

variable {R : TurnRun B W M Q → TurnRun B W M Q → Prop}

section

variable (h : Frame R)
include h

theorem refl (s : TurnRun B W M Q) : R s s :=
  h.untouched s s (Untouched.refl _)

theorem bind {A A' : Type} {m : TurnM B W M Q A} {f : A → TurnM B W M Q A'}
    (hm : m.Evolves R) (hf : ∀ a, (f a).Evolves R) : (m >>= f).Evolves R :=
  Method.evolves_bind h.trans hm hf

theorem pure {A : Type} (a : A) : (pure a : TurnM B W M Q A).Evolves R :=
  Method.evolves_pure h.refl a

theorem get {A : Type} (f : TurnLoopState W M Q → A) :
    (TurnRun.get f : TurnM B W M Q A).Evolves R :=
  Method.evolves_read h.refl _

theorem modify {f : TurnLoopState W M Q → TurnLoopState W M Q}
    (hf : ∀ l, Untouched l (f l)) :
    (TurnRun.modify f : TurnM B W M Q Unit).Evolves R :=
  Method.evolves_write fun s => h.untouched s _ (hf s.loop)

theorem call {A : Type} (m : Method W String A) :
    (TurnRun.call m : TurnM B W M Q A).Evolves R := by
  refine Method.evolves_within (fun s w => ?_) m
  exact h.untouched s _ ⟨rfl, rfl, rfl, rfl, rfl⟩

theorem committed (messages : List M) :
    (TurnRun.commit messages : TurnM B W M Q Unit).Evolves R :=
  Method.evolves_write fun s => h.commit s messages

theorem matching (hooks : Hooks B M Q) (payload : HookPayload M Q) :
    (TurnRun.matching hooks payload : TurnM B W M Q _).Evolves R := by
  apply h.bind
  · refine Method.evolves_within (fun s b => ?_) _
    exact h.untouched s _ (Untouched.refl _)
  · intro calls
    apply h.bind
    · exact h.modify fun _ => ⟨rfl, rfl, rfl, rfl, rfl⟩
    · exact fun _ => h.pure calls

theorem dispatch (hooks : Hooks B M Q) (payload : HookPayload M Q) :
    (TurnRun.dispatch hooks payload : TurnM B W M Q _).Evolves R := by
  apply h.bind (h.matching hooks payload)
  intro calls
  exact h.bind (h.get _) fun _ => h.pure _

theorem dispatchTool (hooks : Hooks B M Q) (payload : HookPayload M Q) :
    (TurnRun.dispatchTool hooks payload : TurnM B W M Q _).Evolves R :=
  h.bind (h.matching hooks payload) fun _ => h.pure _

theorem asking {A : Type} (hooks : Hooks B M Q) (m : W → Asking W M Q A) :
    (TurnRun.asking hooks m : TurnM B W M Q A).Evolves R := by
  apply h.bind (h.get _)
  intro world
  apply h.bind
  · exact Resumption.evolves_run h.refl h.trans (h.dispatchTool hooks) _
  · intro outcome
    apply h.bind
    · exact h.modify fun _ => ⟨rfl, rfl, rfl, rfl, rfl⟩
    · exact fun _ => Method.evolves_lift h.refl _

theorem refinePrompt (env : Collaborators W M Q) (prepared : PreparedSummary)
    (additional : List String) :
    (TurnRun.refinePrompt env prepared additional
      : TurnM B W M Q _).Evolves R := by
  unfold TurnRun.refinePrompt
  by_cases hnone : additional = []
  · rw [if_pos hnone]
    exact h.pure prepared
  · rw [if_neg hnone]
    exact h.call _

theorem announceCompaction (hooks : Hooks B M Q) (summaryId : Option String) :
    (TurnRun.announceCompaction hooks summaryId
      : TurnM B W M Q Unit).Evolves R := by
  unfold TurnRun.announceCompaction
  cases summaryId with
  | none => exact h.pure ()
  | some id => exact h.bind (h.dispatch hooks _) fun _ => h.pure ()

theorem commitCompaction (hc : Compacts R) (hooks : Hooks B M Q)
    (prepared : PreparedContext M) :
    (TurnRun.commitCompaction hooks prepared
      : TurnM B W M Q Unit).Evolves R := by
  unfold TurnRun.commitCompaction
  cases prepared.transcriptMessages with
  | none => exact h.pure ()
  | some messages =>
    apply h.bind
    · exact Method.evolves_write fun s => hc.replace s messages
    · intro _
      apply h.bind
      · exact h.announceCompaction hooks prepared.summaryId
      · exact fun _ =>
          Method.evolves_write fun s => hc.event s messages

theorem prepareContext (hc : Compacts R) (hooks : Hooks B M Q)
    (env : Collaborators W M Q) :
    (TurnRun.prepareContext hooks env : TurnM B W M Q _).Evolves R := by
  apply h.bind (h.get _)
  intro messages
  apply h.bind (h.dispatch hooks _)
  intro _
  apply h.bind (h.get _)
  intro privateContext
  apply h.bind (h.call _)
  intro prepared
  apply h.bind (h.commitCompaction hc hooks prepared)
  intro _
  apply h.bind
  · exact h.modify fun _ => ⟨rfl, rfl, rfl, rfl, rfl⟩
  · exact fun _ => h.pure prepared

theorem buildRequest (hc : Compacts R) (hooks : Hooks B M Q)
    (env : Collaborators W M Q) :
    (TurnRun.buildRequest hooks env : TurnM B W M Q _).Evolves R := by
  apply h.bind (h.prepareContext hc hooks env)
  intro prepared
  apply h.bind (h.get _)
  intro privateContext
  apply h.bind (h.call _)
  intro joined
  apply h.bind
  · exact h.modify fun _ => ⟨rfl, rfl, rfl, rfl, rfl⟩
  intro _
  apply h.bind (h.get _)
  intro messages
  apply h.bind (h.dispatch hooks _)
  intro userPrompt
  apply h.bind (h.dispatch hooks _)
  intro preContext
  apply h.bind (h.call _)
  intro built
  apply h.bind (h.dispatch hooks _)
  intro postContext
  apply h.bind (h.refinePrompt env built _)
  intro summary
  apply h.bind (h.get _)
  intro effective
  apply h.bind (h.call _)
  intro request
  apply h.bind (h.dispatch hooks _)
  intro preModel
  apply h.bind (h.call _)
  intro finished
  apply h.bind
  · exact h.modify fun _ => ⟨rfl, rfl, rfl, rfl, rfl⟩
  · exact fun _ => h.pure _

theorem clearConsumed :
    (TurnRun.modify TurnRun.clearConsumed : TurnM B W M Q Unit).Evolves R := by
  apply h.modify
  intro l
  unfold TurnRun.clearConsumed
  cases l.consumedRequestOverride <;> exact ⟨rfl, rfl, rfl, rfl, rfl⟩

theorem applyPostModel (result : HookDispatchResult M) :
    (TurnRun.applyPostModel result : TurnM B W M Q Unit).Evolves R := by
  apply h.bind
  · apply h.modify
    intro l
    cases result.requestOverride <;> exact ⟨rfl, rfl, rfl, rfl, rfl⟩
  · exact fun _ => h.committed _

/-- The attempt of a request that has been issued; that it has finished
is the frame's to allow. -/
theorem finishAttempt (hooks : Hooks B M Q) (env : Collaborators W M Q)
    (request : Q) (executor : Bool) (prepared : PreparedSummary)
    (hfinished : ∀ a : AttemptFinished,
      (TurnRun.emit (.attemptFinished a) : TurnM B W M Q Unit).Evolves R) :
    (TurnRun.finishAttempt hooks env request executor prepared
      : TurnM B W M Q _).Evolves R := by
  apply h.bind h.clearConsumed
  intro _
  apply h.bind (h.asking hooks _)
  intro model
  apply h.bind (h.get _)
  intro finished
  apply h.bind
  · exact h.modify fun _ => ⟨rfl, rfl, rfl, rfl, rfl⟩
  intro _
  apply h.bind (h.committed _)
  intro _
  apply h.bind (hfinished finished)
  intro _
  apply h.bind (h.dispatch hooks _)
  intro postModel
  exact h.bind (h.applyPostModel _) fun _ => h.pure _

theorem goOn (decision : RecoveryDecision M) :
    (TurnRun.goOn decision : TurnM B W M Q Unit).Evolves R := by
  apply h.bind
  · exact h.modify fun _ => ⟨rfl, rfl, rfl, rfl, rfl⟩
  · exact fun _ => h.committed _

end

end Frame

end WeaveRuntime.TurnEngine
