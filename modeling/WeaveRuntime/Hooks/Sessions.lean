/-
Session starts and closes, as far as the hook bus sees them.

A start materialises the templates and dispatches `SessionStart`; the
session counts as started when that dispatch is over. A close dispatches
`SessionEnd`; whatever happens to that dispatch, the `finally` block of
`close` clears the session (`closed`). A session id may be started again
after it was closed. Everything else on the bus, dispatches inside a turn
included, is an action of its own.
-/
import WeaveRuntime.Hooks.Bus

namespace WeaveRuntime.Hooks

open Lib

/-- The bus, the sessions that are started, and the `SessionStart`
dispatches that are not over, by the session they are for. -/
structure SessionHooks where
  hooks : HookState := {}
  started : List String := []
  starting : Dict Nat String := Dict.empty

inductive SessionAction where
  | bus (a : HookAction)
  | start (sessionId : String) (call : Nat)
  | close (sessionId : String) (call : Nat) (finalStatus : String)
  | closed (sessionId : String)

/-- What the controller asks of the bus. -/
def SessionAction.hookActions : SessionAction → List HookAction
  | .bus a => [a]
  | .start sessionId call =>
    [.materializeSession sessionId,
      .dispatch call sessionId { phase := "SessionStart" } {}]
  | .close sessionId call finalStatus =>
    [.dispatch call sessionId
      { phase := "SessionEnd", finalStatus := some finalStatus } {}]
  | .closed sessionId => [.clearSession sessionId]

/-- The controllers' own state, once the bus has come to `hooks`. -/
def SessionHooks.follow (s : SessionHooks) (hooks : HookState) :
    SessionAction → SessionHooks
  | .start sessionId call =>
    if hooks.dispatches.contains call then
      { s with
        hooks := hooks, starting := s.starting.insert call sessionId }
    else { s with hooks := hooks, started := sessionId :: s.started }
  | .bus (.handlerEnds call outcome) =>
    match s.starting.get? call with
    | none => { s with hooks := hooks }
    | some sessionId =>
      if hooks.dispatches.contains call then { s with hooks := hooks }
      else
        { hooks := hooks
          started :=
            if outcome = .cancelled then s.started
            else sessionId :: s.started
          starting := s.starting.erase call }
  | .closed sessionId =>
    { s with
      hooks := hooks
      started := s.started.filter fun id => id ≠ sessionId }
  | _ => { s with hooks := hooks }

def sessionStep (s : SessionHooks) (a : SessionAction) :
    Option SessionHooks :=
  (hookSystem.run s.hooks a.hookActions).map fun hooks => s.follow hooks a

def sessionSystem : System SessionHooks SessionAction := ⟨sessionStep⟩

@[simp] theorem hooks_follow (s : SessionHooks) (hooks : HookState)
    (a : SessionAction) : (s.follow hooks a).hooks = hooks := by
  unfold SessionHooks.follow
  repeat' split
  all_goals rfl

theorem hooks_run {s t : SessionHooks} {as : List SessionAction}
    (h : sessionSystem.run s as = some t) :
    hookSystem.run s.hooks (as.flatMap SessionAction.hookActions)
      = some t.hooks := by
  induction as generalizing s with
  | nil =>
    cases h
    rfl
  | cons a as ih =>
    obtain ⟨m, hstep, hrest⟩ := System.run_cons_eq_some.1 h
    obtain ⟨hooks, hrun, rfl⟩ := Option.map_eq_some_iff.1 hstep
    rw [List.flatMap_cons, System.run_append, hrun]
    exact (hooks_follow s hooks a) ▸ ih hrest

end WeaveRuntime.Hooks
