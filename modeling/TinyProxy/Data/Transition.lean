import Mathlib.Data.Option.Basic

/-!
# Runs of a transition function

`step` is the effect of an event on a state, if the event can happen there.
-/

set_option autoImplicit false

namespace Transition

section Runs
variable {State Event : Type} (step : State → Event → Option State)

/-- The state after the events, if they can happen one after the other. -/
def run : State → List Event → Option State
  | s, [] => some s
  | s, event :: rest => (step s event).bind fun next => run next rest

theorem run_append (first second : List Event) : ∀ s : State,
    run step s (first ++ second) = (run step s first).bind fun next => run step next second := by
  induction first with
  | nil => exact fun _ => rfl
  | cons event rest ih =>
      intro s
      rw [List.cons_append, run, run, Option.bind_assoc]
      exact congrArg _ (funext ih)

variable {step}

theorem run_cons_eq_some {event : Event} {rest : List Event} {s final : State}
    (reached : run step s (event :: rest) = some final) :
    ∃ next, step s event = some next ∧ run step next rest = some final :=
  Option.bind_eq_some_iff.mp reached

/-- What holds at the start and is kept by every step holds after every run. -/
theorem run_invariant {invariant : State → Prop}
    (preserved : ∀ s event next, invariant s → step s event = some next → invariant next)
    {events : List Event} : ∀ {s final : State}, invariant s →
      run step s events = some final → invariant final := by
  induction events with
  | nil =>
      intro s final holds reached
      exact Option.some.inj reached ▸ holds
  | cons event rest ih =>
      intro s final holds reached
      obtain ⟨next, first, later⟩ := run_cons_eq_some reached
      exact ih (preserved s event next holds first) later

/-- A stretch of a run that leads from `states n` to `states (n + 1)` can be repeated. -/
theorem run_repeat {block : List Event} {states : Nat → State}
    (once : ∀ n, run step (states n) block = some (states (n + 1))) :
    ∀ n, ∃ events, run step (states 0) events = some (states n) := by
  intro n
  induction n with
  | zero => exact ⟨[], rfl⟩
  | succ n ih =>
      obtain ⟨events, reached⟩ := ih
      refine ⟨events ++ block, ?_⟩
      rw [run_append, reached]
      exact once n

end Runs

end Transition
