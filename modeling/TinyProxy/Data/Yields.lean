import Mathlib

/-!
# What a computation that may fail yields

A postcondition for the value together with one for the error.
-/

set_option autoImplicit false

/-- A value satisfies `good`, an error satisfies `bad`. -/
def Yields {ε β : Type} (good : β → Prop) (bad : ε → Prop) : Except ε β → Prop
  | .ok value => good value
  | .error e => bad e

namespace Yields

variable {ε β γ : Type} {good : β → Prop} {bad : ε → Prop} {result : Except ε β}

theorem of_ok {value : β} (yields : Yields good bad result) (run : result = .ok value) :
    good value := by
  rwa [run] at yields

theorem of_error {e : ε} (yields : Yields good bad result) (run : result = .error e) : bad e := by
  rwa [run] at yields

theorem bind {after : γ → Prop} {rest : β → Except ε γ} (start : Yields good bad result)
    (finish : ∀ value, good value → Yields after bad (rest value)) :
    Yields after bad (result >>= rest) := by
  cases result with
  | ok value => exact finish value start
  | error e => exact start

theorem map {after : γ → Prop} {f : β → γ} (yields : Yields good bad result)
    (image : ∀ value, good value → after (f value)) : Yields after bad (result.map f) := by
  cases result with
  | ok value => exact image value yields
  | error e => exact yields

/-- A loop that collects values fails as one of its steps does. -/
theorem mapM {f : γ → Except ε β} {xs : List γ}
    (each : ∀ x ∈ xs, Yields (fun _ => True) bad (f x)) :
    Yields (fun _ => True) bad (xs.mapM f) := by
  induction xs with
  | nil => trivial
  | cons x rest ih =>
      rw [List.mapM_cons]
      refine (each x (List.mem_cons_self ..)).bind fun _ _ => ?_
      refine (ih fun y member => each y (List.mem_cons_of_mem _ member)).bind fun _ _ => ?_
      trivial

end Yields
