import TinyProxy.Data.Multimap

/-!
# Loops of writes that may fail

The `n`-th attempt of a loop finds the map as the attempts before it have left it.
It gives up, or it writes one key: a single value, or none.
-/

set_option autoImplicit false

namespace Multimap

/-- A value to set under the key, or nothing to remove the key. -/
structure Write (κ ν : Type) where
  key : κ
  value : Option ν

variable {κ ν : Type} [DecidableEq κ]

def write (m : Multimap κ ν) (w : Write κ ν) : Multimap κ ν :=
  match w.value with
  | some value => insert m w.key value
  | none => remove m w.key

/-- An attempt that gives up leaves the map alone. -/
def attempt (m : Multimap κ ν) : Option (Write κ ν) → Multimap κ ν
  | some w => write m w
  | none => m

/-- The map after the first `n` attempts. -/
def attempts (tries : Nat → Multimap κ ν → Option (Write κ ν)) (m : Multimap κ ν) :
    Nat → Multimap κ ν
  | 0 => m
  | n + 1 => attempt (attempts tries m n) (tries n (attempts tries m n))

@[simp] theorem getAll_write (m : Multimap κ ν) (w : Write κ ν) (key : κ) :
    getAll (write m w) key = if w.key = key then w.value.toList else getAll m key := by
  unfold write
  cases w.value with
  | some value => simp
  | none => simp

theorem getAll_attempt_other {m : Multimap κ ν} {tried : Option (Write κ ν)} {key : κ}
    (other : ∀ w, tried = some w → w.key ≠ key) : getAll (attempt m tried) key = getAll m key := by
  cases tried with
  | none => rfl
  | some w => rw [attempt, getAll_write, if_neg (other w rfl)]

section Attempts
variable {tries : Nat → Multimap κ ν → Option (Write κ ν)} {m : Multimap κ ν}

/-- Between two states without a write to the key, its values stay. -/
theorem getAll_attempts_kept {key : κ} {first last : Nat} (ordered : first ≤ last)
    (other : ∀ n, first ≤ n → n < last → ∀ w, tries n (attempts tries m n) = some w →
      w.key ≠ key) :
    getAll (attempts tries m last) key = getAll (attempts tries m first) key := by
  induction last, ordered using Nat.le_induction with
  | base => rfl
  | succ last ordered ih =>
      have before := ih fun n low high => other n low (Nat.lt_succ_of_lt high)
      rw [attempts, getAll_attempt_other (other last ordered (Nat.lt_succ_self last)), before]

/-- The last successful write to a key decides its values. -/
theorem getAll_attempts_last {n last : Nat} {w : Write κ ν} (inside : n < last)
    (written : tries n (attempts tries m n) = some w)
    (latest : ∀ later, n < later → later < last → ∀ other,
      tries later (attempts tries m later) = some other → other.key ≠ w.key) :
    getAll (attempts tries m last) w.key = w.value.toList := by
  rw [getAll_attempts_kept (Nat.succ_le_of_lt inside) latest, attempts, written, attempt,
    getAll_write, if_pos rfl]

end Attempts

end Multimap
