import Mathlib

/-!
# Searching a sequence for a pattern

`splitOnce` cuts at the first occurrence, `replaceFrom` rewrites every
occurrence left to right without overlap, `occurrences` counts them.  For an
unbordered pattern (its first symbol occurs nowhere else in it) occurrences
never overlap, so a cut point is found exactly when nothing precedes it.
-/

set_option autoImplicit false

namespace Text

variable {α : Type} [DecidableEq α]

/-- Cut at the first occurrence of `pattern`: what precedes and what follows it. -/
def splitOnce (pattern : List α) : List α → Option (List α × List α)
  | [] => if pattern = [] then some ([], []) else none
  | c :: rest =>
      if pattern.isPrefixOf (c :: rest) then some ([], (c :: rest).drop pattern.length)
      else (splitOnce pattern rest).map fun cut => (c :: cut.1, cut.2)

/-- Replace every occurrence from the left; `skip` symbols are left out first. -/
def replaceFrom (pattern new : List α) : Nat → List α → List α
  | _, [] => []
  | skip + 1, _ :: rest => replaceFrom pattern new skip rest
  | 0, c :: rest =>
      if pattern.isPrefixOf (c :: rest) then
        new ++ replaceFrom pattern new (pattern.length - 1) rest
      else c :: replaceFrom pattern new 0 rest

/-- The first symbol of the pattern occurs nowhere else in it. -/
def Unbordered : List α → Prop
  | [] => False
  | head :: tail => head ∉ tail

instance (pattern : List α) : Decidable (Unbordered pattern) := by
  cases pattern <;> unfold Unbordered <;> infer_instance

/-! ## The first cut -/

theorem splitOnce_eq_append {pattern : List α} : ∀ {text before after : List α},
    splitOnce pattern text = some (before, after) → text = before ++ pattern ++ after := by
  intro text
  induction text with
  | nil =>
      intro before after cut
      by_cases empty : pattern = []
      · simp [splitOnce, empty] at cut
        simp [cut.1, cut.2, empty]
      · simp [splitOnce, empty] at cut
  | cons c rest ih =>
      intro before after cut
      rw [splitOnce] at cut
      by_cases here : pattern.isPrefixOf (c :: rest) = true
      · rw [if_pos here] at cut
        obtain ⟨tail, split⟩ := List.isPrefixOf_iff_prefix.mp here
        simp only [Option.some.injEq, Prod.mk.injEq] at cut
        rw [← cut.1, ← cut.2, ← split]
        simp
      · rw [if_neg here] at cut
        obtain ⟨⟨later, remaining⟩, found, same⟩ := Option.map_eq_some_iff.mp cut
        simp only [Prod.mk.injEq] at same
        rw [← same.1, ← same.2, ih found]
        simp

theorem splitOnce_eq_none_iff {pattern : List α} : ∀ {text : List α},
    splitOnce pattern text = none ↔ ¬ pattern <:+: text := by
  intro text
  induction text with
  | nil =>
      by_cases empty : pattern = []
      · simp [splitOnce, empty]
      · simp [splitOnce, empty]
  | cons c rest ih =>
      rw [splitOnce, List.infix_cons_iff, ← List.isPrefixOf_iff_prefix]
      by_cases here : pattern.isPrefixOf (c :: rest) = true
      · simp [here]
      · simp only [here, if_false, Option.map_eq_none_iff, ih, false_or, Bool.false_eq_true]

omit [DecidableEq α] in
/-- A prefix match that starts inside `front` and runs into a second copy of
the pattern would repeat the first symbol, so it lies inside `front`. -/
theorem prefix_of_unbordered {pattern front back : List α} (unbordered : Unbordered pattern)
    (here : pattern <+: front ++ (pattern ++ back)) (nonempty : front ≠ []) :
    pattern <+: front := by
  cases pattern with
  | nil => exact List.nil_prefix
  | cons head tail =>
      by_cases short : (head :: tail).length ≤ front.length
      · exact List.prefix_of_prefix_length_le here (List.prefix_append _ _) short
      · exfalso
        have bound : front.length < (head :: tail).length := by omega
        have positive : 0 < front.length := List.length_pos_iff.mpr nonempty
        have inFront : (head :: tail)[front.length]? = some head := by
          obtain ⟨rest, split⟩ := here
          have read : ((head :: tail) ++ rest)[front.length]? = some head := by
            rw [split]
            simp
          rwa [List.getElem?_append_left bound] at read
        have inTail : head ∈ tail := by
          obtain ⟨index, shape⟩ : ∃ index, front.length = index + 1 :=
            ⟨front.length - 1, by omega⟩
          rw [shape, List.getElem?_cons_succ] at inFront
          exact List.mem_of_getElem? inFront
        exact unbordered inTail

theorem splitOnce_append {pattern : List α} (unbordered : Unbordered pattern) :
    ∀ {before : List α} (after : List α), ¬ pattern <:+: before →
      splitOnce pattern (before ++ (pattern ++ after)) = some (before, after) := by
  intro before
  induction before with
  | nil =>
      intro after _
      cases pattern with
      | nil => exact unbordered.elim
      | cons head tail => simp [splitOnce]
  | cons c rest ih =>
      intro after absent
      have notHere : ¬ pattern <+: c :: (rest ++ (pattern ++ after)) := by
        intro here
        have inside : pattern <+: c :: rest :=
          prefix_of_unbordered unbordered here (by simp)
        exact absent inside.isInfix
      have later : ¬ pattern <:+: rest := fun inside =>
        absent (List.infix_cons_iff.mpr (Or.inr inside))
      rw [List.cons_append, splitOnce, if_neg (by simpa using notHere), ih after later]
      rfl

theorem splitOnce_singleton (symbol : α) {before : List α} (after : List α)
    (absent : symbol ∉ before) :
    splitOnce [symbol] (before ++ symbol :: after) = some (before, after) := by
  have cut : splitOnce [symbol] (before ++ ([symbol] ++ after)) = some (before, after) :=
    splitOnce_append (by simp [Unbordered]) after (by rwa [List.singleton_infix_iff])
  simpa using cut

theorem splitOnce_singleton_eq_none_iff {symbol : α} {text : List α} :
    splitOnce [symbol] text = none ↔ symbol ∉ text := by
  rw [splitOnce_eq_none_iff, List.singleton_infix_iff]

/-! ## Replacement -/

omit [DecidableEq α] in
/-- Of two separators the one that comes later has the other in front of it. -/
theorem append_cons_extends {x y : α} {front after lead tail : List α}
    (same : front ++ x :: after = lead ++ y :: tail) (clear : x ∉ lead) (other : x ≠ y) :
    ∃ more, front = lead ++ y :: more := by
  rcases List.append_eq_append_iff.mp same with ⟨gap, rfl, late⟩ | ⟨gap, rfl, early⟩
  · cases gap with
    | nil => exact absurd (List.cons.inj late).1 other
    | cons c rest =>
        obtain ⟨rfl, _⟩ := List.cons.inj late
        exact absurd (by simp) clear
  · cases gap with
    | nil => exact absurd (List.cons.inj early).1.symm other
    | cons c rest =>
        obtain ⟨rfl, _⟩ := List.cons.inj early
        exact ⟨rest, rfl⟩

end Text
