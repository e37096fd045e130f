import TinyProxy.Rust.Words

/-!
# Texts up to ASCII letter case

`eq_ignore_ascii_case` compares two texts in lower case.  A text without letters
has one spelling, every other text at least two; cuts at a symbol that is no
letter fall in the same place in every spelling.
-/

set_option autoImplicit false

namespace Rust

def hasLetter (s : Str) : Bool := s.any Char.isAlpha

def toAsciiUppercase (s : Str) : Str := s.map Char.toUpper

/-! ## Spellings of one text -/

section Spellings
variable {s t u : Str}

theorem eqIgnoreAsciiCase_iff :
    eqIgnoreAsciiCase s t = true ↔ toAsciiLowercase s = toAsciiLowercase t :=
  decide_eq_true_iff

theorem eqIgnoreAsciiCase_symm (same : eqIgnoreAsciiCase s t = true) :
    eqIgnoreAsciiCase t s = true :=
  eqIgnoreAsciiCase_iff.mpr (eqIgnoreAsciiCase_iff.mp same).symm

/-- The right-hand side of a comparison may be spelled in another way. -/
theorem eqIgnoreAsciiCase_congr (s : Str) (same : eqIgnoreAsciiCase t u = true) :
    eqIgnoreAsciiCase s t = eqIgnoreAsciiCase s u := by
  unfold eqIgnoreAsciiCase
  rw [eqIgnoreAsciiCase_iff.mp same]

theorem eqIgnoreAsciiCase_length (same : eqIgnoreAsciiCase s t = true) : s.length = t.length := by
  have lengths := congrArg List.length (eqIgnoreAsciiCase_iff.mp same)
  simpa [toAsciiLowercase] using lengths

theorem toAsciiLowercase_append (s t : Str) :
    toAsciiLowercase (s ++ t) = toAsciiLowercase s ++ toAsciiLowercase t :=
  List.map_append

theorem eqIgnoreAsciiCase_append_right (same : eqIgnoreAsciiCase s t = true) (back : Str) :
    eqIgnoreAsciiCase (s ++ back) (t ++ back) = true := by
  rw [eqIgnoreAsciiCase_iff, toAsciiLowercase_append, toAsciiLowercase_append,
    eqIgnoreAsciiCase_iff.mp same]

theorem eqIgnoreAsciiCase_lower (s : Str) : eqIgnoreAsciiCase s (toAsciiLowercase s) = true := by
  simp [eqIgnoreAsciiCase, toAsciiLowercase, Function.comp_def]

theorem eqIgnoreAsciiCase_upper (s : Str) : eqIgnoreAsciiCase s (toAsciiUppercase s) = true := by
  simp [eqIgnoreAsciiCase, toAsciiLowercase, toAsciiUppercase, Function.comp_def]

theorem toLower_eq_iff {c d : Char} (letter : d.isAlpha = false) : c.toLower = d ↔ c = d := by
  constructor
  · rintro rfl
    rw [Char.isAlpha_toLower_eq_isAlpha] at letter
    have notUpper : ¬ c.isUpper = true := by
      intro upper
      simp [Char.isAlpha, upper] at letter
    exact (Char.toLower_eq_of_not_isUpper notUpper).symm
  · rintro rfl
    refine Char.toLower_eq_of_not_isUpper fun upper => ?_
    simp [Char.isAlpha, upper] at letter

/-- A text without letters has one spelling. -/
theorem eq_of_eqIgnoreAsciiCase : ∀ {s t : Str}, hasLetter s = false →
    eqIgnoreAsciiCase s t = true → s = t := by
  intro s
  induction s with
  | nil =>
      intro t _ same
      exact (List.length_eq_zero_iff.mp (eqIgnoreAsciiCase_length same).symm).symm
  | cons c rest ih =>
      intro t letters same
      cases t with
      | nil => cases eqIgnoreAsciiCase_length same
      | cons d tail =>
          obtain ⟨letter, others⟩ := Bool.or_eq_false_iff.mp letters
          obtain ⟨first, later⟩ := List.cons_eq_cons.mp (eqIgnoreAsciiCase_iff.mp same)
          rw [(toLower_eq_iff letter).mpr rfl] at first
          rw [(toLower_eq_iff letter).mp first.symm, ih others (eqIgnoreAsciiCase_iff.mpr later)]

theorem toAsciiLowercase_ne_upper (letters : hasLetter s = true) :
    toAsciiLowercase s ≠ toAsciiUppercase s := by
  intro same
  obtain ⟨c, member, letter⟩ := List.any_eq_true.mp letters
  have equal : c.toLower = c.toUpper := List.map_inj_left.mp same c member
  have lower := Char.isLower_toLower_eq_isAlpha c
  rw [equal, Char.isLower_toUpper_eq_false, letter] at lower
  cases lower

/-- A text with a letter has a spelling other than a given one. -/
theorem exists_other_spelling (letters : hasLetter s = true) (t : Str) :
    ∃ other, eqIgnoreAsciiCase s other = true ∧ other ≠ t := by
  by_cases lower : toAsciiLowercase s = t
  · refine ⟨toAsciiUppercase s, eqIgnoreAsciiCase_upper s, fun upper => ?_⟩
    exact toAsciiLowercase_ne_upper letters (lower.trans upper.symm)
  · exact ⟨toAsciiLowercase s, eqIgnoreAsciiCase_lower s, lower⟩

end Spellings

/-! ## Cuts -/

section Cuts
variable {c : Char}

/-- Both parts of a cut in lower case. -/
def lowerCut (cut : Str × Str) : Str × Str := (toAsciiLowercase cut.1, toAsciiLowercase cut.2)

theorem contains_lower (letter : c.isAlpha = false) (s : Str) :
    (toAsciiLowercase s).contains c = s.contains c := by
  induction s with
  | nil => rfl
  | cons d rest ih =>
      have first := @toLower_eq_iff d c letter
      rw [toAsciiLowercase, List.map_cons, List.contains_cons, List.contains_cons, Bool.eq_iff_iff]
      rw [toAsciiLowercase] at ih
      simp only [Bool.or_eq_true, beq_iff_eq, ih, eq_comm.trans (first.trans eq_comm)]

theorem startsWith_lower (letter : c.isAlpha = false) (s : Str) :
    startsWith [c] (toAsciiLowercase s) = startsWith [c] s := by
  cases s with
  | nil => rfl
  | cons d rest =>
      have first := @toLower_eq_iff d c letter
      rw [Bool.eq_iff_iff, startsWith_singleton, startsWith_singleton, toAsciiLowercase,
        List.map_cons, List.head?_cons, List.head?_cons, Option.some.injEq, Option.some.injEq, first]

theorem rsplitOnce_lower (letter : c.isAlpha = false) (s : Str) :
    rsplitOnce c (toAsciiLowercase s) = (rsplitOnce c s).map lowerCut := by
  induction s with
  | nil => rfl
  | cons d rest ih =>
      have first := @toLower_eq_iff d c letter
      rw [toAsciiLowercase] at ih
      rw [toAsciiLowercase, List.map_cons, rsplitOnce, rsplitOnce, ih]
      cases rsplitOnce c rest with
      | some cut => rfl
      | none =>
          by_cases here : d = c
          · simp [here, (toLower_eq_iff letter).mpr rfl, lowerCut, toAsciiLowercase]
          · simp [here, first]

theorem splitOnce_lower (letter : c.isAlpha = false) (s : Str) :
    Text.splitOnce [c] (toAsciiLowercase s) = (Text.splitOnce [c] s).map lowerCut := by
  induction s with
  | nil => rfl
  | cons d rest ih =>
      have first := @toLower_eq_iff d c letter
      rw [toAsciiLowercase] at ih
      rw [toAsciiLowercase, List.map_cons, Text.splitOnce, Text.splitOnce, ih]
      by_cases here : d = c
      · simp [here, (toLower_eq_iff letter).mpr rfl, lowerCut, toAsciiLowercase]
      · have apart : ¬ c = d := Ne.symm here
        have lowerApart : ¬ c = d.toLower := fun same => here (first.mp same.symm)
        simp only [List.isPrefixOf, Bool.and_true, beq_iff_eq, apart, lowerApart, if_false]
        cases Text.splitOnce [c] rest <;> rfl

end Cuts

/-! ## Numbers -/

theorem not_isAlpha_of_toDigit {c : Char} (digit : (toDigit 10 c).isSome = true) :
    c.isAlpha = false := by
  have range : '0' ≤ c ∧ c ≤ '9' := by
    by_contra outside
    rw [toDigit, if_neg outside] at digit
    split at digit
    · rw [Option.filter_some] at digit
      simp at digit
    · split at digit
      · rw [Option.filter_some] at digit
        simp at digit
      · simp at digit
  obtain ⟨low, high⟩ := range
  simp only [Char.le_def, UInt32.le_iff_toNat_le, UInt32.reduceToNat, Char.reduceVal] at low high
  simp only [Char.isAlpha, Char.isUpper, Char.isLower, Bool.or_eq_false_iff, Bool.and_eq_false_iff,
    decide_eq_false_iff_not, UInt32.le_iff_toNat_le, ge_iff_le, UInt32.reduceToNat, Char.reduceVal]
  omega

/-- A number has no letters. -/
theorem hasLetter_of_parseU16 {s : Str} (number : (parseU16 s).isSome = true) :
    hasLetter s = false := by
  rw [parseU16, Option.isSome_map] at number
  obtain ⟨n, parsed⟩ := Option.isSome_iff_exists.mp number
  obtain ⟨sign, digits, rfl, isSign, _, all⟩ := parseUnsigned_digits parsed
  have plain : hasLetter digits = false := by
    rw [hasLetter, List.any_eq_false]
    intro c member letter
    rw [not_isAlpha_of_toDigit (all c member)] at letter
    cases letter
  rw [hasLetter, List.any_append, Bool.or_eq_false_iff]
  refine ⟨?_, plain⟩
  rcases isSign with rfl | rfl
  · rfl
  · rfl

end Rust
