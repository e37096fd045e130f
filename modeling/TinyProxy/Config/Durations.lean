import TinyProxy.Config.Parser
import TinyProxy.Rust.Words

/-!
# Durations

The product of number and unit is taken at 64 bits.  A release build wraps it, a
debug build panics; nothing checks that it fits.
-/

set_option autoImplicit false

namespace TinyProxy

open Rust

/-- The seconds that a letter after the number stands for. -/
def unitSeconds (letter : Char) : Option UInt64 :=
  if letter = 's' then some 1
  else if letter = 'm' then some 60
  else if letter = 'h' then some 3600
  else if letter = 'd' then some 86400
  else none

/-- The trimmed text is a number of 64 bits, alone or in front of a unit letter. -/
inductive DurationOf (s : Str) : UInt64 → UInt64 → Prop where
  | plain {value : UInt64} (parsed : parseU64 (trim s) = some value) : DurationOf s value 1
  | suffixed {number : Str} {letter : Char} {value unit : UInt64}
      (split : trim s = number ++ [letter]) (known : unitSeconds letter = some unit)
      (parsed : parseU64 number = some value) : DurationOf s value unit

/-- The four suffixes of the source, tried in its order. -/
def suffixedDuration (s : Str) : Option (Str × UInt64) :=
  ((stripSuffix ['s'] s).map fun n => (n, (1 : UInt64))).or <|
  ((stripSuffix ['m'] s).map fun n => (n, 60)).or <|
  ((stripSuffix ['h'] s).map fun n => (n, 3600)).or <|
  (stripSuffix ['d'] s).map fun n => (n, 86400)

/-- `parse_duration` over the multiplication that the build profile gives. -/
def parseDurationWith (multiply : UInt64 → UInt64 → Except Failure UInt64) (s : Str) :
    Except Failure UInt64 :=
  let s := trim s
  if s = [] then .error (.parse "Empty duration value".toList)
  else
    match parseU64 s with
    | some secs => .ok secs
    | none =>
        match suffixedDuration s with
        | none =>
            .error (.parse ("Invalid duration '".toList ++ s ++
              "'. Use a plain number or Ns/Nm/Nh/Nd".toList))
        | some (numPart, multiplier) =>
            match parseU64 numPart with
            | none =>
                .error (.parse ("Invalid numeric value in duration: '".toList ++ s ++ ['\'']))
            | some value => multiply value multiplier

/-- The release profile. -/
def wrappingMultiply (value multiplier : UInt64) : Except Failure UInt64 :=
  .ok (value * multiplier)

/-- The debug profile. -/
def panickingMultiply (value multiplier : UInt64) : Except Failure UInt64 :=
  if value.toNat * multiplier.toNat < 2 ^ 64 then .ok (value * multiplier)
  else .error (.panic "attempt to multiply with overflow".toList)

def parseDurationDebug : Str → Except Failure UInt64 := parseDurationWith panickingMultiply

theorem parseDuration_eq (s : Str) : parseDuration s = parseDurationWith wrappingMultiply s := rfl

/-! ## The number and its unit -/

/-- A unit letter is not a digit. -/
theorem unitSeconds_letter {letter : Char} {unit : UInt64}
    (known : unitSeconds letter = some unit) : toDigit 10 letter = none := by
  by_contra digit
  have other : ∀ c, toDigit 10 c = none → letter ≠ c := by
    rintro c unread rfl
    exact digit unread
  rw [unitSeconds, if_neg (other 's' rfl), if_neg (other 'm' rfl), if_neg (other 'h' rfl),
    if_neg (other 'd' rfl)] at known
  cases known

theorem suffixedDuration_concat (number : Str) (letter : Char) :
    suffixedDuration (number ++ [letter]) =
      (unitSeconds letter).map fun unit => (number, unit) := by
  unfold suffixedDuration unitSeconds
  simp only [stripSuffix_concat]
  by_cases isS : letter = 's'
  · simp [isS]
  by_cases isM : letter = 'm'
  · simp [isM]
  by_cases isH : letter = 'h'
  · simp [isH]
  by_cases isD : letter = 'd'
  · simp [isD]
  · simp [isS, isM, isH, isD]

section Result
variable {multiply : UInt64 → UInt64 → Except Failure UInt64} {s : Str}

/-- A duration is the product that the build profile makes of its two parts. -/
theorem parseDurationWith_of (one : ∀ value, multiply value 1 = .ok value) {value unit : UInt64}
    (duration : DurationOf s value unit) : parseDurationWith multiply s = multiply value unit := by
  unfold parseDurationWith
  dsimp only
  cases duration with
  | plain parsed =>
      have some_ : trim s ≠ [] := by
        intro empty
        rw [empty] at parsed
        cases parsed
      rw [if_neg some_, parsed, one]
  | suffixed split known parsed =>
      rw [split, if_neg (List.concat_ne_nil _ _), parseU64_concat (unitSeconds_letter known)]
      dsimp only
      rw [suffixedDuration_concat, known, Option.map_some]
      dsimp only
      rw [parsed]

theorem parseDurationWith_cases :
    (∃ message, parseDurationWith multiply s = .error (.parse message)) ∨
      ∃ value unit, DurationOf s value unit := by
  by_cases empty : trim s = []
  · apply Or.inl
    unfold parseDurationWith
    dsimp only
    rw [if_pos empty]
    exact ⟨_, rfl⟩
  cases parsed : parseU64 (trim s) with
  | some value => exact Or.inr ⟨value, 1, .plain parsed⟩
  | none =>
      obtain ⟨number, letter, split⟩ := (List.eq_nil_or_concat' (trim s)).resolve_left empty
      cases known : unitSeconds letter with
      | none =>
          apply Or.inl
          unfold parseDurationWith
          dsimp only
          rw [if_neg empty, parsed]
          dsimp only
          rw [split, suffixedDuration_concat, known, Option.map_none]
          exact ⟨_, rfl⟩
      | some unit =>
          cases counted : parseU64 number with
          | some value => exact Or.inr ⟨value, unit, .suffixed split known counted⟩
          | none =>
              apply Or.inl
              unfold parseDurationWith
              dsimp only
              rw [if_neg empty, parsed]
              dsimp only
              rw [split, suffixedDuration_concat, known, Option.map_some]
              dsimp only
              rw [counted]
              exact ⟨_, rfl⟩

/-- A text has one reading. -/
theorem DurationOf.unique {first second firstUnit secondUnit : UInt64}
    (one : DurationOf s first firstUnit) (two : DurationOf s second secondUnit) :
    first = second ∧ firstUnit = secondUnit := by
  have apart : ∀ {number : Str} {letter : Char} {value unit : UInt64},
      trim s = number ++ [letter] → unitSeconds letter = some unit →
      parseU64 (trim s) ≠ some value := by
    intro number letter value unit split known parsed
    rw [split, parseU64_concat (unitSeconds_letter known)] at parsed
    cases parsed
  cases one with
  | plain parsed =>
      cases two with
      | plain parsed' =>
          rw [parsed] at parsed'
          exact ⟨Option.some.inj parsed', rfl⟩
      | suffixed split known _ => exact absurd parsed (apart split known)
  | suffixed split known parsed =>
      cases two with
      | plain parsed' => exact absurd parsed' (apart split known)
      | suffixed split' known' parsed' =>
          obtain ⟨rfl, same⟩ := List.append_inj' (split.symm.trans split') rfl
          obtain rfl := List.singleton_inj.mp same
          rw [known] at known'
          rw [parsed] at parsed'
          exact ⟨Option.some.inj parsed', Option.some.inj known'⟩

end Result

/-! ## Exact or rejected -/

/-- An error message, or number times unit as an integer. -/
def ExactDuration (s : Str) (result : Except Failure UInt64) : Prop :=
  (∃ message, result = .error (.parse message)) ∨
    ∃ value unit seconds, DurationOf s value unit ∧ result = .ok seconds ∧
      seconds.toNat = value.toNat * unit.toNat

/-- Number times unit is below `2 ^ 64`. -/
def DurationFits (s : Str) : Prop :=
  ∀ value unit, DurationOf s value unit → value.toNat * unit.toNat < 2 ^ 64

/-- What both profiles have in common: the product is right exactly when it fits. -/
structure Multiplies (multiply : UInt64 → UInt64 → Except Failure UInt64) : Prop where
  one : ∀ value, multiply value 1 = .ok value
  accepts : ∀ value unit message, multiply value unit ≠ .error (.parse message)
  right_iff : ∀ value unit, (∃ seconds, multiply value unit = .ok seconds ∧
    seconds.toNat = value.toNat * unit.toNat) ↔ value.toNat * unit.toNat < 2 ^ 64

theorem wrappingMultiply_multiplies : Multiplies wrappingMultiply where
  one value := by rw [wrappingMultiply, UInt64.mul_one]
  accepts value unit message := nofun
  right_iff value unit := by
    constructor
    · rintro ⟨seconds, _, right⟩
      rw [← right]
      exact seconds.toNat_lt
    · intro fits
      refine ⟨value * unit, rfl, ?_⟩
      rw [UInt64.toNat_mul, Nat.mod_eq_of_lt fits]

theorem panickingMultiply_multiplies : Multiplies panickingMultiply where
  one value := by
    have fits : value.toNat * (1 : UInt64).toNat < 2 ^ 64 := by
      rw [UInt64.toNat_one, Nat.mul_one]
      exact value.toNat_lt
    rw [panickingMultiply, if_pos fits, UInt64.mul_one]
  accepts value unit message := by
    unfold panickingMultiply
    split
    · nofun
    · nofun
  right_iff value unit := by
    constructor
    · rintro ⟨seconds, _, right⟩
      rw [← right]
      exact seconds.toNat_lt
    · intro fits
      refine ⟨value * unit, if_pos fits, ?_⟩
      rw [UInt64.toNat_mul, Nat.mod_eq_of_lt fits]

theorem Multiplies.exact_iff {multiply : UInt64 → UInt64 → Except Failure UInt64}
    (multiplies : Multiplies multiply) (s : Str) :
    ExactDuration s (parseDurationWith multiply s) ↔ DurationFits s := by
  constructor
  · rintro (⟨message, rejected⟩ | ⟨value, unit, seconds, duration, read, right⟩) number letter found
    · rw [parseDurationWith_of multiplies.one found] at rejected
      exact absurd rejected (multiplies.accepts number letter message)
    · obtain ⟨rfl, rfl⟩ := found.unique duration
      rw [parseDurationWith_of multiplies.one found] at read
      exact (multiplies.right_iff number letter).mp ⟨seconds, read, right⟩
  · intro fits
    rcases @parseDurationWith_cases multiply s with rejected | ⟨value, unit, duration⟩
    · exact Or.inl rejected
    · obtain ⟨seconds, read, right⟩ :=
        (multiplies.right_iff value unit).mpr (fits value unit duration)
      refine Or.inr ⟨value, unit, seconds, duration, ?_, right⟩
      rw [parseDurationWith_of multiplies.one duration, read]

/-- In both profiles a duration is exact or rejected if and only if its product fits. -/
theorem parseDuration_exact_iff (s : Str) :
    (ExactDuration s (parseDuration s) ↔ DurationFits s) ∧
      (ExactDuration s (parseDurationDebug s) ↔ DurationFits s) := by
  constructor
  · rw [parseDuration_eq]
    exact wrappingMultiply_multiplies.exact_iff s
  · exact panickingMultiply_multiplies.exact_iff s

/-! ## A wrapped timeout -/

def longMinutes : Str := "307445734561825861m".toList

theorem longMinutes_duration : DurationOf longMinutes 307445734561825861 60 :=
  @DurationOf.suffixed _ "307445734561825861".toList 'm' _ _ rfl rfl rfl

/-- More minutes than fit become 44 seconds, or a panic. -/
theorem parseDuration_wraps :
    DurationOf longMinutes 307445734561825861 60 ∧ parseDuration longMinutes = .ok 44 ∧
      parseDurationDebug longMinutes =
        .error (.panic "attempt to multiply with overflow".toList) ∧
      ¬ ExactDuration longMinutes (parseDuration longMinutes) ∧
      ¬ ExactDuration longMinutes (parseDurationDebug longMinutes) := by
  have overflow : ¬ DurationFits longMinutes := by
    intro fits
    have small := fits _ _ longMinutes_duration
    revert small
    decide
  refine ⟨longMinutes_duration, rfl, rfl, fun exact_ => overflow ?_, fun exact_ => overflow ?_⟩
  · exact (wrappingMultiply_multiplies.exact_iff longMinutes).mp exact_
  · exact (panickingMultiply_multiplies.exact_iff longMinutes).mp exact_

end TinyProxy
