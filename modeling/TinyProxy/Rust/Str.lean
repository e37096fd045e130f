import TinyProxy.Text.Search

/-!
# `str` operations and results

A `String` or `&str` is the list of its Unicode scalar values.  The functions
below are the standard-library operations the proxy calls, under their own
names; positions are counted in UTF-8 bytes where the program prints them.
-/

set_option autoImplicit false

namespace Rust

abbrev Str := List Char

/-- The Unicode `White_Space` property, as `char::is_whitespace` tests it. -/
def isWhitespace (c : Char) : Bool :=
  let n := c.toNat
  (9 ≤ n && n ≤ 13) || n == 0x20 || n == 0x85 || n == 0xA0 || n == 0x1680 ||
    (0x2000 ≤ n && n ≤ 0x200A) || n == 0x2028 || n == 0x2029 || n == 0x202F ||
    n == 0x205F || n == 0x3000

def trim (s : Str) : Str := (s.dropWhile isWhitespace).rdropWhile isWhitespace

/-- The maximal runs of non-whitespace, in order. -/
def splitWhitespace : Str → List Str
  | [] => []
  | c :: rest =>
      if isWhitespace c then splitWhitespace rest
      else
        match rest, splitWhitespace rest with
        | d :: _, word :: words =>
            if isWhitespace d then [c] :: word :: words else (c :: word) :: words
        | _, words => [c] :: words

/-- Lines end in `\n` or `\r\n`; a final line without terminator counts. -/
def lines : Str → List Str
  | [] => []
  | '\n' :: rest => [] :: lines rest
  | '\r' :: '\n' :: rest => [] :: lines rest
  | c :: rest =>
      match lines rest with
      | [] => [[c]]
      | line :: more => (c :: line) :: more

def startsWith (pat s : Str) : Bool := pat.isPrefixOf s

def endsWith (pat s : Str) : Bool := pat.isSuffixOf s

def stripPrefix (pat s : Str) : Option Str :=
  if startsWith pat s then some (s.drop pat.length) else none

def stripSuffix (pat s : Str) : Option Str :=
  if endsWith pat s then some (s.take (s.length - pat.length)) else none

/-- `str::replace`; an empty pattern matches before every character and at the end. -/
def replace (pat new s : Str) : Str :=
  if pat = [] then new ++ s.flatMap (fun c => c :: new) else Text.replaceFrom pat new 0 s

/-- What precedes and what follows the last `c` (`rsplit_once`, `rsplitn(2, _)`). -/
def rsplitOnce (c : Char) : Str → Option (Str × Str)
  | [] => none
  | d :: rest =>
      match rsplitOnce c rest with
      | some (before, after) => some (d :: before, after)
      | none => if d = c then some ([], rest) else none

/-- `s.rsplit(c).next()`: the text after the last `c`, or all of it. -/
def afterLast (c : Char) (s : Str) : Str := ((rsplitOnce c s).map Prod.snd).getD s

/-- `s.rsplit(c).next_back()`: the text before the first `c`, or all of it. -/
def beforeFirst (c : Char) (s : Str) : Str := s.takeWhile (· ≠ c)

def toAsciiLowercase (s : Str) : Str := s.map Char.toLower

def eqIgnoreAsciiCase (a b : Str) : Bool := toAsciiLowercase a = toAsciiLowercase b

/-- `char::to_digit` for a radix up to 16. -/
def toDigit (radix : Nat) (c : Char) : Option Nat :=
  let value :=
    if '0' ≤ c ∧ c ≤ '9' then some (c.toNat - '0'.toNat)
    else if 'a' ≤ c ∧ c ≤ 'f' then some (c.toNat - 'a'.toNat + 10)
    else if 'A' ≤ c ∧ c ≤ 'F' then some (c.toNat - 'A'.toNat + 10)
    else none
  value.filter (· < radix)

def readDigits (radix : Nat) : Nat → Str → Option Nat
  | total, [] => some total
  | total, c :: rest =>
      (toDigit radix c).bind fun d => readDigits radix (total * radix + d) rest

/-- `str::parse` for an unsigned integer type: an optional `+`, at least one
decimal digit, nothing else, and a value below `bound`. -/
def parseUnsigned (bound : Nat) (s : Str) : Option Nat :=
  let digits := (stripPrefix ['+'] s).getD s
  if digits = [] then none else (readDigits 10 0 digits).filter (· < bound)

def parseU16 (s : Str) : Option UInt16 := (parseUnsigned (2 ^ 16) s).map UInt16.ofNat

def parseU64 (s : Str) : Option UInt64 := (parseUnsigned (2 ^ 64) s).map UInt64.ofNat

def join (sep : Str) (parts : List Str) : Str := List.intercalate sep parts

def decimal (n : Nat) : Str := Nat.toDigits 10 n

/-- `str::len`: the length in UTF-8 bytes. -/
def byteLen (s : Str) : Nat := (s.map Char.utf8Size).sum

def utf8 (s : Str) : List UInt8 := s.flatMap String.utf8EncodeChar

/-! ## Prefixes and suffixes -/

theorem stripPrefix_eq_some_iff {pat s rest : Str} :
    stripPrefix pat s = some rest ↔ s = pat ++ rest := by
  unfold stripPrefix startsWith
  constructor
  · intro stripped
    split at stripped
    · rename_i here
      obtain ⟨tail, split⟩ := List.isPrefixOf_iff_prefix.mp here
      rw [← split, List.drop_left] at stripped
      rw [← split, Option.some.inj stripped]
    · simp at stripped
  · rintro rfl
    simp

theorem stripSuffix_eq_some_iff {pat s rest : Str} :
    stripSuffix pat s = some rest ↔ s = rest ++ pat := by
  unfold stripSuffix endsWith
  constructor
  · intro stripped
    split at stripped
    · rename_i here
      obtain ⟨front, split⟩ := List.isSuffixOf_iff_suffix.mp here
      rw [← split, List.length_append, Nat.add_sub_cancel, List.take_left] at stripped
      rw [← split, Option.some.inj stripped]
    · simp at stripped
  · rintro rfl
    simp

/-! ## The last separator -/

theorem rsplitOnce_eq_none_iff {c : Char} {s : Str} : rsplitOnce c s = none ↔ c ∉ s := by
  induction s with
  | nil => simp [rsplitOnce]
  | cons d rest ih =>
      rw [rsplitOnce, List.mem_cons, not_or]
      cases later : rsplitOnce c rest with
      | some parts =>
          have present : ¬ c ∉ rest := by rw [← ih, later]; simp
          simp [present]
      | none =>
          have absent : c ∉ rest := ih.mp later
          by_cases same : d = c
          · simp [same]
          · simp [same, absent, Ne.symm same]

theorem afterLast_plain {c : Char} {s : Str} (clear : c ∉ s) : afterLast c s = s := by
  rw [afterLast, rsplitOnce_eq_none_iff.mpr clear]
  rfl

theorem rsplitOnce_append {c : Char} {after : Str} (clear : c ∉ after) : ∀ before : Str,
    rsplitOnce c (before ++ c :: after) = some (before, after) := by
  intro before
  induction before with
  | nil => simp [rsplitOnce, rsplitOnce_eq_none_iff.mpr clear]
  | cons d rest ih => simp [rsplitOnce, ih]

theorem rsplitOnce_sound {c : Char} : ∀ {s before after : Str},
    rsplitOnce c s = some (before, after) → s = before ++ c :: after ∧ c ∉ after := by
  intro s
  induction s with
  | nil => intro before after cut; simp [rsplitOnce] at cut
  | cons d rest ih =>
      intro before after cut
      rw [rsplitOnce] at cut
      cases later : rsplitOnce c rest with
      | some parts =>
          obtain ⟨front, back⟩ := parts
          obtain ⟨split, clear⟩ := ih later
          simp only [later, Option.some.injEq, Prod.mk.injEq] at cut
          rw [← cut.1, ← cut.2, split]
          exact ⟨rfl, clear⟩
      | none =>
          by_cases same : d = c
          · simp only [later, if_pos same, Option.some.injEq, Prod.mk.injEq] at cut
            rw [← cut.1, ← cut.2, same]
            exact ⟨rfl, rsplitOnce_eq_none_iff.mp later⟩
          · simp [later, same] at cut

/-! ## Results -/

/-- A `?` that let the computation go on. -/
theorem bind_ok {ε β γ : Type} {first : Except ε β} {rest : β → Except ε γ} {result : γ}
    (success : (first >>= rest) = .ok result) :
    ∃ value, first = .ok value ∧ rest value = .ok result := by
  cases first with
  | error e => cases success
  | ok value => exact ⟨value, rfl, success⟩

section Messages
variable {ε β γ : Type}

/-! Without its message an error is `none`. -/

theorem toOption_bind (first : Except ε β) (rest : β → Except ε γ) :
    (first >>= rest).toOption = first.toOption.bind fun value => (rest value).toOption := by
  cases first <;> rfl

theorem toOption_mapM (f : β → Except ε γ) (xs : List β) :
    (xs.mapM f).toOption = xs.mapM fun x => (f x).toOption := by
  induction xs with
  | nil => rfl
  | cons x rest ih =>
      rw [List.mapM_cons, List.mapM_cons, toOption_bind]
      refine Option.bind_congr fun y _ => ?_
      rw [toOption_bind, ih]
      rfl

end Messages

end Rust
