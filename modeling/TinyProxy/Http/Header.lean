import TinyProxy.Data.Multimap
import TinyProxy.Rust.Str

/-!
# Header names, values and maps

A header name is kept in lower case and a header value holds no byte that would
break a header line, so neither can be built otherwise.  `fromBytes`, `fromStr`
and `toStr` accept what the HTTP library's functions of these names accept.
-/

set_option autoImplicit false

namespace Http

open Rust

/-! ## Names -/

/-- A token character in lower case. -/
def isTokenChar (c : Char) : Bool :=
  ('0' ≤ c && c ≤ '9') || ('a' ≤ c && c ≤ 'z') || "!#$%&'*+-.^_`|~".toList.contains c

def isHeaderName (text : Str) : Bool :=
  0 < text.length && text.length ≤ 65535 && text.all isTokenChar

structure HeaderName where
  text : Str
  valid : isHeaderName text = true
deriving DecidableEq

def HeaderName.fromBytes (name : Str) : Option HeaderName :=
  if valid : isHeaderName (toAsciiLowercase name) = true then
    some ⟨toAsciiLowercase name, valid⟩
  else none

namespace HeaderName

def host : HeaderName := ⟨"host".toList, by decide⟩
def connection : HeaderName := ⟨"connection".toList, by decide⟩
def upgrade : HeaderName := ⟨"upgrade".toList, by decide⟩
def te : HeaderName := ⟨"te".toList, by decide⟩
def trailer : HeaderName := ⟨"trailer".toList, by decide⟩
def proxyAuthenticate : HeaderName := ⟨"proxy-authenticate".toList, by decide⟩
def proxyAuthorization : HeaderName := ⟨"proxy-authorization".toList, by decide⟩
def contentLength : HeaderName := ⟨"content-length".toList, by decide⟩
def contentType : HeaderName := ⟨"content-type".toList, by decide⟩
def wwwAuthenticate : HeaderName := ⟨"www-authenticate".toList, by decide⟩
def location : HeaderName := ⟨"location".toList, by decide⟩
def authorization : HeaderName := ⟨"authorization".toList, by decide⟩
def cookie : HeaderName := ⟨"cookie".toList, by decide⟩
def acceptEncoding : HeaderName := ⟨"accept-encoding".toList, by decide⟩
def xRequestId : HeaderName := ⟨"x-request-id".toList, by decide⟩
def xOriginalUri : HeaderName := ⟨"x-original-uri".toList, by decide⟩
def xOriginalMethod : HeaderName := ⟨"x-original-method".toList, by decide⟩
def xForwardedFor : HeaderName := ⟨"x-forwarded-for".toList, by decide⟩
def xForwardedHost : HeaderName := ⟨"x-forwarded-host".toList, by decide⟩
def xForwardedProto : HeaderName := ⟨"x-forwarded-proto".toList, by decide⟩
def xRealIp : HeaderName := ⟨"x-real-ip".toList, by decide⟩

end HeaderName

/-! ## Values -/

def isValidByte (b : UInt8) : Bool := (32 ≤ b && b != 127) || b == 9

def isVisibleAscii (b : UInt8) : Bool := (32 ≤ b && b < 127) || b == 9

structure HeaderValue where
  bytes : List UInt8
  valid : bytes.all isValidByte = true
deriving DecidableEq

def HeaderValue.fromStr (s : Str) : Option HeaderValue :=
  if valid : (utf8 s).all isValidByte = true then some ⟨utf8 s, valid⟩ else none

def HeaderValue.toStr (value : HeaderValue) : Option Str :=
  if value.bytes.all isVisibleAscii then some (value.bytes.map fun b => Char.ofNat b.toNat)
  else none

/-- Every character is a tab or a printable ASCII one. -/
def VisibleText (s : Str) : Prop := ∀ c ∈ s, (32 ≤ c.toNat ∧ c.toNat < 127) ∨ c.toNat = 9

instance (s : Str) : Decidable (VisibleText s) := List.decidableBAll _ s

theorem utf8_of_visible {s : Str} (visible : VisibleText s) :
    utf8 s = s.map fun c => UInt8.ofNat c.toNat := by
  induction s with
  | nil => rfl
  | cons c rest ih =>
      have small : c.toNat ≤ 0x7f := by
        have here := visible c (by simp)
        omega
      have encoded : String.utf8EncodeChar c = [UInt8.ofNat c.toNat] := if_pos small
      have later := ih fun d member => visible d (List.mem_cons_of_mem _ member)
      rw [utf8, List.flatMap_cons, ← utf8, later, encoded]
      rfl

theorem isVisibleAscii_ofNat {n : Nat} (visible : (32 ≤ n ∧ n < 127) ∨ n = 9) :
    isVisibleAscii (UInt8.ofNat n) = true := by
  have small : n % 256 = n := by omega
  simp only [isVisibleAscii, Bool.or_eq_true, Bool.and_eq_true, decide_eq_true_eq,
    UInt8.le_iff_toNat_le, UInt8.lt_iff_toNat_lt, beq_iff_eq, ← UInt8.toNat_inj,
    UInt8.toNat_ofNat', UInt8.reduceToNat, Nat.reducePow, small]
  exact visible

theorem isValidByte_of_visible {b : UInt8} (visible : isVisibleAscii b = true) :
    isValidByte b = true := by
  simp only [isVisibleAscii, isValidByte, Bool.or_eq_true, Bool.and_eq_true,
    decide_eq_true_eq, bne_iff_ne, beq_iff_eq] at visible ⊢
  rcases visible with ⟨low, high⟩ | tab
  · exact Or.inl ⟨low, fun same => by simp [same] at high⟩
  · exact Or.inr tab

/-- A visible text is a header value, and reading it back gives the text. -/
theorem HeaderValue.ofVisible {s : Str} (visible : VisibleText s) :
    ∃ value, HeaderValue.fromStr s = some value ∧ value.toStr = some s := by
  have bytes := utf8_of_visible visible
  have visibleBytes : (utf8 s).all isVisibleAscii = true := by
    rw [List.all_eq_true]
    intro b member
    rw [bytes] at member
    obtain ⟨c, inText, rfl⟩ := List.mem_map.mp member
    exact isVisibleAscii_ofNat (visible c inText)
  have valid : (utf8 s).all isValidByte = true := by
    rw [List.all_eq_true] at visibleBytes ⊢
    exact fun b member => isValidByte_of_visible (visibleBytes b member)
  have back : ∀ c ∈ s, Char.ofNat (UInt8.ofNat c.toNat).toNat = c := by
    intro c inText
    have small : c.toNat % 256 = c.toNat := by
      have here := visible c inText
      omega
    rw [UInt8.toNat_ofNat', small, Char.ofNat_toNat]
  refine ⟨⟨utf8 s, valid⟩, by rw [HeaderValue.fromStr, dif_pos valid], ?_⟩
  rw [HeaderValue.toStr, if_pos visibleBytes]
  change some ((utf8 s).map fun b => Char.ofNat b.toNat) = some s
  rw [bytes, List.map_map, Option.some.injEq]
  exact (List.map_congr_left back).trans s.map_id'

/-- What can be read back is visible. -/
theorem HeaderValue.toStr_visible {value : HeaderValue} {s : Str}
    (read : value.toStr = some s) : VisibleText s := by
  unfold HeaderValue.toStr at read
  split at read
  · rename_i visible
    rw [List.all_eq_true] at visible
    obtain rfl := Option.some.inj read
    intro c member
    obtain ⟨b, inBytes, rfl⟩ := List.mem_map.mp member
    have here := visible b inBytes
    simp only [isVisibleAscii, Bool.or_eq_true, Bool.and_eq_true, decide_eq_true_eq,
      UInt8.le_iff_toNat_le, UInt8.lt_iff_toNat_lt, beq_iff_eq, ← UInt8.toNat_inj] at here
    change (32 ≤ b.toNat ∧ b.toNat < 127) ∨ b.toNat = 9 at here
    have small : Nat.isValidChar b.toNat := Or.inl (by omega)
    rw [Char.toNat_ofNat, if_pos small]
    exact here
  · cases read

theorem token_range {c : Char} (token : isTokenChar c = true) :
    32 ≤ c.toNat ∧ c.toNat < 127 := by
  simp only [isTokenChar, Bool.or_eq_true, Bool.and_eq_true, decide_eq_true_eq, Char.le_def,
    UInt32.le_iff_toNat_le, List.contains_iff_mem] at token
  change ((48 ≤ c.toNat ∧ c.toNat ≤ 57) ∨ (97 ≤ c.toNat ∧ c.toNat ≤ 122)) ∨ _ at token
  rcases token with (digit | letter) | special
  · omega
  · omega
  · have range : ("!#$%&'*+-.^_`|~".toList.all fun d => 32 ≤ d.toNat && d.toNat < 127) = true := by
      decide
    simpa using List.all_eq_true.mp range c special

/-- A token character separates nothing and is its own lower case. -/
theorem token_plain {c : Char} (token : isTokenChar c = true) :
    isWhitespace c = false ∧ c ≠ '\x7b' ∧ c.toLower = c := by
  have special : ("!#$%&'*+-.^_`|~".toList.all fun d =>
      !isWhitespace d && (d != '\x7b') && (d.toLower == d)) = true := by decide
  simp only [isTokenChar, Bool.or_eq_true, Bool.and_eq_true, decide_eq_true_eq, Char.le_def,
    UInt32.le_iff_toNat_le, List.contains_iff_mem] at token
  change ((48 ≤ c.toNat ∧ c.toNat ≤ 57) ∨ (97 ≤ c.toNat ∧ c.toNat ≤ 122)) ∨ _ at token
  rcases token with alphanumeric | member
  · refine ⟨?_, ?_, ?_⟩
    · simp only [isWhitespace, Bool.or_eq_false_iff, Bool.and_eq_false_iff,
        decide_eq_false_iff_not, beq_eq_false_iff_ne]
      omega
    · rintro rfl
      have brace : ('\x7b').toNat = 123 := rfl
      omega
    · unfold Char.toLower
      refine dif_neg fun upper => ?_
      simp only [ge_iff_le, UInt32.le_iff_toNat_le] at upper
      change 65 ≤ c.toNat ∧ c.toNat ≤ 90 at upper
      omega
  · have plain := List.all_eq_true.mp special c member
    simp only [Bool.and_eq_true, Bool.not_eq_true', bne_iff_ne, beq_iff_eq] at plain
    exact ⟨plain.1.1, plain.1.2, plain.2⟩

theorem HeaderName.token (name : HeaderName) : ∀ c ∈ name.text, isTokenChar c = true := by
  have valid := name.valid
  simp only [isHeaderName, Bool.and_eq_true, List.all_eq_true] at valid
  exact valid.2

/-- A name is read back from its own text. -/
theorem HeaderName.fromBytes_text (name : HeaderName) : fromBytes name.text = some name := by
  have lower : toAsciiLowercase name.text = name.text := by
    rw [toAsciiLowercase, List.map_congr_left fun c member => (token_plain (name.token c member)).2.2]
    exact name.text.map_id'
  have valid : isHeaderName (toAsciiLowercase name.text) = true := by
    rw [lower]
    exact name.valid
  rw [fromBytes, dif_pos valid, Option.some.injEq, HeaderName.mk.injEq]
  exact lower

theorem visible_of_token {c : Char} (token : isTokenChar c.toLower = true) :
    32 ≤ c.toNat ∧ c.toNat < 127 := by
  unfold Char.toLower at token
  split at token
  · rename_i upper
    simp only [ge_iff_le, UInt32.le_iff_toNat_le] at upper
    change 65 ≤ c.toNat ∧ c.toNat ≤ 90 at upper
    omega
  · exact token_range token

/-- The text a header name is made from can itself be sent as a value. -/
theorem HeaderName.fromBytes_visible {text : Str} {name : HeaderName}
    (made : HeaderName.fromBytes text = some name) : VisibleText text := by
  unfold HeaderName.fromBytes at made
  split at made
  · rename_i valid
    simp only [isHeaderName, Bool.and_eq_true, List.all_eq_true] at valid
    intro c member
    exact Or.inl (visible_of_token (valid.2 c.toLower (List.mem_map_of_mem member)))
  · simp at made

abbrev HeaderMap := Multimap HeaderName HeaderValue

end Http
