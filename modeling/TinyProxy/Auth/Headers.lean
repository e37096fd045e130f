import TinyProxy.Http.Message
import TinyProxy.Text.Expand

/-!
# Placeholder substitution

The two `while` loops of `process_header_substitution` are `Text.expandFrom`
with different openers; `none` says that the fuel ran out before a loop ended.
-/

set_option autoImplicit false

namespace TinyProxy

open Rust Http

/-! ## What the process reads -/

/-- A name the environment can hold a variable under. -/
def IsVariable (name : Str) : Prop := name ≠ [] ∧ '=' ∉ name ∧ '\x00' ∉ name

instance (name : Str) : Decidable (IsVariable name) := inferInstanceAs (Decidable (_ ∧ _ ∧ _))

structure Environment where
  var : Str → Option Str
  wellFormed : ∀ name value, var name = some value → IsVariable name ∧ '\x00' ∉ value

def Environment.empty : Environment := ⟨fun _ => none, by simp⟩

/-- An environment with one variable. -/
def Environment.single (name value : Str) (isVariable : IsVariable name)
    (clean : '\x00' ∉ value) : Environment where
  var := fun n => if n = name then some value else none
  wellFormed := by
    intro n v found
    by_cases same : n = name
    · simp only [if_pos same, Option.some.injEq] at found
      rw [same, ← found]
      exact ⟨isVariable, clean⟩
    · simp [same] at found

def isUuidText (text : Str) : Bool :=
  text.length == 36 && text.all fun c => (toDigit 16 c).isSome || c == '-'

/-- A version 4 UUID in its hyphenated form. -/
structure Uuid where
  text : Str
  valid : isUuidText text = true
deriving DecidableEq

def exampleUuid : Uuid := ⟨"11111111-2222-4333-8444-555555555555".toList, by decide⟩

/-! ## Substitution -/

def headerOpener : Str := "\x7bheader.".toList
def envOpener : Str := "\x7benv.".toList
def uuidTag : Str := "\x7buuid\x7d".toList
def upstreamHostTag : Str := "\x7bupstream_host\x7d".toList
def requestUriTag : Str := "\x7brequest.uri\x7d".toList
def remoteIpTag : Str := "\x7bremote_ip\x7d".toList

/-- `headers().get(name)` read as text; nothing stands for a missing header. -/
def headerText (headers : HeaderMap) (name : Str) : Str :=
  (((HeaderName.fromBytes name).bind headers.get).bind HeaderValue.toStr).getD []

def envText (env : Environment) (name : Str) : Str := (env.var name).getD []

def unclosedMessage (what before : Str) : Str :=
  "Unclosed ".toList ++ what ++ " substitution at position ".toList ++ decimal (byteLen before)

/-- How one of the loops ends. -/
def loopResult (what : Str) : Text.Expansion Char → Except Str Str
  | .finished text => .ok text
  | .unclosed before => .error (unclosedMessage what before)

def headerLoop (fuel : Nat) (headers : HeaderMap) (text : Str) : Option (Except Str Str) :=
  (Text.expandFrom headerOpener '\x7d' (headerText headers) fuel text).map
    (loopResult "header".toList)

def envLoop (fuel : Nat) (env : Environment) (text : Str) : Option (Except Str Str) :=
  (Text.expandFrom envOpener '\x7d' (envText env) fuel text).map
    (loopResult "environment variable".toList)

def processHeaderSubstitution (fuel : Nat) (env : Environment) (uuid : Uuid)
    (headers : HeaderMap) (value : Str) : Option (Except Str Str) :=
  match headerLoop fuel headers value with
  | none => none
  | some (.error e) => some (.error e)
  | some (.ok result) =>
      match envLoop fuel env result with
      | none => none
      | some (.error e) => some (.error e)
      | some (.ok result) => some (.ok (replace uuidTag uuid.text result))

def processUpstreamSubstitution (fuel : Nat) (env : Environment) (uuid : Uuid)
    (headers : HeaderMap) (upstreamHost requestUri remoteIp value : Str) :
    Option (Except Str Str) :=
  match processHeaderSubstitution fuel env uuid headers value with
  | none => none
  | some (.error e) => some (.error e)
  | some (.ok result) =>
      some (.ok (replace remoteIpTag remoteIp
        (replace requestUriTag requestUri (replace upstreamHostTag upstreamHost result))))

/-! ## The client address -/

def extractRemoteIp (headers : HeaderMap) : Option Str :=
  match (headers.get .xForwardedFor).bind HeaderValue.toStr with
  | some forwarded => some (trim (forwarded.takeWhile (· ≠ ',')))
  | none => (headers.get .xRealIp).bind HeaderValue.toStr

end TinyProxy
