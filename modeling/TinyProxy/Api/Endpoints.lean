import TinyProxy.Config.Acceptance
import TinyProxy.Config.Sockets

/-!
# Posting a configuration

`POST /config` stores what its body deserializes to.  The derived deserializer
is a parameter.  Requests swap the stored configuration one at a time, so a run
is the list of the bodies in the order in which they are handled.
-/

set_option autoImplicit false

namespace TinyProxy

open Rust Http

/-! ## Texts of the answers -/

/-- `std::str::from_utf8`. -/
def fromUtf8 (bytes : List UInt8) : Option Str :=
  (ByteArray.utf8Decode? bytes.toByteArray).map Array.toList

/-- One character of a JSON string, as it is written between the quotes. -/
def escapeChar (c : Char) : Str :=
  if c = '"' then ['\\', '"']
  else if c = '\\' then ['\\', '\\']
  else if c = '\x08' then ['\\', 'b']
  else if c = '\t' then ['\\', 't']
  else if c = '\n' then ['\\', 'n']
  else if c = '\x0c' then ['\\', 'f']
  else if c = '\r' then ['\\', 'r']
  else if c.toNat < 32 then
    "\\u00".toList ++ [Nat.digitChar (c.toNat / 16), Nat.digitChar (c.toNat % 16)]
  else [c]

/-- The two fields of an error answer; the keys of an object are sorted. -/
def errorJson (message : Str) : Str :=
  "\x7b\"message\":\"".toList ++ message.flatMap escapeChar ++
    "\",\"status\":\"error\"\x7d".toList

def jsonType : HeaderValue := ⟨utf8 "application/json".toList, by decide⟩

def jsonResponse (status : StatusCode) (body : Str) : Response :=
  ⟨status, [(.contentType, jsonType)], .full body⟩

/-! ## The handler -/

/-- A request body: its bytes, or the error that ended it. -/
abbrev Collected := Except Str (List UInt8)

/-- The text of the body, or the message of the answer. -/
def bodyText (collected : Collected) : Except Str Str :=
  match collected with
  | .error e => .error ("Failed to read request body: ".toList ++ e)
  | .ok bytes =>
      match fromUtf8 bytes with
      | none => .error "Invalid UTF-8 in request body".toList
      | some text => .ok text

/-- The posted configuration, or the message of the answer. -/
def postedConfig (fromJson : Str → Except Str Config) (collected : Collected) :
    Except Str Config := do
  let text ← bodyText collected
  match fromJson text with
  | .error e => .error ("Invalid configuration JSON: ".toList ++ e)
  | .ok config => .ok config

/-- The answer, and what is stored afterwards. -/
def handlePostConfig (fromJson : Str → Except Str Config) (collected : Collected)
    (stored : Config) : Response × Config :=
  match postedConfig fromJson collected with
  | .error message => (jsonResponse .badRequest (errorJson message), stored)
  | .ok config =>
      (jsonResponse .ok
        "\x7b\"status\": \"success\", \"message\": \"Configuration updated\"\x7d".toList, config)

section Posts
variable {fromJson : Str → Except Str Config} {stored : Config} {post : Collected}

end Posts

theorem fromUtf8_utf8 (s : Str) : fromUtf8 (utf8 s) = some s := by
  have decoded : ByteArray.utf8Decode? (utf8 s).toByteArray = some s.toArray :=
    List.utf8Decode?_utf8Encode
  rw [fromUtf8, decoded]
  rfl

theorem postedConfig_of_text {fromJson : Str → Except Str Config} {text : Str} {config : Config}
    (parsed : fromJson text = .ok config) :
    postedConfig fromJson (.ok (utf8 text)) = .ok config := by
  have read : bodyText (.ok (utf8 text)) = .ok text := by
    rw [bodyText, fromUtf8_utf8]
  rw [postedConfig, read]
  simp only [bind, Except.bind, parsed]

end TinyProxy
