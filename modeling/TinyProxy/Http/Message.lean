import TinyProxy.Http.Header

/-!
# Requests, responses and exchanges

`Uri` holds what the accessors of the HTTP library's type return; its parsers
are a parameter.  An `Exchange` is what the shared client sees after it sent a
request: a timed sequence of events, with delays in milliseconds.
-/

set_option autoImplicit false

namespace Http

open Rust

/-! ## Status codes -/

structure StatusCode where
  asU16 : UInt16
  valid : 100 ≤ asU16.toNat ∧ asU16.toNat ≤ 999
deriving DecidableEq

def StatusCode.fromU16 (code : UInt16) : Option StatusCode :=
  if valid : 100 ≤ code.toNat ∧ code.toNat ≤ 999 then some ⟨code, valid⟩ else none

namespace StatusCode

def ok : StatusCode := ⟨200, by decide⟩
def found : StatusCode := ⟨302, by decide⟩
def badRequest : StatusCode := ⟨400, by decide⟩
def forbidden : StatusCode := ⟨403, by decide⟩
def notFound : StatusCode := ⟨404, by decide⟩
def internalServerError : StatusCode := ⟨500, by decide⟩
def badGateway : StatusCode := ⟨502, by decide⟩
def serviceUnavailable : StatusCode := ⟨503, by decide⟩
def gatewayTimeout : StatusCode := ⟨504, by decide⟩

def isSuccess (status : StatusCode) : Bool :=
  200 ≤ status.asU16.toNat && status.asU16.toNat < 300

def isClientError (status : StatusCode) : Bool :=
  400 ≤ status.asU16.toNat && status.asU16.toNat < 500

/-- The reason phrases of the statuses the proxy writes error pages for. -/
def canonicalReason (status : StatusCode) : Option Str :=
  if status = notFound then some "Not Found".toList
  else if status = internalServerError then some "Internal Server Error".toList
  else if status = badGateway then some "Bad Gateway".toList
  else if status = gatewayTimeout then some "Gateway Timeout".toList
  else none

theorem not_clientError_of_success {status : StatusCode} (success : status.isSuccess = true) :
    status.isClientError = false := by
  simp only [isSuccess, isClientError, Bool.and_eq_true, Bool.and_eq_false_iff,
    decide_eq_true_eq, decide_eq_false_iff_not] at success ⊢
  omega

end StatusCode

/-! ## Request targets -/

structure Uri where
  scheme : Option Str
  authority : Option Str
  pathAndQuery : Option Str
deriving DecidableEq

def Uri.path (uri : Uri) : Str :=
  match uri.pathAndQuery with
  | none => []
  | some target =>
      let path := target.takeWhile (· ≠ '?')
      if path = [] then ['/'] else path

def Uri.query (uri : Uri) : Option Str :=
  (uri.pathAndQuery.bind (Text.splitOnce ['?'])).map Prod.snd

/-- The HTTP library's fallible conversions; errors are their messages. -/
structure UriParser where
  parseUri : Str → Except Str Uri
  parsePathAndQuery : Str → Except Str Str
  fromParts : Uri → Except Str Uri

/-- Reads `scheme://authority/path`; enough for concrete runs. -/
def plainUriParser : UriParser where
  parseUri s :=
    match Text.splitOnce "://".toList s with
    | none => .error "invalid format".toList
    | some (scheme, rest) =>
        let authority := rest.takeWhile (· ≠ '/')
        let path := rest.dropWhile (· ≠ '/')
        if authority = [] then .error "empty authority".toList
        else .ok ⟨some scheme, some authority, some (if path = [] then ['/'] else path)⟩
  parsePathAndQuery s := if startsWith ['/'] s then .ok s else .error "invalid uri character".toList
  fromParts := .ok

/-! ## Messages -/

structure Request where
  method : Str
  uri : Uri
  headers : HeaderMap
deriving DecidableEq

/-- A response body as the reader meets it.  Frames that never stop coming look
`stalled` from the first instant at which nobody reads them any more. -/
inductive Body where
  | frame (delay : Nat) (data : List UInt8) (rest : Body)
  | finished (delay : Nat)
  | broken (delay : Nat) (message : Str)
  | stalled
deriving DecidableEq

/-- When reading to the end stops, and the error it stops with. -/
def Body.drain : Nat → Body → Option (Nat × Option Str)
  | now, .frame delay _ rest => drain (now + delay) rest
  | now, .finished delay => some (now + delay, none)
  | now, .broken delay message => some (now + delay, some message)
  | _, .stalled => none

inductive Exchange where
  | failed (delay : Nat) (isConnect : Bool) (message : Str)
  | silent
  | response (delay : Nat) (status : StatusCode) (headers : HeaderMap) (body : Body)
deriving DecidableEq

/-- `tokio::time::timeout`: a future that is ready at the deadline still wins. -/
def timeout {β : Type} (seconds : UInt64) (ready : Option (Nat × β)) : Option β :=
  match ready with
  | some (time, value) => if time ≤ seconds.toNat * 1000 then some value else none
  | none => none

inductive ResponseBody where
  | full (text : Str)
  | streamed (body : Body)
deriving DecidableEq

structure Response where
  status : StatusCode
  headers : HeaderMap
  body : ResponseBody
deriving DecidableEq

end Http
