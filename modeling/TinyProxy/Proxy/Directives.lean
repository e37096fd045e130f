import TinyProxy.Auth.Headers
import TinyProxy.Config.Models
import TinyProxy.Data.Writes

/-!
# Directive handlers
-/

set_option autoImplicit false

namespace TinyProxy

open Rust Http

inductive ActionResult where
  | respond (status : UInt16) (body : Str)
  | reverseProxy (backendUrl pathToSend : Str) (connectTimeout readTimeout : Option UInt64)
      (headerUp : List HeaderDirective)
  | redirect (status : UInt16) (url : Str)
  | authDenied (status : UInt16) (wwwAuthenticate : Option HeaderValue)
deriving DecidableEq

/-- `none` when the substitution runs out of fuel; an error leaves the request alone. -/
def handleHeader (fuel : Nat) (env : Environment) (uuid : Uuid) (name : Str)
    (value : Option Str) (req : Request) : Option (Except Str Request) :=
  match HeaderName.fromBytes name with
  | none => some (.error "invalid HTTP header name".toList)
  | some headerName =>
      match value with
      | none => some (.ok { req with headers := Multimap.remove req.headers headerName })
      | some template =>
          match processHeaderSubstitution fuel env uuid req.headers template with
          | none => none
          | some (.error e) => some (.error e)
          | some (.ok processed) =>
              match HeaderValue.fromStr processed with
              | none => some (.error "failed to parse header value".toList)
              | some v => some (.ok { req with headers := Multimap.insert req.headers headerName v })

/-- What the substitutions of one `header_up` list have in common. -/
structure UpstreamCtx where
  upstreamHost : Str
  requestUri : Str
  remoteIp : Str

def applyHeaderDirective (fuel : Nat) (env : Environment) (uuid : Uuid) (ctx : UpstreamCtx)
    (directive : HeaderDirective) (req : Request) : Option Request :=
  match HeaderName.fromBytes directive.name with
  | none => some req
  | some headerName =>
      match directive.value with
      | none => some { req with headers := Multimap.remove req.headers headerName }
      | some template =>
          match processUpstreamSubstitution fuel env uuid req.headers ctx.upstreamHost
              ctx.requestUri ctx.remoteIp template with
          | none => none
          | some (.error _) => some req
          | some (.ok processed) =>
              match HeaderValue.fromStr processed with
              | none => some req
              | some v => some { req with headers := Multimap.insert req.headers headerName v }

/-- The `n`-th operation of the list draws the UUID with number `start + n`. -/
def applyHeaderUp (fuel : Nat) (env : Environment) (uuids : Nat → Uuid) (ctx : UpstreamCtx) :
    Nat → List HeaderDirective → Request → Option Request
  | _, [], req => some req
  | start, directive :: rest, req =>
      (applyHeaderDirective fuel env (uuids start) ctx directive req).bind
        (applyHeaderUp fuel env uuids ctx (start + 1) rest)

def handleUriReplace (find replacement path : Str) : Str := replace find replacement path

/-- The result always starts with `/` when something was stripped. -/
def handleStripPrefix (pattern path : Str) : Str :=
  match stripPrefix pattern path with
  | none => path
  | some stripped =>
      if stripped = [] ∨ startsWith ['/'] stripped = false then '/' :: stripped else stripped

def handleMethod (methods : List Str) (req : Request) : Bool :=
  methods.any fun m => eqIgnoreAsciiCase m req.method

/-- What remains of the path when the pattern matches. -/
def matchPattern (pattern path : Str) : Option Str :=
  match stripSuffix "/*".toList pattern with
  | some lead => stripPrefix lead path
  | none => if pattern = path then some ['/'] else none

example : matchPattern "/api/*".toList "/api/users".toList = some "/users".toList := by decide

/-! ## Header operations as writes -/

/-- The write of an operation that succeeds: the name is valid and, for a value, the
substitution gives a text that can be encoded. -/
def headerWrite (substitute : Str → Option (Except Str Str)) (name : Str) (value : Option Str) :
    Option (Multimap.Write HeaderName HeaderValue) :=
  (HeaderName.fromBytes name).bind fun headerName =>
    match value with
    | none => some ⟨headerName, none⟩
    | some template =>
        (((substitute template).bind Except.toOption).bind HeaderValue.fromStr).map fun v =>
          ⟨headerName, some v⟩

/-- A write is to the header that is named. -/
theorem headerWrite_key {substitute : Str → Option (Except Str Str)} {name : Str}
    {value : Option Str} {w : Multimap.Write HeaderName HeaderValue}
    (written : headerWrite substitute name value = some w) :
    HeaderName.fromBytes name = some w.key := by
  obtain ⟨headerName, named, written⟩ := Option.bind_eq_some_iff.mp written
  cases value with
  | none =>
      obtain rfl := Option.some.inj written
      exact named
  | some template =>
      obtain ⟨v, _, rfl⟩ := Option.map_eq_some_iff.mp written
      exact named

/-- The text that a `header_up` template stands for. -/
def UpstreamCtx.substitute (ctx : UpstreamCtx) (fuel : Nat) (env : Environment) (uuid : Uuid)
    (headers : HeaderMap) : Str → Option (Except Str Str) :=
  processUpstreamSubstitution fuel env uuid headers ctx.upstreamHost ctx.requestUri ctx.remoteIp

/-- Both operations, up to the substitution that their templates go through. -/
def tryHeader (substitute : Str → Option (Except Str Str)) (name : Str) (value : Option Str)
    (req : Request) : Option (Except Str Request) :=
  match HeaderName.fromBytes name with
  | none => some (.error "invalid HTTP header name".toList)
  | some headerName =>
      match value with
      | none => some (.ok { req with headers := Multimap.remove req.headers headerName })
      | some template =>
          match substitute template with
          | none => none
          | some (.error e) => some (.error e)
          | some (.ok processed) =>
              match HeaderValue.fromStr processed with
              | none => some (.error "failed to parse header value".toList)
              | some v => some (.ok { req with headers := Multimap.insert req.headers headerName v })

section Operations
variable {fuel : Nat} {env : Environment} {uuid : Uuid} {req : Request}

theorem handleHeader_eq_try (name : Str) (value : Option Str) :
    handleHeader fuel env uuid name value req =
      tryHeader (processHeaderSubstitution fuel env uuid req.headers) name value req := rfl

/-- A failed `header_up` operation leaves the request alone. -/
theorem applyHeaderDirective_eq_try (ctx : UpstreamCtx) (directive : HeaderDirective) :
    applyHeaderDirective fuel env uuid ctx directive req =
      (tryHeader (ctx.substitute fuel env uuid req.headers) directive.name directive.value
        req).map fun result => result.toOption.getD req := by
  unfold applyHeaderDirective tryHeader
  cases HeaderName.fromBytes directive.name with
  | none => rfl
  | some headerName =>
      cases directive.value with
      | none => rfl
      | some template =>
          dsimp only [UpstreamCtx.substitute]
          cases processUpstreamSubstitution fuel env uuid req.headers ctx.upstreamHost
              ctx.requestUri ctx.remoteIp template with
          | none => rfl
          | some outcome =>
              cases outcome with
              | error e => rfl
              | ok processed =>
                  dsimp only
                  cases HeaderValue.fromStr processed <;> rfl

variable {substitute : Str → Option (Except Str Str)} {name : Str} {value : Option Str}

/-- An operation that succeeds makes its write, one that fails has none. -/
theorem tryHeader_write {result : Except Str Request}
    (tried : tryHeader substitute name value req = some result) :
    result.toOption = (headerWrite substitute name value).map fun w =>
      { req with headers := Multimap.write req.headers w } := by
  unfold tryHeader at tried
  unfold headerWrite
  cases named : HeaderName.fromBytes name with
  | none =>
      rw [named] at tried
      obtain rfl := Option.some.inj tried
      rfl
  | some headerName =>
      rw [named] at tried
      cases value with
      | none =>
          obtain rfl := Option.some.inj tried
          rfl
      | some template =>
          dsimp only at tried
          cases substituted : substitute template with
          | none => simp [substituted] at tried
          | some outcome =>
              rw [substituted] at tried
              cases outcome with
              | error e =>
                  obtain rfl := Option.some.inj tried
                  simp [substituted, Except.toOption]
              | ok processed =>
                  dsimp only at tried
                  cases encoded : HeaderValue.fromStr processed with
                  | none =>
                      rw [encoded] at tried
                      obtain rfl := Option.some.inj tried
                      simp [substituted, encoded, Except.toOption]
                  | some v =>
                      rw [encoded] at tried
                      obtain rfl := Option.some.inj tried
                      simp [substituted, encoded, Except.toOption, Multimap.write]

theorem tryHeader_eq_none (stuck : tryHeader substitute name value req = none) :
    HeaderName.fromBytes name ≠ none ∧ ∃ template, value = some template ∧
      substitute template = none := by
  unfold tryHeader at stuck
  split at stuck
  · cases stuck
  next headerName named =>
    split at stuck
    · cases stuck
    next template =>
      refine ⟨named ▸ Option.some_ne_none _, template, rfl, ?_⟩
      split at stuck
      next ends => exact ends
      · cases stuck
      · split at stuck <;> cases stuck

theorem handleHeader_ok {out : Request}
    (handled : handleHeader fuel env uuid name value req = some (.ok out)) :
    ∃ w, HeaderName.fromBytes name = some w.key ∧
      out = { req with headers := Multimap.write req.headers w } := by
  rw [handleHeader_eq_try] at handled
  have made := tryHeader_write handled
  obtain ⟨w, written, same⟩ := Option.map_eq_some_iff.mp made.symm
  exact ⟨w, headerWrite_key written, same.symm⟩

/-- A `header_up` operation makes its write, or leaves the request alone. -/
theorem applyHeaderDirective_write {ctx : UpstreamCtx} {directive : HeaderDirective}
    {out : Request} (applied : applyHeaderDirective fuel env uuid ctx directive req = some out) :
    out = { req with
      headers := Multimap.attempt req.headers
        (headerWrite (ctx.substitute fuel env uuid req.headers) directive.name
          directive.value) } := by
  rw [applyHeaderDirective_eq_try] at applied
  obtain ⟨result, tried, rfl⟩ := Option.map_eq_some_iff.mp applied
  rw [tryHeader_write tried]
  cases headerWrite (ctx.substitute fuel env uuid req.headers) directive.name directive.value <;> rfl

end Operations

end TinyProxy
