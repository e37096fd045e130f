import TinyProxy.Config.Models

/-!
# Authorization subrequests

`resolveAuth` races the exchange with the authorization service against one
deadline that covers the response head and the whole body.
-/

set_option autoImplicit false

namespace TinyProxy

open Rust Http

structure AuthCtx where
  originalUri : Str
  remoteAddr : SocketAddr
  isTls : Bool

inductive AuthFailure where
  | connect (message : Str)
  | timeout
  | serverError (status : StatusCode)
  | malformed (message : Str)
deriving DecidableEq

inductive AuthResult where
  | allowed (identity : HeaderMap)
  | denied (status : StatusCode) (wwwAuthenticate : Option HeaderValue)
  | failed (reason : AuthFailure)
deriving DecidableEq

def scrubIdentityHeaders (req : Request) (cfg : ForwardAuthConfig) : Request :=
  { req with headers := Multimap.removeAll cfg.responseHeaders req.headers }

def applyIdentityHeaders (req : Request) (identity : HeaderMap) : Request :=
  { req with headers := Multimap.insertAll identity req.headers }

/-! ## The subrequest -/

/-- Insert a header unless the text is no header value. -/
def put (headers : HeaderMap) (name : HeaderName) (value : Str) : HeaderMap :=
  match HeaderValue.fromStr value with
  | some v => Multimap.insert headers name v
  | none => headers

def copyHeader (source : HeaderMap) (name target : HeaderName) (headers : HeaderMap) :
    HeaderMap :=
  match Multimap.get source name with
  | some v => Multimap.insert headers target v
  | none => headers

/-- The builder is only given typed parts, so it has nothing to reject. -/
def buildAuthRequest (ctx : AuthCtx) (req : Request) (cfg : ForwardAuthConfig) :
    Except Str Request :=
  let headers := Multimap.copyFirst req.headers cfg.requestHeaders .empty
  let headers :=
    match cfg.endpoint.authority with
    | some authority => put headers .host authority
    | none => headers
  let headers := put headers .xOriginalUri ctx.originalUri
  let headers := put headers .xOriginalMethod req.method
  let headers := put headers .xForwardedFor ctx.remoteAddr.ip.display
  let headers := copyHeader req.headers .host .xForwardedHost headers
  let headers := put headers .xForwardedProto
    (if ctx.isTls then "https".toList else "http".toList)
  let headers := copyHeader req.headers .xRequestId .xRequestId headers
  .ok ⟨"GET".toList, cfg.endpoint, headers⟩

/-! ## The decision -/

structure ClientError where
  isConnect : Bool
  message : Str
deriving DecidableEq

structure AuthAnswer where
  status : StatusCode
  wwwAuthenticate : Option HeaderValue
  identity : HeaderMap
  bodyErr : Option Str
deriving DecidableEq

/-- The headers `resolve_auth` keeps of an answer: the listed ones of a 2xx. -/
def extractIdentity (cfg : ForwardAuthConfig) (status : StatusCode) (headers : HeaderMap) :
    HeaderMap :=
  if status.isSuccess then Multimap.copyFirst headers cfg.responseHeaders .empty else .empty

/-- The inner future: when it is ready, and with what. -/
def authFuture (cfg : ForwardAuthConfig) : Exchange →
    Option (Nat × Except ClientError AuthAnswer)
  | .failed delay isConnect message => some (delay, .error ⟨isConnect, message⟩)
  | .silent => none
  | .response delay status headers body =>
      (body.drain delay).map fun (ready, bodyErr) =>
        (ready, .ok ⟨status, headers.get .wwwAuthenticate, extractIdentity cfg status headers,
          bodyErr⟩)

def classifyAnswer (answer : AuthAnswer) : AuthResult :=
  if answer.status.isSuccess then
    match answer.bodyErr with
    | some e => .failed (.malformed e)
    | none => .allowed answer.identity
  else if answer.status.isClientError then .denied answer.status answer.wwwAuthenticate
  else .failed (.serverError answer.status)

def resolveAuth (ctx : AuthCtx) (req : Request) (cfg : ForwardAuthConfig)
    (exchange : Exchange) : AuthResult :=
  match buildAuthRequest ctx req cfg with
  | .error e => .failed (.malformed e)
  | .ok _ =>
      match timeout cfg.timeoutSecs (authFuture cfg exchange) with
      | some (.ok answer) => classifyAnswer answer
      | some (.error e) =>
          .failed (if e.isConnect then .connect e.message else .malformed e.message)
      | none => .failed .timeout

/-! ## What an exchange leads to -/

/-- The body of the answer ends or breaks no later than the deadline. -/
def SettlesInTime (cfg : ForwardAuthConfig) (delay : Nat) (body : Body) : Prop :=
  ∃ ready bodyErr, body.drain delay = some (ready, bodyErr) ∧
    ready ≤ cfg.timeoutSecs.toNat * 1000

section Outcomes
variable (ctx : AuthCtx) (req : Request) (cfg : ForwardAuthConfig)

theorem resolveAuth_settled {delay ready : Nat} {status : StatusCode} {headers : HeaderMap}
    {body : Body} {bodyErr : Option Str} (drained : body.drain delay = some (ready, bodyErr))
    (inTime : ready ≤ cfg.timeoutSecs.toNat * 1000) :
    resolveAuth ctx req cfg (.response delay status headers body) =
      classifyAnswer ⟨status, headers.get .wwwAuthenticate, extractIdentity cfg status headers,
        bodyErr⟩ := by
  simp only [resolveAuth, buildAuthRequest, authFuture, drained, Option.map_some, timeout,
    if_pos inTime]

theorem resolveAuth_unsettled {delay : Nat} {status : StatusCode} {headers : HeaderMap}
    {body : Body} (late : ¬ SettlesInTime cfg delay body) :
    resolveAuth ctx req cfg (.response delay status headers body) = .failed .timeout := by
  cases drained : body.drain delay with
  | none => simp only [resolveAuth, buildAuthRequest, authFuture, drained, Option.map_none, timeout]
  | some final =>
      have tooLate : ¬ final.1 ≤ cfg.timeoutSecs.toNat * 1000 := fun inTime =>
        late ⟨final.1, final.2, drained, inTime⟩
      simp only [resolveAuth, buildAuthRequest, authFuture, drained, Option.map_some, timeout,
        if_neg tooLate]

/-- A 4xx answer counts as a denial exactly when its body settles in time. -/
theorem resolveAuth_denied_iff {delay : Nat} {status : StatusCode} {headers : HeaderMap}
    {body : Body} (clientError : status.isClientError = true) :
    resolveAuth ctx req cfg (.response delay status headers body) =
        .denied status (headers.get .wwwAuthenticate) ↔
      SettlesInTime cfg delay body := by
  have notSuccess : ¬ status.isSuccess = true := fun success => by
    rw [StatusCode.not_clientError_of_success success] at clientError
    cases clientError
  constructor
  · intro denied
    by_contra late
    rw [resolveAuth_unsettled ctx req cfg late] at denied
    cases denied
  · rintro ⟨ready, bodyErr, drained, inTime⟩
    rw [resolveAuth_settled ctx req cfg drained inTime, classifyAnswer, if_neg notSuccess,
      if_pos clientError]

/-- Only a 2xx answer allows, and the identity is read from its headers. -/
theorem resolveAuth_allowed {exchange : Exchange} {identity : HeaderMap}
    (allowed : resolveAuth ctx req cfg exchange = .allowed identity) :
    ∃ delay status headers body, exchange = .response delay status headers body ∧
      status.isSuccess = true ∧
      identity = Multimap.copyFirst headers cfg.responseHeaders .empty := by
  cases exchange with
  | failed delay isConnect message =>
      by_cases inTime : delay ≤ cfg.timeoutSecs.toNat * 1000
      · simp only [resolveAuth, buildAuthRequest, authFuture, timeout, if_pos inTime] at allowed
        cases allowed
      · simp only [resolveAuth, buildAuthRequest, authFuture, timeout, if_neg inTime] at allowed
        cases allowed
  | silent => cases allowed
  | response delay status headers body =>
      by_cases settled : SettlesInTime cfg delay body
      · obtain ⟨ready, bodyErr, drained, inTime⟩ := settled
        rw [resolveAuth_settled ctx req cfg drained inTime, classifyAnswer] at allowed
        by_cases success : status.isSuccess = true
        · rw [if_pos success] at allowed
          cases bodyErr with
          | some e => cases allowed
          | none =>
              obtain rfl := AuthResult.allowed.inj allowed
              exact ⟨delay, status, headers, body, rfl, success, if_pos success⟩
        · rw [if_neg success] at allowed
          split at allowed <;> cases allowed
      · rw [resolveAuth_unsettled ctx req cfg settled] at allowed
        cases allowed

end Outcomes

end TinyProxy
