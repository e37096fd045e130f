import TinyProxy.Data.Transition
import TinyProxy.Proxy.Response

/-!
# Accounting

`proxyAccounted` is `proxy` with its two guards, told branch by branch what goes
out.  The access log is written when its guard is dropped, on every exit.  The
request counter is only incremented where a branch says so.
-/

set_option autoImplicit false

namespace TinyProxy

open Rust Http Transition

/-! ## The guards -/

/-- One increment of `http_requests_total`. -/
structure CountedRequest where
  method : Str
  status : UInt16
  site : Str
deriving DecidableEq

/-- The `site` label is the text of the `Host` header. -/
structure MetricsGuard where
  method : Str
  site : Str

structure AccessLogGuard where
  requestId : Str
  remoteAddr : SocketAddr
  method : Str
  path : Str
  host : Str
  status : Option UInt16
  bytesSent : Option Nat

/-- Both guards of a request, and what it has added to the counter. -/
structure Guards where
  metrics : MetricsGuard
  log : AccessLogGuard
  counted : List CountedRequest

namespace Guards

def new (requestId : Str) (remoteAddr : SocketAddr) (method path host : Str) : Guards :=
  ⟨⟨method, host⟩, ⟨requestId, remoteAddr, method, path, host, none, none⟩, []⟩

def setRequestId (guards : Guards) (id : Str) : Guards :=
  { guards with log := { guards.log with requestId := id } }

def setBytesSent (guards : Guards) (bytes : Nat) : Guards :=
  { guards with log := { guards.log with bytesSent := some bytes } }

def finish (guards : Guards) (status : UInt16) : Guards :=
  { guards with log := { guards.log with status := some status } }

def record (guards : Guards) (status : UInt16) : Guards :=
  { guards with
    counted := guards.counted ++ [⟨guards.metrics.method, status, guards.metrics.site⟩] }

end Guards

/-- What `AccessLogGuard` writes when it is dropped. -/
def AccessLogGuard.loggedStatus (log : AccessLogGuard) : UInt16 := log.status.getD 500

/-- How `proxy` returns, and the guards as they are dropped. -/
structure Exit where
  response : Except Str Response
  guards : Guards

/-- The end of a branch: `?` returns before the guards are told. -/
def Guards.exit (guards : Guards) (response : Except Str Response)
    (told : Guards → Guards) : Exit :=
  match response with
  | .error e => ⟨.error e, guards⟩
  | .ok r => ⟨.ok r, told guards⟩

/-! ## The branches -/

/-- A branch that answers with an error page. -/
def errorExit (guards : Guards) (status : StatusCode) (message requestId : Str)
    (told : UInt16) : Exit :=
  let bodyLen := byteLen (errorPage status message)
  guards.exit (.ok (errorResponseWithId status message requestId)) fun guards =>
    ((guards.setBytesSent bodyLen).finish told).record told

def authDeniedBody (statusCode : StatusCode) : Str :=
  if statusCode = .serviceUnavailable then "Authorization service unavailable".toList else []

def actionExit (parser : UriParser) (world : World) (ctx : AuthCtx) (guards : Guards)
    (requestId : Str) (s : Pipeline) : ActionResult → Option Exit
  | .redirect status url =>
      let statusCode := (StatusCode.fromU16 status).getD .found
      some (guards.exit (redirectResponse status url requestId) fun guards =>
        ((guards.setBytesSent 0).finish statusCode.asU16).record statusCode.asU16)
  | .respond status body =>
      let statusCode := (StatusCode.fromU16 status).getD .ok
      some (guards.exit (respondResponse status body requestId) fun guards =>
        ((guards.setBytesSent (byteLen body)).finish statusCode.asU16).record statusCode.asU16)
  | .authDenied status wwwAuthenticate =>
      let statusCode := (StatusCode.fromU16 status).getD .forbidden
      some (guards.exit (authDeniedResponse status wwwAuthenticate requestId) fun guards =>
        ((guards.setBytesSent (byteLen (authDeniedBody statusCode))).finish
          statusCode.asU16).record statusCode.asU16)
  | .reverseProxy backendUrl pathToSend _ readTimeout headerUp =>
      match backendUri parser backendUrl pathToSend s.req with
      | .error e => some (guards.exit (.error e) id)
      | .ok newUri =>
          (backendRequest world ctx newUri headerUp s).map fun _ =>
            match timeout (readTimeout.getD 30) (backendFuture world.backendExchange) with
            | some (.ok (status, headers, body)) =>
                guards.exit (proxiedResponse status headers body requestId) fun guards =>
                  (guards.finish status.asU16).record status.asU16
            | some (.error _) =>
                errorExit guards .badGateway "Backend service unavailable".toList requestId 502
            | none =>
                errorExit guards .gatewayTimeout "Backend request timed out".toList requestId 504

def proxyAccounted (parser : UriParser) (world : World) (config : Config)
    (remoteAddr : SocketAddr) (isTls : Bool) (incoming : Request) : Option Exit :=
  let (initialRequestId, req) := ensureRequestId (world.uuids 0) incoming
  let host := requestHost req
  let guards := Guards.new initialRequestId remoteAddr req.method req.uri.path host
  let ctx := authCtx req remoteAddr isTls
  match findSite config host isTls with
  | none =>
      some (errorExit guards .notFound ("No configuration found for host: ".toList ++ host)
        initialRequestId 404)
  | some site =>
      match processDirectives world ctx site.directives req.uri.path (.initial req) with
      | none => none
      | some (.error e, s) =>
          let finalId := finalRequestId s.req initialRequestId
          some (errorExit (guards.setRequestId finalId) .internalServerError e finalId 500)
      | some (.ok action, s) =>
          let requestId := finalRequestId s.req initialRequestId
          actionExit parser world ctx (guards.setRequestId requestId) requestId s action

/-! ## What the guards are told -/

/-- The guards that stand for this entry, with what has been counted. -/
def AccessLog.guards (access : AccessLog) (counted : List CountedRequest) : Guards where
  metrics := ⟨access.method, access.host⟩
  log := ⟨access.requestId, access.remoteAddr, access.method, access.path, access.host,
    access.status.map StatusCode.asU16, access.bytesSent⟩
  counted := counted

/-- A response is counted with its status, an error is not counted. -/
def Outcome.counted (outcome : Outcome) : List CountedRequest :=
  match outcome.response with
  | .ok r => [⟨outcome.access.method, r.status.asU16, outcome.access.host⟩]
  | .error _ => []

def Outcome.exit (outcome : Outcome) : Exit :=
  ⟨outcome.response, outcome.access.guards outcome.counted⟩

section Branches
variable {access : AccessLog} {sent : Option Request}

/-- A branch that tells the guards the status and the size of its response. -/
theorem exit_eq {response : Except Str Response} {told : Guards → Guards}
    (tells : ∀ r, response = .ok r → told (access.guards []) =
      (access.finish r (bodySize r.body)).guards [⟨access.method, r.status.asU16, access.host⟩]) :
    (access.guards []).exit response told = (conclude access sent response).exit := by
  cases response with
  | error e => rfl
  | ok r =>
      rw [Guards.exit, tells r rfl]
      rfl

theorem errorExit_eq {status : StatusCode} {message : Str} {told : UInt16}
    (same : told = status.asU16) :
    errorExit (access.guards []) status message access.requestId told =
      (conclude access sent (.ok (errorResponseWithId status message access.requestId))).exit := by
  subst same
  unfold errorExit
  apply exit_eq
  intro r isResponse
  obtain rfl := Except.ok.inj isResponse
  rfl

theorem redirectResponse_shape {status : UInt16} {url id : Str} {r : Response}
    (built : redirectResponse status url id = .ok r) :
    r.status = (StatusCode.fromU16 status).getD .found ∧ r.body = .full [] := by
  obtain ⟨_, _, later⟩ := bind_ok built
  obtain ⟨_, _, same⟩ := bind_ok later
  obtain rfl := Except.ok.inj same
  exact ⟨rfl, rfl⟩

theorem respondResponse_shape {status : UInt16} {body id : Str} {r : Response}
    (built : respondResponse status body id = .ok r) :
    r.status = (StatusCode.fromU16 status).getD .ok ∧ r.body = .full body := by
  obtain ⟨_, _, same⟩ := bind_ok built
  obtain rfl := Except.ok.inj same
  exact ⟨rfl, rfl⟩

theorem authDeniedResponse_shape {status : UInt16} {wwwAuthenticate : Option HeaderValue} {id : Str}
    {r : Response} (built : authDeniedResponse status wwwAuthenticate id = .ok r) :
    r.status = (StatusCode.fromU16 status).getD .forbidden ∧
      r.body = .full (authDeniedBody ((StatusCode.fromU16 status).getD .forbidden)) := by
  obtain ⟨_, _, same⟩ := bind_ok built
  obtain rfl := Except.ok.inj same
  exact ⟨rfl, rfl⟩

theorem proxiedResponse_shape {status : StatusCode} {headers : HeaderMap} {body : Body} {id : Str}
    {r : Response} (built : proxiedResponse status headers body id = .ok r) :
    r.status = status ∧ r.body = .streamed body := by
  obtain ⟨_, _, same⟩ := bind_ok built
  obtain rfl := Except.ok.inj same
  exact ⟨rfl, rfl⟩

theorem actionExit_eq (opened : access.bytesSent = none) {parser : UriParser} {world : World}
    {ctx : AuthCtx} {s : Pipeline} (action : ActionResult) :
    actionExit parser world ctx (access.guards []) access.requestId s action =
      (executeAction parser world ctx access s action).map Outcome.exit := by
  cases action with
  | redirect status url =>
      refine congrArg some (exit_eq fun r built => ?_)
      obtain ⟨isStatus, isBody⟩ := redirectResponse_shape built
      rw [AccessLog.finish, isStatus, isBody]
      rfl
  | respond status body =>
      refine congrArg some (exit_eq fun r built => ?_)
      obtain ⟨isStatus, isBody⟩ := respondResponse_shape built
      rw [AccessLog.finish, isStatus, isBody]
      rfl
  | authDenied status wwwAuthenticate =>
      refine congrArg some (exit_eq fun r built => ?_)
      obtain ⟨isStatus, isBody⟩ := authDeniedResponse_shape built
      rw [AccessLog.finish, isStatus, isBody]
      rfl
  | reverseProxy backendUrl pathToSend connectTimeout readTimeout headerUp =>
      rw [actionExit, executeAction]
      cases backendUri parser backendUrl pathToSend s.req with
      | error e => rfl
      | ok newUri =>
          dsimp only
          cases backendRequest world ctx newUri headerUp s with
          | none => rfl
          | some sendReq =>
              rw [Option.map_some, Option.map_some, Option.map_some, backendResponse]
              cases timeout (readTimeout.getD 30) (backendFuture world.backendExchange) with
              | none => exact congrArg some (errorExit_eq rfl)
              | some answer =>
                  cases answer with
                  | error e => exact congrArg some (errorExit_eq rfl)
                  | ok head =>
                      obtain ⟨status, headers, body⟩ := head
                      refine congrArg some (exit_eq fun r built => ?_)
                      obtain ⟨isStatus, isBody⟩ := proxiedResponse_shape built
                      rw [AccessLog.finish, isStatus, isBody, bodySize, ← opened]
                      rfl

end Branches

/-- The guards are told what goes out: the counter and the log entry belong to the outcome. -/
theorem proxyAccounted_eq (parser : UriParser) (world : World) (config : Config)
    (remoteAddr : SocketAddr) (isTls : Bool) (incoming : Request) :
    proxyAccounted parser world config remoteAddr isTls incoming =
      (proxy parser world config remoteAddr isTls incoming).map Outcome.exit := by
  unfold proxyAccounted proxy
  generalize ensureRequestId (world.uuids 0) incoming = identified
  obtain ⟨initialRequestId, req⟩ := identified
  dsimp only
  cases findSite config (requestHost req) isTls with
  | none =>
      dsimp only
      rw [Option.map_some]
      exact congrArg some (@errorExit_eq ⟨initialRequestId, remoteAddr, req.method, req.uri.path,
        requestHost req, none, none⟩ _ _ _ _ rfl)
  | some site =>
      dsimp only [serveSite]
      cases processDirectives world (authCtx req remoteAddr isTls) site.directives req.uri.path
          (.initial req) with
      | none => rfl
      | some final =>
          obtain ⟨result, s⟩ := final
          cases result with
          | error e =>
              exact congrArg some (@errorExit_eq ⟨finalRequestId s.req initialRequestId, remoteAddr,
                req.method, req.uri.path, requestHost req, none, none⟩ _ _ _ _ rfl)
          | ok action =>
              exact @actionExit_eq ⟨finalRequestId s.req initialRequestId, remoteAddr, req.method,
                req.uri.path, requestHost req, none, none⟩ rfl parser world
                (authCtx req remoteAddr isTls) s action

/-! ## One request -/

/-- Counted once, with the status in the log; these are the status and the size of the
response, if one goes out. -/
structure Accounted (exit : Exit) : Prop where
  once : exit.guards.counted.map CountedRequest.status = [exit.guards.log.loggedStatus]
  sent : ∀ r, exit.response = .ok r → r.status.asU16 = exit.guards.log.loggedStatus ∧
    ∀ text, r.body = .full text → exit.guards.log.bytesSent = some (byteLen text)

section Requests
variable {parser : UriParser} {world : World} {config : Config} {remoteAddr : SocketAddr}
  {isTls : Bool} {incoming : Request}

end Requests

/-! ## All requests -/

/-- A request that has been passed to `proxy`. -/
structure Call where
  config : Config
  remoteAddr : SocketAddr
  isTls : Bool
  incoming : Request

def Call.exit (parser : UriParser) (world : World) (call : Call) : Option Exit :=
  proxyAccounted parser world call.config call.remoteAddr call.isTls call.incoming

/-- `http_active_requests`, `http_requests_total` and the access log. -/
structure Meters where
  activeRequests : Int
  inFlight : List Call
  requestsTotal : List CountedRequest
  accessLog : List AccessLogGuard

def Meters.zero : Meters := ⟨0, [], [], []⟩

inductive MeterEvent where
  | start (call : Call)
  | finish (index : Nat) (world : World)

/-- `MetricsGuard` counts up when it is made and down when it is dropped. -/
def Meters.step (parser : UriParser) (s : Meters) : MeterEvent → Option Meters
  | .start call =>
      some { s with activeRequests := s.activeRequests + 1, inFlight := call :: s.inFlight }
  | .finish index world => do
      let call ← s.inFlight[index]?
      let exit ← call.exit parser world
      some ⟨s.activeRequests - 1, s.inFlight.eraseIdx index,
        s.requestsTotal ++ exit.guards.counted, s.accessLog ++ [exit.guards.log]⟩

section Runs
variable {parser : UriParser}

end Runs

/-! ## A redirect target that is no header value -/

def unsendableText : Str := "a:80 \x7b\n redirect 301 /\x01\n\x7d".toList

def unsendableConfig : Config :=
  ⟨(∅ : AList fun _ : Str => SiteConfig).insert "a:80".toList
    ⟨"a:80".toList, [.redirect 301 "/\x01".toList], none⟩⟩

/-- The log says 500, and nothing is counted. -/
theorem error_exit_not_counted :
    Config.fromStr plainUriParser unsendableText = .ok unsendableConfig ∧
      ∃ exit, proxyAccounted plainUriParser quietWorld unsendableConfig exampleAddr false
          exampleRequest = some exit ∧
        exit.guards.counted = [] ∧ exit.guards.log.loggedStatus = 500 ∧ ¬ Accounted exit := by
  refine ⟨by rfl, _, rfl, rfl, rfl, fun accounted => ?_⟩
  cases accounted.once

end TinyProxy
