import TinyProxy.Proxy.Handler

/-!
# Serving one request

`proxy` from the incoming request to the response.  An `Err` of the source is an
`Except.error` with its message: the connection is dropped and no response goes
out.  The access log entry is the guard's state when it is dropped.
-/

set_option autoImplicit false

namespace TinyProxy

open Rust Http

/-! ## Request identifiers -/

def ensureRequestId (uuid : Uuid) (req : Request) : Str × Request :=
  match (Multimap.get req.headers .xRequestId).bind HeaderValue.toStr with
  | some id => (id, req)
  | none => (uuid.text, { req with headers := put req.headers .xRequestId uuid.text })

def finalRequestId (req : Request) (fallback : Str) : Str :=
  ((Multimap.get req.headers .xRequestId).bind HeaderValue.toStr).getD fallback

structure AccessLog where
  requestId : Str
  remoteAddr : SocketAddr
  method : Str
  path : Str
  host : Str
  status : Option StatusCode
  bytesSent : Option Nat

def AccessLog.finish (log : AccessLog) (response : Response) (bytesSent : Option Nat) :
    AccessLog :=
  { log with status := some response.status, bytesSent }

/-! ## Responses -/

/-- `builder.header(name, value)` with a value that is still text. -/
def withHeader (name : HeaderName) (value : Str) (headers : HeaderMap) : Except Str HeaderMap :=
  match HeaderValue.fromStr value with
  | some v => .ok (Multimap.append headers name v)
  | none => .error "failed to parse header value".toList

def errorPage (status : StatusCode) (message : Str) : Str :=
  let title := decimal status.asU16.toNat ++ ' ' :: status.canonicalReason.getD "Error".toList
  "<!DOCTYPE html>\n        <html>\n        <head><title>".toList ++ title ++
    "</title></head>\n        <body>\n        <h1>".toList ++ title ++
    "</h1>\n        <p>".toList ++ message ++
    "</p>\n        <hr>\n        <p><em>Rust Proxy Server</em></p>\n".toList ++
    "        </body>\n        </html>".toList

def htmlType : HeaderValue := ⟨utf8 "text/html; charset=utf-8".toList, by decide⟩

/-- An identifier that is no header value is left out. -/
def errorResponseWithId (status : StatusCode) (message requestId : Str) : Response :=
  let headers : HeaderMap := [(.contentType, htmlType)]
  { status
    headers :=
      match HeaderValue.fromStr requestId with
      | some v => Multimap.append headers .xRequestId v
      | none => headers
    body := .full (errorPage status message) }

def redirectResponse (status : UInt16) (url requestId : Str) : Except Str Response := do
  let headers ← withHeader .location url .empty
  let headers ← withHeader .xRequestId requestId headers
  .ok ⟨(StatusCode.fromU16 status).getD .found, headers, .full []⟩

def respondResponse (status : UInt16) (body requestId : Str) : Except Str Response := do
  let headers ← withHeader .xRequestId requestId .empty
  .ok ⟨(StatusCode.fromU16 status).getD .ok, headers, .full body⟩

def authDeniedResponse (status : UInt16) (wwwAuthenticate : Option HeaderValue)
    (requestId : Str) : Except Str Response := do
  let statusCode := (StatusCode.fromU16 status).getD .forbidden
  let body :=
    if statusCode = .serviceUnavailable then "Authorization service unavailable".toList else []
  let headers ← withHeader .xRequestId requestId .empty
  let headers :=
    match wwwAuthenticate with
    | some challenge => Multimap.append headers .wwwAuthenticate challenge
    | none => headers
  .ok ⟨statusCode, headers, .full body⟩

def bodySize : ResponseBody → Option Nat
  | .full text => some (byteLen text)
  | .streamed _ => none

/-! ## The backend -/

def backendUri (parser : UriParser) (backendUrl pathToSend : Str) (req : Request) :
    Except Str Uri := do
  let backendWithProto :=
    if startsWith "http://".toList backendUrl || startsWith "https://".toList backendUrl then
      backendUrl
    else "http://".toList ++ backendUrl
  let parts ← parser.parseUri backendWithProto
  let pathWithQuery :=
    match req.uri.query with
    | some q => if pathToSend.contains '?' then pathToSend else pathToSend ++ '?' :: q
    | none => pathToSend
  let target ← parser.parsePathAndQuery pathWithQuery
  parser.fromParts { parts with pathAndQuery := some target }

/-- The request with its backend headers, before `header_up`. -/
def forwardedRequest (ctx : AuthCtx) (newUri : Uri) (req : Request) : Request :=
  let originalHostHeader := Multimap.get req.headers .host
  let headers := Multimap.remove req.headers .host
  let headers :=
    match newUri.authority with
    | some authority => put headers .host authority
    | none => headers
  let headers :=
    match originalHostHeader with
    | some host => Multimap.insert headers .xForwardedHost host
    | none => headers
  let headers := put headers .xForwardedProto
    (if ctx.isTls then "https".toList else "http".toList)
  let headers := put headers .xForwardedFor ctx.remoteAddr.ip.display
  let headers := Multimap.remove headers .connection
  let headers := Multimap.remove headers .acceptEncoding
  { req with uri := newUri, headers }

def backendRequest (world : World) (ctx : AuthCtx) (newUri : Uri)
    (headerUp : List HeaderDirective) (s : Pipeline) : Option Request :=
  let upstream : UpstreamCtx :=
    { upstreamHost := newUri.authority.getD []
      requestUri := s.req.uri.pathAndQuery.getD []
      remoteIp := (extractRemoteIp s.req.headers).getD ctx.remoteAddr.ip.display }
  applyHeaderUp world.fuel world.env world.uuids upstream s.uuidsUsed headerUp
    (forwardedRequest ctx newUri s.req)

def isHopHeader (name : HeaderName) : Bool :=
  name = .connection || name = .upgrade || name = .te || name = .trailer ||
    name = .proxyAuthenticate || name = .proxyAuthorization

/-- When the response head is there; the body is streamed later. -/
def backendFuture : Exchange → Option (Nat × Except ClientError (StatusCode × HeaderMap × Body))
  | .failed delay isConnect message => some (delay, .error ⟨isConnect, message⟩)
  | .silent => none
  | .response delay status headers body => some (delay, .ok (status, headers, body))

def proxiedResponse (status : StatusCode) (headers : HeaderMap) (body : Body)
    (requestId : Str) : Except Str Response := do
  let copied := headers.filter fun entry =>
    !isHopHeader entry.1 && decide (entry.1 ≠ .contentLength)
  let headers ← withHeader .xRequestId requestId copied
  .ok ⟨status, headers, .streamed body⟩

/-- The response to a request that was sent to the backend. -/
def backendResponse (exchange : Exchange) (readTimeout : Option UInt64) (requestId : Str) :
    Except Str Response :=
  match timeout (readTimeout.getD 30) (backendFuture exchange) with
  | some (.ok (status, headers, body)) => proxiedResponse status headers body requestId
  | some (.error _) =>
      .ok (errorResponseWithId .badGateway "Backend service unavailable".toList requestId)
  | none => .ok (errorResponseWithId .gatewayTimeout "Backend request timed out".toList requestId)

/-! ## Actions -/

structure Outcome where
  response : Except Str Response
  access : AccessLog
  sentToBackend : Option Request

/-- The guard when the request is done: an `Err` leaves it unfinished. -/
def conclude (access : AccessLog) (sentToBackend : Option Request)
    (response : Except Str Response) : Outcome :=
  match response with
  | .ok r => ⟨.ok r, access.finish r (bodySize r.body), sentToBackend⟩
  | .error e => ⟨.error e, access, sentToBackend⟩

def executeAction (parser : UriParser) (world : World) (ctx : AuthCtx) (access : AccessLog)
    (s : Pipeline) : ActionResult → Option Outcome
  | .redirect status url =>
      some (conclude access none (redirectResponse status url access.requestId))
  | .respond status body =>
      some (conclude access none (respondResponse status body access.requestId))
  | .authDenied status wwwAuthenticate =>
      some (conclude access none (authDeniedResponse status wwwAuthenticate access.requestId))
  | .reverseProxy backendUrl pathToSend _ readTimeout headerUp =>
      match backendUri parser backendUrl pathToSend s.req with
      | .error e => some (conclude access none (.error e))
      | .ok newUri =>
          (backendRequest world ctx newUri headerUp s).map fun sendReq =>
            conclude access (some sendReq)
              (backendResponse world.backendExchange readTimeout access.requestId)

def requestHost (req : Request) : Str :=
  ((Multimap.get req.headers .host).bind HeaderValue.toStr).getD "localhost".toList

/-- Everything after the site has been found. -/
def serveSite (parser : UriParser) (world : World) (ctx : AuthCtx) (access : AccessLog)
    (site : SiteConfig) (req : Request) : Option Outcome :=
  match processDirectives world ctx site.directives req.uri.path (.initial req) with
  | none => none
  | some (result, s) =>
      let access := { access with requestId := finalRequestId s.req access.requestId }
      match result with
      | .error e =>
          some (conclude access none
            (.ok (errorResponseWithId .internalServerError e access.requestId)))
      | .ok action => executeAction parser world ctx access s action

def authCtx (req : Request) (remoteAddr : SocketAddr) (isTls : Bool) : AuthCtx :=
  ⟨req.uri.pathAndQuery.getD [], remoteAddr, isTls⟩

def proxy (parser : UriParser) (world : World) (config : Config) (remoteAddr : SocketAddr)
    (isTls : Bool) (incoming : Request) : Option Outcome :=
  let (initialRequestId, req) := ensureRequestId (world.uuids 0) incoming
  let host := requestHost req
  let access : AccessLog :=
    ⟨initialRequestId, remoteAddr, req.method, req.uri.path, host, none, none⟩
  match findSite config host isTls with
  | none =>
      some (conclude access none (.ok (errorResponseWithId .notFound
        ("No configuration found for host: ".toList ++ host) initialRequestId)))
  | some site =>
      serveSite parser world (authCtx req remoteAddr isTls) access site req

/-! ## What was decided for a request -/

/-- The outcome of directive processing, if a site was found. -/
def selected (world : World) (config : Config) (remoteAddr : SocketAddr) (isTls : Bool)
    (incoming : Request) : Option (Except Str ActionResult × Pipeline) :=
  let (_, req) := ensureRequestId (world.uuids 0) incoming
  (findSite config (requestHost req) isTls).bind fun site =>
    processDirectives world (authCtx req remoteAddr isTls) site.directives req.uri.path
      (.initial req)

/-- The identifier of the request once its directives have run. -/
def loggedId (world : World) (config : Config) (remoteAddr : SocketAddr) (isTls : Bool)
    (incoming : Request) : Str :=
  let (initialRequestId, _) := ensureRequestId (world.uuids 0) incoming
  match selected world config remoteAddr isTls incoming with
  | some (_, s) => finalRequestId s.req initialRequestId
  | none => initialRequestId

/-- The guard while the request is being answered. -/
def openLog (world : World) (config : Config) (remoteAddr : SocketAddr) (isTls : Bool)
    (incoming : Request) : AccessLog :=
  let (_, req) := ensureRequestId (world.uuids 0) incoming
  ⟨loggedId world config remoteAddr isTls incoming, remoteAddr, req.method, req.uri.path,
    requestHost req, none, none⟩

/-- The three ways a request is answered. -/
theorem proxy_cases {parser : UriParser} {world : World} {config : Config}
    {remoteAddr : SocketAddr} {isTls : Bool} {incoming : Request} {outcome : Outcome}
    (run : proxy parser world config remoteAddr isTls incoming = some outcome) :
    (selected world config remoteAddr isTls incoming = none ∧ ∃ message,
      outcome = conclude (openLog world config remoteAddr isTls incoming) none
        (.ok (errorResponseWithId .notFound message
          (loggedId world config remoteAddr isTls incoming)))) ∨
    (∃ e s, selected world config remoteAddr isTls incoming = some (.error e, s) ∧
      outcome = conclude (openLog world config remoteAddr isTls incoming) none
        (.ok (errorResponseWithId .internalServerError e
          (loggedId world config remoteAddr isTls incoming)))) ∨
    ∃ action s, selected world config remoteAddr isTls incoming = some (.ok action, s) ∧
      executeAction parser world
        (authCtx (ensureRequestId (world.uuids 0) incoming).2 remoteAddr isTls)
        (openLog world config remoteAddr isTls incoming) s action = some outcome := by
  unfold openLog loggedId selected
  unfold proxy at run
  generalize ensureRequestId (world.uuids 0) incoming = identified at run ⊢
  obtain ⟨initialRequestId, req⟩ := identified
  dsimp only at run ⊢
  cases found : findSite config (requestHost req) isTls with
  | none =>
      rw [found] at run
      exact Or.inl ⟨rfl, _, (Option.some.inj run).symm⟩
  | some site =>
      rw [found] at run
      dsimp only [serveSite] at run
      rw [Option.bind_some]
      cases processed : processDirectives world (authCtx req remoteAddr isTls) site.directives
          req.uri.path (.initial req) with
      | none => rw [processed] at run; cases run
      | some final =>
          obtain ⟨result, s⟩ := final
          rw [processed] at run
          cases result with
          | error e => exact Or.inr (Or.inl ⟨e, s, rfl, (Option.some.inj run).symm⟩)
          | ok action => exact Or.inr (Or.inr ⟨action, s, rfl, run⟩)

/-- The selected action is executed. -/
theorem proxy_executes {parser : UriParser} {world : World} {config : Config}
    {remoteAddr : SocketAddr} {isTls : Bool} {incoming : Request} {outcome : Outcome}
    {action : ActionResult} {s : Pipeline}
    (chosen : selected world config remoteAddr isTls incoming = some (.ok action, s))
    (run : proxy parser world config remoteAddr isTls incoming = some outcome) :
    executeAction parser world
      (authCtx (ensureRequestId (world.uuids 0) incoming).2 remoteAddr isTls)
      (openLog world config remoteAddr isTls incoming) s action = some outcome := by
  rcases proxy_cases run with ⟨other, _⟩ | ⟨e, t, other, _⟩ | ⟨action, t, other, executed⟩
  · cases chosen.symm.trans other
  · cases chosen.symm.trans other
  · cases chosen.symm.trans other
    exact executed

/-! ## A concrete request -/

def exampleAddr : SocketAddr := .v4 (.octets 203 0 113 7) 42000

/-- `GET /` with `Host: a`. -/
def exampleRequest : Request :=
  ⟨"GET".toList, ⟨none, none, some ['/']⟩, [(.host, ⟨utf8 ['a'], by decide⟩)]⟩

/-- No variables, and nobody answers. -/
def quietWorld : World := ⟨0, .empty, fun _ => exampleUuid, fun _ => .silent, .silent⟩

end TinyProxy
