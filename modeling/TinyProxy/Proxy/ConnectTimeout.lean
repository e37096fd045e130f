import TinyProxy.Config.Timeouts
import TinyProxy.Proxy.Paths

/-!
# The connect timeout

It is read from the configuration and carried to the executor, which takes only
the read timeout, from the start of the exchange to the response head.
-/

set_option autoImplicit false

namespace TinyProxy

open Rust Http

/-- A backend that is connected after `connect` milliseconds and whose response head
comes `head` milliseconds later. -/
structure Backend where
  connect : Nat
  head : Nat
  status : StatusCode
  headers : HeaderMap
  body : Body

def Backend.exchange (backend : Backend) : Exchange :=
  .response (backend.connect + backend.head) backend.status backend.headers backend.body

/-- An error page of the gateway, and not the backend's response. -/
def GatewayError (backend : Backend) (response : Except Str Response) : Prop :=
  ∃ r, response = .ok r ∧ (r.status = .badGateway ∨ r.status = .gatewayTimeout) ∧
    r.body ≠ .streamed backend.body

/-- Only a response head that comes after the read timeout makes a gateway error. -/
theorem backendResponse_gatewayError_iff {backend : Backend} {readTimeout : Option UInt64}
    {requestId : Str} :
    GatewayError backend (backendResponse backend.exchange readTimeout requestId) ↔
      (readTimeout.getD 30).toNat * 1000 < backend.connect + backend.head := by
  rw [backendResponse, Backend.exchange, backendFuture, timeout]
  by_cases inTime : backend.connect + backend.head ≤ (readTimeout.getD 30).toNat * 1000
  · rw [if_pos inTime]
    dsimp only
    constructor
    · rintro ⟨r, answered, _, other⟩
      obtain ⟨headers, _, same⟩ := bind_ok answered
      obtain rfl := Except.ok.inj same
      exact absurd rfl other
    · intro late
      omega
  · rw [if_neg inTime]
    constructor
    · intro _
      omega
    · intro _
      refine ⟨_, rfl, Or.inr rfl, ?_⟩
      intro same
      cases same

/-- A request that was sent is answered with what becomes of the exchange. -/
theorem executeAction_sent {parser : UriParser} {world : World} {ctx : AuthCtx}
    {access : AccessLog} {s : Pipeline} {backendUrl pathToSend : Str}
    {connectTimeout readTimeout : Option UInt64} {headerUp : List HeaderDirective}
    {outcome : Outcome}
    (executed : executeAction parser world ctx access s
      (.reverseProxy backendUrl pathToSend connectTimeout readTimeout headerUp) = some outcome)
    (sent : outcome.sentToBackend.isSome = true) :
    outcome.response = backendResponse world.backendExchange readTimeout access.requestId := by
  unfold executeAction at executed
  dsimp only at executed
  have response : ∀ (sentToBackend : Option Request) (result : Except Str Response),
      (conclude access sentToBackend result).response = result := by
    intro sentToBackend result
    cases result <;> rfl
  split at executed
  next =>
    obtain rfl := Option.some.inj executed
    cases sent
  next =>
    obtain ⟨sendReq, _, rfl⟩ := Option.map_eq_some_iff.mp executed
    exact response _ _

/-- A selected `reverse_proxy` action is a directive of the site, with its timeouts. -/
theorem selected_reverseProxy {world : World} {config : Config} {remoteAddr : SocketAddr}
    {isTls : Bool} {incoming : Request} {backendUrl pathToSend : Str}
    {connectTimeout readTimeout : Option UInt64} {headerUp : List HeaderDirective} {s : Pipeline}
    (chosen : selected world config remoteAddr isTls incoming =
      some (.ok (.reverseProxy backendUrl pathToSend connectTimeout readTimeout headerUp), s)) :
    ∃ site, findSite config (requestHost (ensureRequestId (world.uuids 0) incoming).2) isTls =
        some site ∧
      Occurs (.reverseProxy backendUrl connectTimeout readTimeout headerUp) site.directives := by
  obtain ⟨site, found, processed⟩ := Option.bind_eq_some_iff.mp chosen
  obtain ⟨visit, visits, _, same⟩ := reverseProxy_visited processed
  exact ⟨site, found, same ▸ visits.occurs⟩

/-- The timeouts of a block reach the selected action, and a connection that takes longer
than the connect timeout makes a gateway error exactly when the response head comes after
the read timeout. -/
theorem connect_timeout_iff (parser : UriParser) :
    (∀ (opening closing : Str) (args inner : List Str) (body : List Stmt) (line : Nat)
      (s s' : ParserState) (top : List Directive) (outer : List (List Directive)),
      lineKind opening = .opener ("reverse_proxy".toList :: args) → lineKind closing = .closer →
      Laid inner body → s.currentSiteAddress ≠ none → s.directiveStack = top :: outer →
      parseLines parser line (opening :: (inner ++ [closing])) s = .ok s' →
      ∃ headerUp, s'.directiveStack =
        (top ++ [.reverseProxy ((blockArgs args).head?.getD [])
          (blockTimeout "connect_timeout".toList body) (blockTimeout "read_timeout".toList body)
          headerUp]) :: outer) ∧
    ∀ (world : World) (config : Config) (remoteAddr : SocketAddr) (isTls : Bool)
      (incoming : Request) (backendUrl pathToSend : Str)
      (connectTimeout readTimeout : Option UInt64) (headerUp : List HeaderDirective)
      (s : Pipeline),
      selected world config remoteAddr isTls incoming =
        some (.ok (.reverseProxy backendUrl pathToSend connectTimeout readTimeout headerUp), s) →
      (∃ site, findSite config (requestHost (ensureRequestId (world.uuids 0) incoming).2) isTls =
          some site ∧
        Occurs (.reverseProxy backendUrl connectTimeout readTimeout headerUp) site.directives) ∧
      ∀ (t : UInt64) (backend : Backend) (outcome : Outcome), connectTimeout = some t →
        world.backendExchange = backend.exchange → t.toNat * 1000 < backend.connect →
        backend.connect < (readTimeout.getD 30).toNat * 1000 →
        proxy parser world config remoteAddr isTls incoming = some outcome →
        outcome.sentToBackend.isSome = true →
        (GatewayError backend outcome.response ↔
          (readTimeout.getD 30).toNat * 1000 < backend.connect + backend.head) := by
  constructor
  · intro opening closing args inner body line s s' top outer opens closes laid inSite stack run
    exact reverseProxy_block_timeouts opens closes laid inSite stack run
  · intro world config remoteAddr isTls incoming backendUrl pathToSend connectTimeout readTimeout
      headerUp s chosen
    refine ⟨selected_reverseProxy chosen, ?_⟩
    intro t backend outcome _ exchange _ _ run sent
    rw [executeAction_sent (proxy_executes chosen run) sent, exchange]
    exact backendResponse_gatewayError_iff

/-! ## A slow connection -/

/-- One second to connect, and thirty for the response head. -/
def impatientText : Str :=
  ("a:80 \x7b\nreverse_proxy http://b \x7b\nconnect_timeout 1s\nread_timeout 30s\n" ++
    "\x7d\n\x7d").toList

def impatientConfig : Config :=
  ⟨(∅ : AList fun _ : Str => SiteConfig).insert "a:80".toList
    ⟨"a:80".toList, [.reverseProxy "http://b".toList (some 1) (some 30) []], none⟩⟩

/-- Connected after five seconds, and quick from then on. -/
def slowBackend : Backend := ⟨5000, 1, .ok, .empty, .finished 1⟩

def slowWorld : World :=
  ⟨0, .empty, fun _ => exampleUuid, fun _ => .silent, slowBackend.exchange⟩

/-- The backend's response comes through. -/
theorem connect_timeout_ignored :
    Config.fromStr plainUriParser impatientText = .ok impatientConfig ∧
      (selected slowWorld impatientConfig exampleAddr false exampleRequest).map Prod.fst =
        some (.ok (.reverseProxy "http://b".toList ['/'] (some 1) (some 30) [])) ∧
      (1 : UInt64).toNat * 1000 < slowBackend.connect ∧
      slowBackend.connect < (30 : UInt64).toNat * 1000 ∧
      ∃ outcome, proxy plainUriParser slowWorld impatientConfig exampleAddr false exampleRequest =
          some outcome ∧
        ¬ GatewayError slowBackend outcome.response := by
  refine ⟨rfl, rfl, by decide, by decide, _, rfl, ?_⟩
  rintro ⟨r, answered, _, other⟩
  obtain rfl := Except.ok.inj answered
  exact other rfl

end TinyProxy
