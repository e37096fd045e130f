import TinyProxy.Proxy.ConnectTimeout
import TinyProxy.Proxy.Query
import TinyProxy.Proxy.Route
import TinyProxy.Proxy.Routing

/-!
# What leaves the proxy

Where the requests go that the proxy makes for a client, and how long it waits
for their answers.
-/

set_option autoImplicit false

namespace TinyProxy

open Rust Http

/-! ## Destinations -/

/-- Putting parts together keeps scheme and authority. -/
def KeepsOrigin (parser : UriParser) : Prop :=
  ∀ parts uri, parser.fromParts parts = .ok uri →
    uri.scheme = parts.scheme ∧ uri.authority = parts.authority

/-- The target of a `reverse_proxy` with its scheme. -/
def backendWithProto (backendUrl : Str) : Str :=
  if startsWith "http://".toList backendUrl || startsWith "https://".toList backendUrl then
    backendUrl
  else "http://".toList ++ backendUrl

section Destinations
variable {parser : UriParser} {world : World} {ctx : AuthCtx} {req : Request}

theorem backendUri_origin (keeps : KeepsOrigin parser) {backendUrl pathToSend : Str} {uri : Uri}
    (built : backendUri parser backendUrl pathToSend req = .ok uri) :
    ∃ configured, parser.parseUri (backendWithProto backendUrl) = .ok configured ∧
      uri.scheme = configured.scheme ∧ uri.authority = configured.authority := by
  obtain ⟨configured, parsed, rest⟩ := bind_ok built
  obtain ⟨target, _, assembled⟩ := bind_ok rest
  obtain ⟨scheme, authority⟩ := keeps _ _ assembled
  exact ⟨configured, parsed, scheme, authority⟩

theorem applyHeaderDirective_uri {fuel : Nat} {env : Environment} {uuid : Uuid}
    {upstream : UpstreamCtx} {directive : HeaderDirective} {out : Request}
    (applied : applyHeaderDirective fuel env uuid upstream directive req = some out) :
    out.uri = req.uri := by
  rw [applyHeaderDirective_write applied]

theorem applyHeaderUp_uri {fuel : Nat} {env : Environment} {uuids : Nat → Uuid}
    {upstream : UpstreamCtx} : ∀ {headerUp : List HeaderDirective} {start : Nat}
      {req out : Request},
      applyHeaderUp fuel env uuids upstream start headerUp req = some out →
        out.uri = req.uri := by
  intro headerUp
  induction headerUp with
  | nil =>
      intro start req out applied
      obtain rfl := Option.some.inj applied
      rfl
  | cons directive rest ih =>
      intro start req out applied
      obtain ⟨next, first, later⟩ := Option.bind_eq_some_iff.mp applied
      exact (ih later).trans (applyHeaderDirective_uri first)

/-- A request is sent to the backend of the action only. -/
theorem executeAction_origin (keeps : KeepsOrigin parser) {access : AccessLog} {s : Pipeline}
    {action : ActionResult} {outcome : Outcome} {sent : Request}
    (executed : executeAction parser world ctx access s action = some outcome)
    (isSent : outcome.sentToBackend = some sent) :
    ∃ backendUrl pathToSend connectTimeout readTimeout headerUp configured,
      action = .reverseProxy backendUrl pathToSend connectTimeout readTimeout headerUp ∧
      parser.parseUri (backendWithProto backendUrl) = .ok configured ∧
      sent.uri.scheme = configured.scheme ∧ sent.uri.authority = configured.authority := by
  have sends : ∀ (sentToBackend : Option Request) (response : Except Str Response),
      (conclude access sentToBackend response).sentToBackend = sentToBackend := by
    intro sentToBackend response
    cases response <;> rfl
  have nothing : ∀ response, some (conclude access none response) = some outcome → False := by
    intro response same
    obtain rfl := Option.some.inj same
    rw [sends] at isSent
    cases isSent
  cases action with
  | redirect => exact (nothing _ executed).elim
  | respond => exact (nothing _ executed).elim
  | authDenied => exact (nothing _ executed).elim
  | reverseProxy backendUrl pathToSend connectTimeout readTimeout headerUp =>
      rw [executeAction] at executed
      cases built : backendUri parser backendUrl pathToSend s.req with
      | error e =>
          rw [built] at executed
          exact (nothing _ executed).elim
      | ok newUri =>
          rw [built] at executed
          obtain ⟨sendReq, applied, rfl⟩ := Option.map_eq_some_iff.mp executed
          rw [sends] at isSent
          obtain rfl := Option.some.inj isSent
          obtain ⟨configured, parsed, scheme, authority⟩ := backendUri_origin keeps built
          have uri : sendReq.uri = newUri := applyHeaderUp_uri applied
          exact ⟨backendUrl, pathToSend, connectTimeout, readTimeout, headerUp, configured, rfl,
            parsed, uri ▸ scheme, uri ▸ authority⟩

/-- The subrequests of a run are made for directives of the tree. -/
theorem run_auths_occur {directives : List Directive} {enclosing : Position} {index : Nat}
    {currentPath path : Str} {s s' : Pipeline} {result : Except Str ActionResult}
    (run : runDirectives world ctx enclosing index directives currentPath path s =
      some (result, s')) :
    ∃ events, s'.log = s.log ++ events ∧
      ∀ position cfg before answer, .auth position cfg before answer ∈ events →
        Occurs (.forwardAuth cfg) directives := by
  revert run
  apply run_induction (motive := fun _ _ directives s _ s' =>
    ∃ events, s'.log = s.log ++ events ∧
      ∀ position cfg before answer, .auth position cfg before answer ∈ events →
        Occurs (.forwardAuth cfg) directives)
  · intro _ _ _ s
    exact ⟨[], (List.append_nil _).symm, by simp⟩
  · intro _ _ _ _ _ _ _ _ later
    obtain ⟨events, log, occur⟩ := later
    exact ⟨events, log, fun _ _ _ _ member => (occur _ _ _ _ member).cons⟩
  · intro enclosing index name value _ _ _ _ _ moved later
    obtain ⟨events, log, occur⟩ := later
    rw [(stepHeader_spec moved).1, List.append_assoc] at log
    refine ⟨_, log, fun position cfg before answer member => ?_⟩
    rcases List.mem_cons.mp member with same | after
    · cases same
    · exact (occur _ _ _ _ after).cons
  · intro _ _ cfg _ _ _ s _ _ _ step later
    obtain ⟨events, log, occur⟩ := later
    rw [(stepForwardAuth_next step).2, afterAuth, List.append_assoc] at log
    refine ⟨_, log, fun position cfg' before answer member => ?_⟩
    rcases List.mem_cons.mp member with same | after
    · cases same
      exact .here (List.mem_cons_self ..)
    · exact (occur _ _ _ _ after).cons
  · intro _ _ cfg _ _ s _ _ step
    obtain ⟨_, _, _, rfl⟩ := stepForwardAuth_done step
    refine ⟨_, rfl, fun position cfg' before answer member => ?_⟩
    cases List.mem_singleton.mp member
    exact .here (List.mem_cons_self ..)
  · intro _ _ _ _ s _ _
    refine ⟨_, rfl, fun position cfg before answer member => ?_⟩
    cases List.mem_singleton.mp member
  · intro _ _ _ _ _ _ _ later
    obtain ⟨events, log, occur⟩ := later
    exact ⟨events, log, fun _ _ _ _ member =>
      .inside (List.mem_cons_self ..) (occur _ _ _ _ member)⟩

/-- Whatever a client sends, the proxy makes requests only to the targets and the endpoints
that the configuration names, and all of them belong to the site that is selected. -/
theorem egress_configured (keeps : KeepsOrigin parser) {config : Config}
    {remoteAddr : SocketAddr} {isTls : Bool} {incoming : Request} {outcome : Outcome}
    (run : proxy parser world config remoteAddr isTls incoming = some outcome) :
    (∀ sent, outcome.sentToBackend = some sent → ∃ site ∈ config.values,
      ∃ backendUrl connectTimeout readTimeout headerUp configured,
        Occurs (.reverseProxy backendUrl connectTimeout readTimeout headerUp) site.directives ∧
        parser.parseUri (backendWithProto backendUrl) = .ok configured ∧
        sent.uri.scheme = configured.scheme ∧ sent.uri.authority = configured.authority) ∧
    ∀ result s, selected world config remoteAddr isTls incoming = some (result, s) →
      ∃ site ∈ config.values, ∀ position cfg before answer,
        .auth position cfg before answer ∈ s.log →
          Occurs (.forwardAuth cfg) site.directives ∧
          ∀ sub, buildAuthRequest (authCtx (ensureRequestId (world.uuids 0) incoming).2 remoteAddr
            isTls) before cfg = .ok sub → sub.uri = cfg.endpoint := by
  constructor
  · intro sent isSent
    rcases proxy_cases run with ⟨_, message, rfl⟩ | ⟨e, s, _, rfl⟩ | ⟨action, s, chosen, executed⟩
    · cases isSent
    · cases isSent
    · obtain ⟨backendUrl, pathToSend, connectTimeout, readTimeout, headerUp, configured, rfl,
        parsed, origin⟩ := executeAction_origin keeps executed isSent
      obtain ⟨site, found, occurs⟩ := selected_reverseProxy chosen
      exact ⟨site, findSite_mem found, backendUrl, connectTimeout, readTimeout, headerUp,
        configured, occurs, parsed, origin⟩
  · intro result s chosen
    obtain ⟨site, found, processed⟩ := Option.bind_eq_some_iff.mp chosen
    obtain ⟨events, log, occur⟩ := run_auths_occur processed
    refine ⟨site, findSite_mem found, fun position cfg before answer member => ?_⟩
    rw [log] at member
    refine ⟨occur _ _ _ _ member, fun sub built => ?_⟩
    obtain rfl := Except.ok.inj built
    rfl

end Destinations

theorem plainUriParser_keeps : KeepsOrigin plainUriParser := by
  intro parts uri assembled
  obtain rfl := Except.ok.inj assembled
  exact ⟨rfl, rfl⟩

theorem egress_configured_plain : ∃ outcome sent,
    proxy plainUriParser quietWorld proxyingConfig exampleAddr false exampleRequest =
        some outcome ∧
      outcome.sentToBackend = some sent ∧ sent.uri.authority = some ['b'] ∧
      ∃ site ∈ proxyingConfig.values,
        ∃ backendUrl connectTimeout readTimeout headerUp configured,
          Occurs (.reverseProxy backendUrl connectTimeout readTimeout headerUp)
            site.directives ∧
          plainUriParser.parseUri (backendWithProto backendUrl) = .ok configured ∧
          sent.uri.scheme = configured.scheme ∧ sent.uri.authority = configured.authority := by
  have served : ∃ outcome sent, proxy plainUriParser quietWorld proxyingConfig
      exampleAddr false exampleRequest = some outcome ∧ outcome.sentToBackend = some sent ∧
        sent.uri.authority = some ['b'] := ⟨_, _, rfl, rfl, rfl⟩
  obtain ⟨outcome, sent, run, isSent, authority⟩ := served
  exact ⟨outcome, sent, run, isSent, authority,
    (egress_configured plainUriParser_keeps run).1 sent isSent⟩

/-! ## Waiting -/

/-- How long a future with a timeout is waited for, in milliseconds. -/
def waited {β : Type} (seconds : UInt64) (ready : Option (Nat × β)) : Nat :=
  match ready with
  | some (time, _) => min time (seconds.toNat * 1000)
  | none => seconds.toNat * 1000

theorem waited_le {β : Type} (seconds : UInt64) (ready : Option (Nat × β)) :
    waited seconds ready ≤ seconds.toNat * 1000 := by
  unfold waited
  split
  · exact Nat.min_le_right _ _
  · exact Nat.le_refl _

/-- The waiting for authorization; `calls` subrequests were made before. -/
def authWaits (world : World) : Nat → List Event → Nat
  | _, [] => 0
  | calls, .auth _ cfg _ _ :: rest =>
      waited cfg.timeoutSecs (authFuture cfg (world.authExchanges calls)) +
        authWaits world (calls + 1) rest
  | calls, .header _ _ _ :: rest => authWaits world calls rest
  | calls, .action _ :: rest => authWaits world calls rest

def backendWait (world : World) : Except Str ActionResult → Nat
  | .ok (.reverseProxy _ _ _ readTimeout _) =>
      waited (readTimeout.getD 30) (backendFuture world.backendExchange)
  | _ => 0

def stationPatience : Station → Nat
  | .forwardAuth _ cfg => cfg.timeoutSecs.toNat * 1000
  | _ => 0

def backendPatience : Except Str ActionResult → Nat
  | .ok (.reverseProxy _ _ _ readTimeout _) => (readTimeout.getD 30).toNat * 1000
  | _ => 0

/-- The timeouts on a route. -/
def Route.patience (route : Route) : Nat :=
  (route.stations.map stationPatience).sum + backendPatience route.verdict

section Waiting
variable {world : World} {ctx : AuthCtx}

theorem authWaits_le : ∀ (events : List Event) (calls : Nat),
    authWaits world calls events ≤ ((events.map Event.station).map stationPatience).sum := by
  intro events
  induction events with
  | nil => exact fun _ => Nat.le_refl _
  | cons event rest ih =>
      intro calls
      cases event with
      | header => simpa [authWaits, Event.station, stationPatience] using ih calls
      | action => simpa [authWaits, Event.station, stationPatience] using ih calls
      | auth position cfg before answer =>
          have first := waited_le cfg.timeoutSecs (authFuture cfg (world.authExchanges calls))
          have later := ih (calls + 1)
          simp only [authWaits, List.map_cons, List.sum_cons, Event.station, stationPatience]
          omega

theorem backendWait_le (result : Except Str ActionResult) :
    backendWait world result ≤ backendPatience result := by
  unfold backendWait backendPatience
  split
  · exact waited_le _ _
  · exact Nat.zero_le _

/-- However the endpoints and the backend behave, a request waits no longer than the
timeouts on its route: of each `forward_auth` and of the `reverse_proxy` at its end. -/
theorem waiting_bounded {directives : List Directive} {path : Str} {req : Request}
    {result : Except Str ActionResult} {s : Pipeline}
    (run : processDirectives world ctx directives path (.initial req) = some (result, s)) :
    authWaits world 0 s.log + backendWait world result ≤
      (route req.method directives path).patience := by
  rw [processDirectives_route] at run
  obtain ⟨executed, log, ⟨ahead, onRoute⟩, ends⟩ := execute_follows run
  have all : s.log = executed := log
  have auths := @authWaits_le world executed 0
  have stations : ((executed.map Event.station).map stationPatience).sum ≤
      ((route req.method directives path).stations.map stationPatience).sum := by
    have split : (route req.method directives path).stations =
        executed.map Event.station ++ ahead := onRoute.symm
    rw [split, List.map_append, List.sum_append]
    omega
  rw [all, Route.patience]
  rcases ends with ⟨status, wwwAuthenticate, rfl⟩ | ⟨same, _⟩
  · simp only [backendWait]
    omega
  · have backend := @backendWait_le world result
    rw [same] at backend ⊢
    have sameRoute : (Pipeline.initial req).req.method = req.method := rfl
    rw [sameRoute] at backend ⊢
    omega

end Waiting

/-- Nobody answers, so the whole timeout is waited for. -/
theorem waiting_bounded_silent : ∃ result s,
    processDirectives quietWorld exampleCtx routedTree ['/'] (.initial exampleRequest) =
        some (result, s) ∧
      authWaits quietWorld 0 s.log = 5000 ∧
      authWaits quietWorld 0 s.log + backendWait quietWorld result ≤
        (route exampleRequest.method routedTree ['/']).patience := by
  have served : ∃ s, processDirectives quietWorld exampleCtx routedTree ['/']
      (.initial exampleRequest) = some (.ok (.respond 200 "ok".toList), s) ∧
        authWaits quietWorld 0 s.log = 5000 := ⟨_, rfl, rfl⟩
  obtain ⟨s, run, waits⟩ := served
  exact ⟨_, s, run, waits, waiting_bounded run⟩

end TinyProxy
