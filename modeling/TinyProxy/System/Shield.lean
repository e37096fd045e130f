import TinyProxy.Proxy.Egress
import TinyProxy.System.Live

/-!
# Backends behind an authorization

A check on the directives as they are written, and what it is worth: as long as
every configuration that becomes live passes it, nothing is sent to the backend
unless the authorization service has allowed it, whatever clients send.
-/

set_option autoImplicit false

namespace TinyProxy

open Rust Http Linearization Transition

/-! ## The check -/

/-- Where a request goes. -/
structure Destination where
  scheme : Option Str
  authority : Option Str
deriving DecidableEq

def destination (uri : Uri) : Destination := ⟨uri.scheme, uri.authority⟩

section Check
variable (parser : UriParser) (endpoint : Uri) (backend : Destination)

/-- A `forward_auth` that lets nothing pass which the endpoint has not allowed. -/
def Directive.shields : Directive → Bool
  | .forwardAuth cfg => cfg.endpoint = endpoint ∧ cfg.failureMode = .closed
  | _ => false

def targets (backendUrl : Str) : Bool :=
  match parser.parseUri (backendWithProto backendUrl) with
  | .ok uri => destination uri = backend
  | .error _ => false

mutual

def shieldedInside : Directive → Bool
  | .handlePath _ directives => shielded directives
  | .method _ directives => shielded directives
  | .reverseProxy to_ _ _ _ => ! targets parser backend to_
  | _ => true

/-- In front of every `reverse_proxy` to the backend, in its own block or in an enclosing one,
is a `forward_auth` that shields it. -/
def shielded : List Directive → Bool
  | [] => true
  | directive :: rest =>
      directive.shields endpoint || (shieldedInside directive && shielded rest)

end

def Config.Shields (config : Config) : Prop :=
  ∀ site ∈ config.values, shielded parser endpoint backend site.directives = true

end Check

/-! ## One request -/

section Runs
variable {parser : UriParser} {endpoint : Uri} {backend : Destination} {world : World}
variable {ctx : AuthCtx}

theorem shielded_block {directive : Directive} {rest : List Directive}
    (checked : shielded parser endpoint backend (directive :: rest) = true) :
    shielded parser endpoint backend directive.block = true := by
  rw [shielded, Bool.or_eq_true, Bool.and_eq_true] at checked
  cases directive with
  | handlePath pattern directives =>
      rcases checked with shields | ⟨inside, _⟩
      · cases shields
      · exact inside
  | method methods directives =>
      rcases checked with shields | ⟨inside, _⟩
      · cases shields
      · exact inside
  | uriReplace => rfl
  | stripPrefix => rfl
  | header => rfl
  | redirect => rfl
  | respond => rfl
  | reverseProxy => rfl
  | forwardAuth => rfl

theorem shielded_rest {directive : Directive} {rest : List Directive}
    (checked : shielded parser endpoint backend (directive :: rest) = true)
    (shields : directive.shields endpoint = false) :
    shielded parser endpoint backend rest = true := by
  rw [shielded, shields, Bool.false_or, Bool.and_eq_true] at checked
  exact checked.2

/-- The request is to be sent to the backend. -/
def Targets (parser : UriParser) (backend : Destination) (result : Except Str ActionResult) :
    Prop :=
  ∃ backendUrl pathToSend connectTimeout readTimeout headerUp,
    result = .ok (.reverseProxy backendUrl pathToSend connectTimeout readTimeout headerUp) ∧
    targets parser backend backendUrl = true

/-- The endpoint has allowed the request. -/
def Event.Vouches (endpoint : Uri) : Event → Prop
  | .auth _ cfg _ answer => cfg.endpoint = endpoint ∧ ∃ identity, answer = .allowed identity
  | _ => False

theorem vouches_of_passed {cfg : ForwardAuthConfig} {s : Pipeline} {position : Position}
    {before : Request} (shields : (Directive.forwardAuth cfg).shields endpoint = true)
    (passed : denial cfg (authResult world ctx cfg s) = none) :
    (Event.auth position cfg before (authResult world ctx cfg s)).Vouches endpoint := by
  obtain ⟨same, closed⟩ : cfg.endpoint = endpoint ∧ cfg.failureMode = .closed := by
    simpa [Directive.shields] using shields
  rcases denial_eq_none_iff.mp passed with allowed | ⟨_, _, isOpen⟩
  · exact ⟨same, allowed⟩
  · cases closed.symm.trans isOpen

theorem run_shielded {directives : List Directive} {enclosing : Position} {index : Nat}
    {currentPath path : Str} {s s' : Pipeline} {result : Except Str ActionResult}
    (run : runDirectives world ctx enclosing index directives currentPath path s =
      some (result, s')) :
    ∃ events, s'.log = s.log ++ events ∧
      (shielded parser endpoint backend directives = true → Targets parser backend result →
        ∃ event ∈ events, event.Vouches endpoint) := by
  revert run
  apply run_induction (motive := fun _ _ directives s result s' =>
    ∃ events, s'.log = s.log ++ events ∧
      (shielded parser endpoint backend directives = true → Targets parser backend result →
        ∃ event ∈ events, event.Vouches endpoint))
  case none_left =>
    intro _ _ currentPath s
    refine ⟨[], (List.append_nil _).symm, fun _ sends => ?_⟩
    obtain ⟨_, _, _, _, _, same, _⟩ := sends
    cases same
  case silent =>
    intro _ _ directive rest s result s' isSilent later
    obtain ⟨events, log, vouched⟩ := later
    refine ⟨events, log, fun checked => vouched (shielded_rest checked ?_)⟩
    cases directive with
    | forwardAuth => cases isSilent
    | _ => rfl
  case header =>
    intro _ _ name value rest s t result s' moved later
    obtain ⟨events, log, vouched⟩ := later
    rw [(stepHeader_spec moved).1, List.append_assoc] at log
    refine ⟨_, log, fun checked sends => ?_⟩
    obtain ⟨event, member, vouches⟩ := vouched (shielded_rest checked rfl) sends
    exact ⟨event, List.mem_append_right _ member, vouches⟩
  case authorized =>
    intro enclosing index cfg path next rest s t result s' step later
    obtain ⟨events, log, vouched⟩ := later
    obtain ⟨passed, rfl⟩ := stepForwardAuth_next step
    rw [afterAuth, List.append_assoc] at log
    refine ⟨_, log, fun checked sends => ?_⟩
    by_cases shields : (Directive.forwardAuth cfg).shields endpoint = true
    · exact ⟨_, List.mem_cons_self .., vouches_of_passed shields passed⟩
    · obtain ⟨event, member, vouches⟩ :=
        vouched (shielded_rest checked (by simpa using shields)) sends
      exact ⟨event, List.mem_append_right _ member, vouches⟩
  case rejected =>
    intro _ _ cfg path rest s result s' step
    obtain ⟨action, verdict, rfl, rfl⟩ := stepForwardAuth_done step
    refine ⟨_, rfl, fun _ sends => ?_⟩
    obtain ⟨_, _, _, _, _, same, _⟩ := sends
    obtain ⟨_, _, rfl⟩ := denial_authDenied verdict
    cases same
  case terminal =>
    intro _ _ directive rest s action isTerminal
    refine ⟨_, rfl, fun checked sends => ?_⟩
    obtain ⟨_, _, _, _, _, same, isTarget⟩ := sends
    obtain rfl := Except.ok.inj same
    cases isTerminal with
    | reverseProxy =>
        rw [shielded, shieldedInside, isTarget] at checked
        cases checked
  case entered =>
    intro _ _ directive rest s result s' inside
    obtain ⟨events, log, vouched⟩ := inside
    exact ⟨events, log, fun checked => vouched (shielded_block checked)⟩

/-- The endpoint was asked on behalf of the request, and its answer was 2xx. -/
def AllowedBy (world : World) (endpoint : Uri) (log : List Event) : Prop :=
  ∃ earlier position cfg before identity later delay status headers body,
    log = earlier ++ .auth position cfg before (.allowed identity) :: later ∧
    cfg.endpoint = endpoint ∧
    world.authExchanges (authCount earlier) = .response delay status headers body ∧
    status.isSuccess = true

theorem allowedBy_of_vouches {s : Pipeline} (matched : LogMatches world ctx s) {event : Event}
    (member : event ∈ s.log) (vouches : event.Vouches endpoint) :
    AllowedBy world endpoint s.log := by
  obtain ⟨earlier, later, split⟩ := List.append_of_mem member
  cases event with
  | header => exact vouches.elim
  | action => exact vouches.elim
  | auth position cfg before answer =>
      obtain ⟨same, identity, rfl⟩ := vouches
      have answered := matched.2 _ _ _ _ _ _ split
      obtain ⟨delay, status, headers, body, exchange, success, _⟩ :=
        resolveAuth_allowed _ _ _ answered.symm
      exact ⟨earlier, position, cfg, before, identity, later, delay, status, headers, body, split,
        same, exchange, success⟩

/-- What is sent to the backend by a server whose configuration shields it. -/
theorem sent_allowed (keeps : KeepsOrigin parser) {config : Config} {remoteAddr : SocketAddr}
    {isTls : Bool} {incoming : Request} {outcome : Outcome} {sent : Request}
    (shields : config.Shields parser endpoint backend)
    (served : proxy parser world config remoteAddr isTls incoming = some outcome)
    (isSent : outcome.sentToBackend = some sent) (there : destination sent.uri = backend) :
    ∃ result s, selected world config remoteAddr isTls incoming = some (result, s) ∧
      AllowedBy world endpoint s.log := by
  rcases proxy_cases served with
    ⟨_, _, rfl⟩ | ⟨_, _, _, rfl⟩ | ⟨action, s, chosen, executed⟩
  · cases isSent
  · cases isSent
  · obtain ⟨backendUrl, pathToSend, connectTimeout, readTimeout, headerUp, configured, rfl,
      parsed, scheme, authority⟩ := executeAction_origin keeps executed isSent
    have isTarget : targets parser backend backendUrl = true := by
      have same : destination configured = backend := by
        rw [← there, destination, destination, scheme, authority]
      simp [targets, parsed, same]
    obtain ⟨site, found, processed⟩ := Option.bind_eq_some_iff.mp chosen
    obtain ⟨events, log, vouched⟩ :=
      @run_shielded parser endpoint backend _ _ _ _ _ _ _ _ _ _ processed
    obtain ⟨event, member, vouches⟩ := vouched (shields site (findSite_mem found))
      ⟨backendUrl, pathToSend, connectTimeout, readTimeout, headerUp, rfl, isTarget⟩
    refine ⟨_, s, chosen, allowedBy_of_vouches (processDirectives_log processed) ?_ vouches⟩
    rw [log]
    exact List.mem_append_right _ member

end Runs

/-! ## Every run -/

theorem alone_shields {codec : Codec} {endpoint : Uri} {backend : Destination} {call : CellCall}
    {stored : Config}
    (stores : ∀ config, call.stores codec = some config →
      config.Shields codec.parser endpoint backend)
    (shields : stored.Shields codec.parser endpoint backend) :
    (call.alone codec stored).2.Shields codec.parser endpoint backend := by
  rw [alone_stored]
  cases replaced : call.stores codec with
  | none => exact shields
  | some config => exact stores config replaced

/-- If the server starts with a configuration that shields a backend and every one that
replaces it does, the server sends nothing to the backend that the endpoint has not allowed. -/
theorem backend_shielded {codec : Codec} {started : Started} {start : Config}
    {maxConcurrency : Nat} {events : List SystemEvent} {s : System} {endpoint : Uri}
    {backend : Destination} (keeps : KeepsOrigin codec.parser)
    (initial : start.Shields codec.parser endpoint backend)
    (reached : run (System.step codec) (started.system start maxConcurrency) events = some s)
    (replaced : ∀ id call config, .invoke id call ∈ s.cell.trace →
      call.stores codec = some config → config.Shields codec.parser endpoint backend)
    {id : Nat} {world : World} {remoteAddr : SocketAddr} {isTls : Bool} {incoming sent : Request}
    {outcome : Outcome}
    (served : ⟨id, .proxied world remoteAddr isTls incoming, .proxied (some outcome)⟩ ∈
      effects s.cell.trace)
    (isSent : outcome.sentToBackend = some sent) (there : destination sent.uri = backend) :
    ∃ config result pipeline,
      proxy codec.parser world config remoteAddr isTls incoming = some outcome ∧
      selected world config remoteAddr isTls incoming = some (result, pipeline) ∧
      AllowedBy world endpoint pipeline.log := by
  have consistent := consistent_run reached
  have kept : ∀ entry ∈ effects s.cell.trace, ∀ stored : Config,
      stored.Shields codec.parser endpoint backend →
        (entry.call.alone codec stored).2.Shields codec.parser endpoint backend := by
    intro entry member stored shields
    have made := consistent.wellFormed.invoked entry member
    exact alone_shields (fun config => replaced entry.id entry.call config made) shields
  obtain ⟨_, found⟩ := Sequential.invariant initial kept consistent.sequential
  obtain ⟨config, shields, same⟩ := found _ served
  have answered : proxy codec.parser world config remoteAddr isTls incoming = some outcome :=
    (CellAnswer.proxied.inj same).symm
  obtain ⟨result, pipeline, chosen, allowed⟩ := sent_allowed keeps shields answered isSent there
  exact ⟨config, result, pipeline, answered, chosen, allowed⟩

/-- A site of which only the health page is open to everybody. -/
def shieldedSite : SiteConfig :=
  ⟨"a:80".toList, [.handlePath "/health".toList [.respond 200 []],
    .forwardAuth (plainAuth .closed), .method ["GET".toList] [.reverseProxy ['b'] none none []]],
    none⟩

def vouchingWorld : World := answeringWorld (.response 0 .ok [] (.finished 0))

def shieldThenRequest : List SystemEvent :=
  [.connect false, .client 0 (.receive (.updateConfig (singleSite shieldedSite))),
    .client 0 .touch, .loop 0 .accept exampleAddr, .loop 0 .tryAcquire exampleAddr,
    .loop 0 .spawn exampleAddr, .session 0 (.receive (.request vouchingWorld exampleRequest)),
    .session 0 .touch]

theorem backend_shielded_update : ∃ s outcome sent config result pipeline,
    run (System.step plainCodec) (plainStarted.system ⟨∅⟩ 1) shieldThenRequest = some s ∧
      outcome.sentToBackend = some sent ∧ sent.uri.authority = some ['b'] ∧
      proxy plainUriParser vouchingWorld config exampleAddr false exampleRequest =
        some outcome ∧
      selected vouchingWorld config exampleAddr false exampleRequest = some (result, pipeline) ∧
      AllowedBy vouchingWorld (plainAuth .closed).endpoint pipeline.log := by
  have ran : ∃ s outcome sent,
      run (System.step plainCodec) (plainStarted.system ⟨∅⟩ 1) shieldThenRequest = some s ∧
        outcome.sentToBackend = some sent ∧
        destination sent.uri = ⟨some "http".toList, some ['b']⟩ ∧
        s.cell.trace = [.invoke 0 (.updateConfig (singleSite shieldedSite)),
          .effect 0 (.updateConfig (singleSite shieldedSite)) .updated,
          .invoke 1 (.proxied vouchingWorld exampleAddr false exampleRequest),
          .effect 1 (.proxied vouchingWorld exampleAddr false exampleRequest)
            (.proxied (some outcome))] := ⟨_, _, _, rfl, rfl, rfl, rfl⟩
  obtain ⟨s, outcome, sent, reached, isSent, there, trace⟩ := ran
  have passes : (singleSite shieldedSite).Shields plainUriParser (plainAuth .closed).endpoint
      ⟨some "http".toList, some ['b']⟩ := by
    intro site member
    obtain rfl := List.mem_singleton.mp member
    decide
  have replaced : ∀ id call config, .invoke id call ∈ s.cell.trace →
      call.stores plainCodec = some config → config.Shields plainUriParser
        (plainAuth .closed).endpoint ⟨some "http".toList, some ['b']⟩ := by
    intro id call config made stores
    rw [trace] at made
    simp only [List.mem_cons, List.not_mem_nil, Label.invoke.injEq, reduceCtorEq, false_or,
      or_false] at made
    rcases made with ⟨_, rfl⟩ | ⟨_, rfl⟩
    · obtain rfl := Option.some.inj stores
      exact passes
    · cases stores
  have served : (⟨1, .proxied vouchingWorld exampleAddr false exampleRequest,
      .proxied (some outcome)⟩ : Entry CellCall CellAnswer) ∈ effects s.cell.trace := by
    rw [trace]
    exact List.mem_cons_of_mem _ (List.mem_singleton_self _)
  obtain ⟨config, result, pipeline, answered, chosen, allowed⟩ :=
    backend_shielded plainUriParser_keeps (fun _ member => absurd member List.not_mem_nil) reached
      replaced served isSent there
  exact ⟨s, outcome, sent, config, result, pipeline, reached, isSent,
    congrArg Destination.authority there, answered, chosen, allowed⟩

end TinyProxy
