import TinyProxy.Proxy.Forwarding
import TinyProxy.Proxy.Response

/-!
# What is passed on of an authorization answer

Of every header that is passed on, to the backend or in a denial to the client,
the first value is taken.
-/

set_option autoImplicit false

namespace TinyProxy

open Rust Http

/-- Taking the first value loses nothing of at most one. -/
theorem first_eq_all_iff {headers : HeaderMap} {n : HeaderName} :
    (Multimap.get headers n).toList = Multimap.getAll headers n ↔
      (Multimap.getAll headers n).length ≤ 1 := by
  rw [Multimap.get]
  cases Multimap.getAll headers n with
  | nil => simp
  | cons first rest =>
      rw [List.head?_cons, Option.toList_some, List.cons.injEq, List.length_cons]
      constructor
      · rintro ⟨_, same⟩
        rw [← same, List.length_nil]
      · intro short
        exact ⟨rfl, (List.length_eq_zero_iff.mp (by omega)).symm⟩

/-! ## `header_up` -/

section HeaderUp
variable {fuel : Nat} {env : Environment} {upstream : UpstreamCtx} {n : HeaderName}

theorem applyHeaderDirective_leaves {uuid : Uuid} {directive : HeaderDirective}
    {req out : Request} (unnamed : HeaderName.fromBytes directive.name ≠ some n)
    (applied : applyHeaderDirective fuel env uuid upstream directive req = some out) :
    Multimap.getAll out.headers n = Multimap.getAll req.headers n := by
  rw [applyHeaderDirective_write applied]
  refine Multimap.getAll_attempt_other fun w written same => unnamed ?_
  rw [headerWrite_key written, same]

theorem applyHeaderUp_leaves {uuids : Nat → Uuid} {headerUp : List HeaderDirective}
    (unnamed : ∀ directive ∈ headerUp, HeaderName.fromBytes directive.name ≠ some n) :
    ∀ {start : Nat} {req out : Request},
      applyHeaderUp fuel env uuids upstream start headerUp req = some out →
        Multimap.getAll out.headers n = Multimap.getAll req.headers n := by
  induction headerUp with
  | nil =>
      intro start req out applied
      rw [Option.some.inj applied]
  | cons directive rest ih =>
      intro start req out applied
      obtain ⟨middle, first, later⟩ := Option.bind_eq_some_iff.mp applied
      rw [List.forall_mem_cons] at unnamed
      rw [ih unnamed.2 later, applyHeaderDirective_leaves unnamed.1 first]

end HeaderUp

/-! ## Answers -/

theorem resolveAuth_denied {ctx : AuthCtx} {req : Request} {cfg : ForwardAuthConfig}
    {delay : Nat} {status answered : StatusCode} {headers : HeaderMap} {body : Body}
    {wwwAuthenticate : Option HeaderValue}
    (denied : resolveAuth ctx req cfg (.response delay status headers body) =
      .denied answered wwwAuthenticate) :
    wwwAuthenticate = Multimap.get headers .wwwAuthenticate := by
  by_cases settled : SettlesInTime cfg delay body
  · obtain ⟨ready, bodyErr, drained, inTime⟩ := settled
    rw [resolveAuth_settled ctx req cfg drained inTime, classifyAnswer] at denied
    split at denied
    · split at denied <;> cases denied
    · split at denied
      · exact (AuthResult.denied.inj denied).2.symm
      · cases denied
  · rw [resolveAuth_unsettled ctx req cfg settled] at denied
    cases denied

section Served
variable {parser : UriParser} {world : World} {config : Config} {remoteAddr : SocketAddr}
variable {isTls : Bool} {incoming : Request} {s : Pipeline} {outcome : Outcome}

/-- What is sent to the backend has the headers of the request, where neither forwarding
nor `header_up` touches them. -/
theorem sent_leaves {backendUrl pathToSend : Str} {connectTimeout readTimeout : Option UInt64}
    {headerUp : List HeaderDirective} {sendReq : Request} {n : HeaderName}
    (run : selected world config remoteAddr isTls incoming =
      some (.ok (.reverseProxy backendUrl pathToSend connectTimeout readTimeout headerUp), s))
    (served : proxy parser world config remoteAddr isTls incoming = some outcome)
    (sent : outcome.sentToBackend = some sendReq)
    (unnamed : ∀ directive ∈ headerUp, HeaderName.fromBytes directive.name ≠ some n)
    (other : isForwardingHeader n = false) :
    Multimap.getAll sendReq.headers n = Multimap.getAll s.req.headers n := by
  have executed := proxy_executes run served
  rw [executeAction] at executed
  cases target : backendUri parser backendUrl pathToSend s.req with
  | error e =>
      rw [target] at executed
      rw [← Option.some.inj executed, conclude_sentToBackend] at sent
      cases sent
  | ok newUri =>
      rw [target] at executed
      obtain ⟨built, applied, rfl⟩ := Option.map_eq_some_iff.mp executed
      rw [conclude_sentToBackend] at sent
      obtain rfl := Option.some.inj sent
      rw [applyHeaderUp_leaves unnamed applied, forwarded_other other]

/-- A denial reaches the client with the challenge that was kept of it. -/
theorem denial_answers {earlier later : List Event} {position : Position}
    {cfg : ForwardAuthConfig} {before : Request} {answered : StatusCode}
    {wwwAuthenticate : Option HeaderValue} {result : Except Str ActionResult}
    (run : selected world config remoteAddr isTls incoming = some (result, s))
    (served : proxy parser world config remoteAddr isTls incoming = some outcome)
    (executed : s.log =
      earlier ++ .auth position cfg before (.denied answered wwwAuthenticate) :: later) :
    ∃ r, outcome.response = .ok r ∧
      Multimap.getAll r.headers .wwwAuthenticate = wwwAuthenticate.toList := by
  obtain ⟨site, _, processed⟩ := Option.bind_eq_some_iff.mp run
  obtain ⟨events, log, _, ending⟩ := run_explained processed
  have whole : s.log = events := log
  obtain ⟨_, isResult, _⟩ := ending.rejection (whole ▸ executed) rfl
  rw [isResult] at run
  obtain rfl := Option.some.inj (proxy_executes run served)
  rw [conclude_response]
  have visible := loggedId_visible world config remoteAddr isTls incoming
  obtain ⟨r, made, _, values⟩ := authDenied_answers visible answered.asU16 wwwAuthenticate
  exact ⟨r, made, values⟩

/-- A listed header gets to the backend, and a challenge to the client, with all its values
exactly when the authorization service sent at most one. -/
theorem propagation_lossless_iff {result : Except Str ActionResult}
    (run : selected world config remoteAddr isTls incoming = some (result, s))
    (served : proxy parser world config remoteAddr isTls incoming = some outcome)
    {earlier later : List Event} {position : Position} {cfg : ForwardAuthConfig}
    {before : Request} {answer : AuthResult}
    (executed : s.log = earlier ++ .auth position cfg before answer :: later)
    {delay : Nat} {status : StatusCode} {headers : HeaderMap} {body : Body}
    (exchange : world.authExchanges (authCount earlier) = .response delay status headers body) :
    (∀ identity backendUrl pathToSend connectTimeout readTimeout headerUp sendReq n,
      answer = .allowed identity →
      result = .ok (.reverseProxy backendUrl pathToSend connectTimeout readTimeout headerUp) →
      outcome.sentToBackend = some sendReq → n ∈ cfg.responseHeaders →
      (∀ event ∈ later, event.Leaves n) →
      (∀ directive ∈ headerUp, HeaderName.fromBytes directive.name ≠ some n) →
      isForwardingHeader n = false →
        (Multimap.getAll sendReq.headers n = Multimap.getAll headers n ↔
          (Multimap.getAll headers n).length ≤ 1)) ∧
    ∀ answered wwwAuthenticate, answer = .denied answered wwwAuthenticate →
      ∃ r, outcome.response = .ok r ∧
        (Multimap.getAll r.headers .wwwAuthenticate =
            Multimap.getAll headers .wwwAuthenticate ↔
          (Multimap.getAll headers .wwwAuthenticate).length ≤ 1) := by
  obtain ⟨site, _, processed⟩ := Option.bind_eq_some_iff.mp run
  have answers := (processDirectives_log processed).2 _ _ _ _ _ _ executed
  constructor
  · rintro identity _ _ _ _ headerUp sendReq n rfl rfl sent listed last unnamed other
    have kept := processDirectives_identityKept n processed _ _ _ _ _ _ executed listed last
    obtain ⟨_, _, source, _, same, _, values⟩ := resolveAuth_identity answers.symm
    obtain ⟨_, _, rfl, _⟩ := Exchange.response.inj (exchange.symm.trans same)
    rw [sent_leaves run served sent unnamed other, kept, AuthResult.identityValues, values,
      if_pos listed]
    exact first_eq_all_iff
  · rintro answered wwwAuthenticate rfl
    obtain ⟨r, sent, values⟩ := denial_answers run served executed
    rw [exchange] at answers
    rw [resolveAuth_denied answers.symm] at values
    exact ⟨r, sent, values ▸ first_eq_all_iff⟩

end Served

/-! ## One value and two -/

def rolesHeader : HeaderName := ⟨"x-roles".toList, by decide⟩

/-- `plainAuth` that hands `x-roles` over. -/
def rolesAuth : ForwardAuthConfig := { plainAuth .closed with responseHeaders := [rolesHeader] }

def rolesConfig : Config :=
  ⟨(∅ : AList fun _ : Str => SiteConfig).insert ['a']
    ⟨['a'], [.forwardAuth rolesAuth, .reverseProxy "http://b".toList none none []], none⟩⟩

def devRole : HeaderValue := ⟨utf8 "dev".toList, by decide⟩
def opsRole : HeaderValue := ⟨utf8 "ops".toList, by decide⟩

/-- The authorization service allows with these headers. -/
def allowingWorld (headers : HeaderMap) : World :=
  answeringWorld (.response 0 .ok headers (.finished 0))

/-- The run of `rolesConfig` on `exampleRequest` with that answer. -/
def rolesRun (headers : HeaderMap) : Pipeline :=
  let scrubbed := scrubIdentityHeaders (ensureRequestId exampleUuid exampleRequest).2 rolesAuth
  let identity := Multimap.copyFirst headers [rolesHeader] .empty
  ⟨applyIdentityHeaders scrubbed identity, 1, 1,
    [.auth [0] rolesAuth scrubbed (.allowed identity), .action [1]]⟩

theorem propagation_lossless_iff_one_role :
    ∃ outcome sendReq, proxy plainUriParser (allowingWorld [(rolesHeader, devRole)]) rolesConfig
        exampleAddr false exampleRequest = some outcome ∧
      outcome.sentToBackend = some sendReq ∧
      Multimap.getAll sendReq.headers rolesHeader = [devRole] := by
  have run : selected (allowingWorld [(rolesHeader, devRole)]) rolesConfig exampleAddr false
      exampleRequest = some (.ok (.reverseProxy "http://b".toList ['/'] none none []),
        rolesRun [(rolesHeader, devRole)]) := rfl
  have executed : (rolesRun [(rolesHeader, devRole)]).log =
      [] ++ .auth [0] rolesAuth _ (.allowed [(rolesHeader, devRole)]) :: [.action [1]] := rfl
  have last : ∀ event ∈ [Event.action [1]], event.Leaves rolesHeader :=
    List.forall_mem_singleton.mpr trivial
  have proxied : ((proxy plainUriParser (allowingWorld [(rolesHeader, devRole)]) rolesConfig
      exampleAddr false exampleRequest).bind Outcome.sentToBackend).isSome = true := rfl
  obtain ⟨sendReq, forwarded⟩ := Option.isSome_iff_exists.mp proxied
  obtain ⟨outcome, served, sent⟩ := Option.bind_eq_some_iff.mp forwarded
  refine ⟨outcome, sendReq, served, sent, ?_⟩
  refine ((propagation_lossless_iff run served executed rfl).1 _ _ _ _ _ _ _ rolesHeader rfl rfl
    sent (List.mem_singleton.mpr rfl) last ?_ rfl).mpr (by decide)
  intro _ member
  cases member

/-- Of two roles the backend gets one, of two challenges the client. -/
theorem second_value_is_dropped :
    ((proxy plainUriParser (allowingWorld [(rolesHeader, devRole), (rolesHeader, opsRole)])
        rolesConfig exampleAddr false exampleRequest).bind Outcome.sentToBackend).map
      (fun sent => Multimap.getAll sent.headers rolesHeader) = some [devRole] ∧
    ((proxy plainUriParser (answeringWorld (.response 0 unauthorized
        [(.wwwAuthenticate, devRole), (.wwwAuthenticate, opsRole)] (.finished 0)))
        rolesConfig exampleAddr false exampleRequest).map fun outcome =>
          outcome.response.map fun r => Multimap.getAll r.headers .wwwAuthenticate) =
      some (.ok [devRole]) := by
  exact ⟨rfl, rfl⟩

end TinyProxy
