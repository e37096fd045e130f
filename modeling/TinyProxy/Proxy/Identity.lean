import TinyProxy.Proxy.Authorization

/-!
# Identity headers

A header listed by an authorization directive has, until a later directive
touches it, the value of the last answer it was read from: what the client sent
under that name is gone.
-/

set_option autoImplicit false

namespace TinyProxy

open Rust Http

/-- What an authorization result says about a header. -/
def AuthResult.identityValues (n : HeaderName) : AuthResult → List HeaderValue
  | .allowed identity => Multimap.getAll identity n
  | _ => []

/-- The directive neither lists nor names the header. -/
def Event.Leaves (n : HeaderName) : Event → Prop
  | .header _ name _ => HeaderName.fromBytes name ≠ some n
  | .auth _ cfg _ _ => n ∉ cfg.responseHeaders
  | .action _ => True

/-! ## One authorization -/

theorem resolveAuth_identity {ctx : AuthCtx} {req : Request} {cfg : ForwardAuthConfig}
    {exchange : Exchange} {identity : HeaderMap}
    (allowed : resolveAuth ctx req cfg exchange = .allowed identity) :
    ∃ delay status headers body, exchange = .response delay status headers body ∧
      status.isSuccess = true ∧
      ∀ n, Multimap.getAll identity n =
        if n ∈ cfg.responseHeaders then (headers.get n).toList else [] := by
  obtain ⟨delay, status, headers, body, answer, success, rfl⟩ := resolveAuth_allowed _ _ _ allowed
  refine ⟨delay, status, headers, body, answer, success, fun n => ?_⟩
  rw [Multimap.getAll_copyFirst]
  by_cases listed : n ∈ cfg.responseHeaders
  · rw [if_pos listed, if_pos listed]
    cases headers.get n <;> rfl
  · rw [if_neg listed, if_neg listed]
    rfl

section Runs
variable {world : World} {ctx : AuthCtx}

/-- An authorization sets the headers it lists and leaves the others. -/
theorem getAll_afterAuth (position : Position) (cfg : ForwardAuthConfig) (s : Pipeline)
    (n : HeaderName) :
    Multimap.getAll (afterAuth world ctx position cfg s).req.headers n =
      if n ∈ cfg.responseHeaders then (authResult world ctx cfg s).identityValues n
      else Multimap.getAll s.req.headers n := by
  have scrubbed : Multimap.getAll (scrubIdentityHeaders s.req cfg).headers n =
      if n ∈ cfg.responseHeaders then [] else Multimap.getAll s.req.headers n :=
    Multimap.getAll_removeAll cfg.responseHeaders n s.req.headers
  unfold afterAuth
  cases answer : authResult world ctx cfg s with
  | allowed identity =>
      obtain ⟨_, _, headers, _, _, _, values⟩ := resolveAuth_identity answer
      dsimp only [AuthResult.applyTo, applyIdentityHeaders, AuthResult.identityValues]
      rw [Multimap.getAll_insertAll, values, scrubbed]
      by_cases listed : n ∈ cfg.responseHeaders
      · simp only [if_pos listed]
        cases headers.get n <;> rfl
      · simp only [if_neg listed]
        rfl
  | denied status wwwAuthenticate => exact scrubbed
  | failed reason => exact scrubbed

/-! ## Runs -/

/-- After the last authorization that lists it, a header still has the value it
was given there. -/
def IdentityKept (n : HeaderName) (s : Pipeline) : Prop :=
  ∀ earlier position cfg before answer later,
    s.log = earlier ++ .auth position cfg before answer :: later → n ∈ cfg.responseHeaders →
    (∀ event ∈ later, event.Leaves n) →
      Multimap.getAll s.req.headers n = answer.identityValues n

/-- A step that adds one event keeps the value or sets it again. -/
theorem identityKept_snoc {n : HeaderName} {s t : Pipeline} {event : Event}
    (log : t.log = s.log ++ [event])
    (left : event.Leaves n →
      Multimap.getAll t.req.headers n = Multimap.getAll s.req.headers n)
    (set : ∀ position cfg before answer, event = .auth position cfg before answer →
      n ∈ cfg.responseHeaders → Multimap.getAll t.req.headers n = answer.identityValues n)
    (kept : IdentityKept n s) : IdentityKept n t := by
  intro earlier position cfg before answer later split listed untouched
  rw [log] at split
  rcases snoc_split split with ⟨_, _, same⟩ | ⟨between, rfl, past⟩
  · exact set _ _ _ _ same.symm listed
  · rw [left (untouched _ (by simp))]
    exact kept _ _ _ _ _ _ past listed fun e member =>
      untouched e (List.mem_append_left _ member)

theorem identityKept_step {n : HeaderName} {s t : Pipeline} (step : Step world ctx s t)
    (kept : IdentityKept n s) : IdentityKept n t := by
  cases step with
  | header step =>
      obtain ⟨log, _, others⟩ := stepHeader_spec step
      refine identityKept_snoc log (fun unnamed => others n unnamed) ?_ kept
      intro _ _ _ _ same
      cases same
  | auth position cfg s =>
      refine identityKept_snoc rfl (fun unlisted => ?_) ?_ kept
      · rw [getAll_afterAuth, if_neg unlisted]
      · intro position' cfg' before answer same listed
        cases same
        rw [getAll_afterAuth, if_pos listed]
  | action position s =>
      refine identityKept_snoc rfl (fun _ => rfl) ?_ kept
      intro _ _ _ _ same
      cases same

theorem processDirectives_identityKept {directives : List Directive} {path : Str}
    {req : Request} {result : Except Str ActionResult} {s : Pipeline} (n : HeaderName)
    (run : processDirectives world ctx directives path (.initial req) = some (result, s)) :
    IdentityKept n s := by
  refine run_invariant (fun _ _ step => identityKept_step step) run ?_
  intro earlier _ _ _ _ _ split
  cases earlier <;> cases split

theorem identity_not_client_controlled {directives : List Directive} {path : Str}
    {req : Request} {result : Except Str ActionResult} {s : Pipeline}
    (run : processDirectives world ctx directives path (.initial req) = some (result, s))
    {n : HeaderName} {earlier later : List Event} {position : Position}
    {cfg : ForwardAuthConfig} {before : Request} {answer : AuthResult}
    (executed : s.log = earlier ++ .auth position cfg before answer :: later)
    (listed : n ∈ cfg.responseHeaders) (last : ∀ event ∈ later, event.Leaves n) :
    (∀ identity, answer = .allowed identity →
      ∃ delay status headers body,
        world.authExchanges (authCount earlier) = .response delay status headers body ∧
        status.isSuccess = true ∧
        Multimap.getAll s.req.headers n = (headers.get n).toList) ∧
    ((∀ identity, answer ≠ .allowed identity) → Multimap.getAll s.req.headers n = []) := by
  have kept := processDirectives_identityKept n run
  have answered := (processDirectives_log run).2 _ _ _ _ _ _ executed
  have values := kept _ _ _ _ _ _ executed listed last
  constructor
  · rintro identity rfl
    obtain ⟨delay, status, headers, body, exchange, success, identityValues⟩ :=
      resolveAuth_identity answered.symm
    refine ⟨delay, status, headers, body, exchange, success, ?_⟩
    rw [values, AuthResult.identityValues, identityValues, if_pos listed]
  · intro notAllowed
    rw [values]
    cases answer with
    | allowed identity => exact absurd rfl (notAllowed identity)
    | denied status wwwAuthenticate => rfl
    | failed reason => rfl

end Runs

/-! ## A spoofed header -/

def exampleUserHeader : HeaderName := ⟨"x-user".toList, by decide⟩

/-- `plainAuth` that hands `x-user` over. -/
def identifyingAuth : ForwardAuthConfig :=
  { plainAuth .open with responseHeaders := [exampleUserHeader] }

def userRoot : HeaderValue := ⟨utf8 "root".toList, by decide⟩

/-- `exampleRequest` that claims twice to be `root`. -/
def spoofingRequest : Request :=
  { exampleRequest with
    headers := exampleRequest.headers ++ [(exampleUserHeader, userRoot),
      (exampleUserHeader, userRoot)] }

def identifiedSite : List Directive :=
  [.forwardAuth identifyingAuth, .reverseProxy ['b'] none none []]

/-- The end of a run with the authorization service down. -/
def failedOpen : Pipeline :=
  ⟨exampleRequest, 1, 1,
    [.auth [0] identifyingAuth exampleRequest (.failed .timeout), .action [1]]⟩

theorem identity_not_client_controlled_fail_open :
    processDirectives quietWorld exampleCtx identifiedSite ['/'] (.initial spoofingRequest) =
        some (.ok (.reverseProxy ['b'] ['/'] none none []), failedOpen) ∧
      Multimap.getAll failedOpen.req.headers exampleUserHeader = [] := by
  have run : processDirectives quietWorld exampleCtx identifiedSite ['/']
      (.initial spoofingRequest) =
        some (.ok (.reverseProxy ['b'] ['/'] none none []), failedOpen) := rfl
  have executed : failedOpen.log =
      [] ++ .auth [0] identifyingAuth exampleRequest (.failed .timeout) :: [.action [1]] := rfl
  have last : ∀ event ∈ [Event.action [1]], event.Leaves exampleUserHeader := by
    simp [Event.Leaves]
  refine ⟨run, (identity_not_client_controlled run executed ?_ last).2 ?_⟩
  · exact List.mem_singleton.mpr rfl
  · intro _ same
    cases same

end TinyProxy
