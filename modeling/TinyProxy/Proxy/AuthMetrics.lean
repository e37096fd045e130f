import TinyProxy.Proxy.Authorization

/-!
# What is counted of authorizations

`resolve_auth` adds one to `auth_requests_total` on each of its exits.  The
labels tell how the requests ended, since only the last one can end a request.
-/

set_option autoImplicit false

namespace TinyProxy

open Rust Http

/-- `resolve_auth` with the label that it records. -/
def resolveAuthRecorded (ctx : AuthCtx) (req : Request) (cfg : ForwardAuthConfig)
    (exchange : Exchange) : AuthResult × Str :=
  match buildAuthRequest ctx req cfg with
  | .error e => (.failed (.malformed e), "error".toList)
  | .ok _ =>
      let outcome : AuthResult :=
        match timeout cfg.timeoutSecs (authFuture cfg exchange) with
        | some (.ok answer) => classifyAnswer answer
        | some (.error e) =>
            .failed (if e.isConnect then .connect e.message else .malformed e.message)
        | none => .failed .timeout
      match outcome with
      | .allowed _ => (outcome, "allowed".toList)
      | .denied _ _ => (outcome, "denied".toList)
      | .failed _ => (outcome, "error".toList)

def AuthResult.label : AuthResult → Str
  | .allowed _ => "allowed".toList
  | .denied _ _ => "denied".toList
  | .failed _ => "error".toList

theorem resolveAuthRecorded_eq (ctx : AuthCtx) (req : Request) (cfg : ForwardAuthConfig)
    (exchange : Exchange) : resolveAuthRecorded ctx req cfg exchange =
      (resolveAuth ctx req cfg exchange, (resolveAuth ctx req cfg exchange).label) := by
  unfold resolveAuthRecorded resolveAuth
  cases buildAuthRequest ctx req cfg with
  | error e => rfl
  | ok sub =>
      dsimp only
      cases timeout cfg.timeoutSecs (authFuture cfg exchange) with
      | none => rfl
      | some ready =>
          cases ready with
          | error e => rfl
          | ok answer =>
              dsimp only
              cases classifyAnswer answer <;> rfl

theorem resolveAuth_clientError {ctx : AuthCtx} {req : Request} {cfg : ForwardAuthConfig}
    {exchange : Exchange} {status : StatusCode} {wwwAuthenticate : Option HeaderValue}
    (denied : resolveAuth ctx req cfg exchange = .denied status wwwAuthenticate) :
    status.isClientError = true := by
  unfold resolveAuth at denied
  dsimp only [buildAuthRequest] at denied
  split at denied
  · unfold classifyAnswer at denied
    split at denied
    · split at denied <;> cases denied
    · split at denied
      next clientError =>
        obtain ⟨rfl, _⟩ := AuthResult.denied.inj denied
        exact clientError
      next => cases denied
  · cases denied
  · cases denied

/-! ## One request -/

/-- The labels that a request has recorded; `calls` are those that came before. -/
def authRequests (world : World) (ctx : AuthCtx) : (calls : Nat) → List Event → List Str
  | _, [] => []
  | calls, .auth _ cfg req _ :: rest =>
      (resolveAuthRecorded ctx req cfg (world.authExchanges calls)).2 ::
        authRequests world ctx (calls + 1) rest
  | calls, .header _ _ _ :: rest => authRequests world ctx calls rest
  | calls, .action _ :: rest => authRequests world ctx calls rest

def Event.label : Event → Option Str
  | .auth _ _ _ result => some result.label
  | _ => none

/-- A failure that the directive does not forgive. -/
def Event.failsClosed : Event → Bool
  | .auth _ cfg _ (.failed _) => cfg.failureMode = .closed
  | _ => false

/-- The request is turned away with the answer of an authorization service. -/
def decided : Except Str ActionResult → Bool
  | .ok (.authDenied status _) => 400 ≤ status.toNat ∧ status.toNat < 500
  | _ => false

/-- The request is turned away because there is no such answer. -/
def undecided : Except Str ActionResult → Bool
  | .ok (.authDenied status _) => status = 503
  | _ => false

section Runs
variable {world : World} {ctx : AuthCtx} {s : Pipeline}

theorem authRequests_eq (matched : LogMatches world ctx s) :
    authRequests world ctx 0 s.log = s.log.filterMap Event.label := by
  have later : ∀ rest before, s.log = before ++ rest →
      authRequests world ctx (authCount before) rest = rest.filterMap Event.label := by
    intro rest
    induction rest with
    | nil =>
        intro _ _
        rfl
    | cons event rest ih =>
        intro before split
        have next := ih (before ++ [event]) (by rw [split, List.append_assoc]; rfl)
        rw [authCount, List.countP_append] at next
        cases event with
        | header => exact next
        | action => exact next
        | auth position cfg req result =>
            have answered := matched.2 _ _ _ _ _ _ split
            rw [authRequests, resolveAuthRecorded_eq, ← answered]
            exact congrArg (result.label :: ·) next
  exact later s.log [] rfl

/-- What lets a request pass is neither a denial nor a failure that is not forgiven. -/
theorem passed_labels {events : List Event} (passed : ∀ event ∈ events, event.Passed) :
    (events.filterMap Event.label).count "denied".toList = 0 ∧
      events.countP Event.failsClosed = 0 := by
  constructor
  · rw [List.count_eq_zero]
    intro isDenied
    obtain ⟨event, member, label⟩ := List.mem_filterMap.mp isDenied
    have passes := passed event member
    cases event with
    | header => cases label
    | action => cases label
    | auth position cfg req result =>
        rcases denial_eq_none_iff.mp passes with ⟨_, rfl⟩ | ⟨_, rfl, _⟩
        · have other : "allowed".toList ≠ "denied".toList := by decide
          exact absurd (Option.some.inj label) other
        · have other : "error".toList ≠ "denied".toList := by decide
          exact absurd (Option.some.inj label) other
  · rw [List.countP_eq_zero]
    intro event member
    have passes := passed event member
    cases event with
    | header => simp [Event.failsClosed]
    | action => simp [Event.failsClosed]
    | auth position cfg req result =>
        rcases denial_eq_none_iff.mp passes with ⟨_, rfl⟩ | ⟨_, rfl, isOpen⟩
        · simp [Event.failsClosed]
        · simp [Event.failsClosed, isOpen]

/-- The answer that turns a request away. -/
theorem refused_label {position : Position} {cfg : ForwardAuthConfig} {before : Request}
    {exchange : Exchange} {answer : AuthResult} {action : ActionResult}
    (verdict : denial cfg answer = some action)
    (answered : answer = resolveAuth ctx before cfg exchange) :
    ([Event.auth position cfg before answer].filterMap Event.label).count "denied".toList =
        (decided (.ok action)).toNat ∧
      [Event.auth position cfg before answer].countP Event.failsClosed =
        (undecided (.ok action)).toNat := by
  cases answer with
  | allowed identity => cases verdict
  | denied status wwwAuthenticate =>
      obtain rfl := Option.some.inj verdict
      have clientError := resolveAuth_clientError answered.symm
      simp only [StatusCode.isClientError, Bool.and_eq_true, decide_eq_true_eq] at clientError
      have isDecided : decided (.ok (.authDenied status.asU16 wwwAuthenticate)) = true :=
        decide_eq_true clientError
      have other : status.asU16 ≠ 503 := by
        intro same
        rw [same] at clientError
        exact absurd clientError.2 (by decide)
      have notUndecided : undecided (.ok (.authDenied status.asU16 wwwAuthenticate)) = false :=
        decide_eq_false other
      rw [isDecided, notUndecided]
      exact ⟨rfl, rfl⟩
  | failed reason =>
      cases mode : cfg.failureMode with
      | «open» =>
          simp only [denial, mode] at verdict
          cases verdict
      | closed =>
          simp only [denial, mode] at verdict
          obtain rfl := Option.some.inj verdict
          refine ⟨rfl, ?_⟩
          simp [Event.failsClosed, mode, undecided]

/-- Each authorization of a request is counted once.  It is counted as `denied` at most once,
and exactly when its answer turns the request away; a failure is not forgiven at most once, and
exactly when the request is turned away with 503. -/
theorem auth_requests_counted {directives : List Directive} {path : Str} {req : Request}
    {result : Except Str ActionResult}
    (run : processDirectives world ctx directives path (.initial req) = some (result, s)) :
    (authRequests world ctx 0 s.log).length = s.authCalls ∧
      (authRequests world ctx 0 s.log).count "denied".toList = (decided result).toNat ∧
      s.log.countP Event.failsClosed = (undecided result).toNat := by
  have matched := processDirectives_log run
  obtain ⟨events, log, _, ending⟩ := run_explained run
  have whole : s.log = events := log
  rw [authRequests_eq matched]
  have labels : ∀ log : List Event, (log.filterMap Event.label).length = authCount log := by
    intro log
    rw [authCount, List.length_filterMap_eq_countP]
    congr 1
    funext event
    cases event <;> rfl
  refine ⟨(labels s.log).trans matched.1.symm, ?_⟩
  rw [whole]
  cases ending with
  | @acted position directive auths action passing located terminal order passed =>
      obtain ⟨notDenied, forgiven⟩ := passed_labels passed
      rw [List.filterMap_append, List.count_append, List.countP_append, notDenied, forgiven]
      cases terminal <;> exact ⟨rfl, rfl⟩
  | @rejected position cfg before answer action passing verdict unchanged passed =>
      obtain ⟨notDenied, forgiven⟩ := passed_labels passed
      rw [List.filterMap_append, List.count_append, List.countP_append, notDenied, forgiven,
        Nat.zero_add, Nat.zero_add]
      exact refused_label verdict (matched.2 _ _ _ _ _ _ whole)
  | exhausted passed => exact passed_labels passed

end Runs

/-- The first service of the site answers 401, the second one is not asked. -/
theorem auth_requests_counted_unauthorized : ∃ s,
    processDirectives (answeringWorld (.response 0 unauthorized [] (.finished 0))) exampleCtx
      guardedSite ['/'] (.initial exampleRequest) = some (.ok (.authDenied 401 none), s) ∧
    (authRequests (answeringWorld (.response 0 unauthorized [] (.finished 0))) exampleCtx 0
      s.log).count "denied".toList = 1 := by
  have ran : ∃ s, processDirectives (answeringWorld (.response 0 unauthorized [] (.finished 0)))
      exampleCtx guardedSite ['/'] (.initial exampleRequest) =
        some (.ok (.authDenied 401 none), s) := ⟨_, rfl⟩
  obtain ⟨s, run⟩ := ran
  exact ⟨s, run, (auth_requests_counted run).2.1⟩

end TinyProxy
