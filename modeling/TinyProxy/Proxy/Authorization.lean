import TinyProxy.Proxy.Correlation
import TinyProxy.Proxy.Pipeline

/-!
# Authorization decides

A run passes the `forward_auth` directives in front of the directive that ends
it, in the order they are written, or it ends at the first one that rejects.
A 4xx answer rejects exactly when its body is over before the deadline.
-/

set_option autoImplicit false

namespace TinyProxy

open Rust Http

def Directive.isForwardAuth : Directive → Bool
  | .forwardAuth _ => true
  | _ => false

/-- `Located enclosing index directives position directive auths`: `directive` stands
at `position`, and `auths` are the `forward_auth` directives that are earlier
siblings of it or of one of its enclosing blocks, as they are written. -/
inductive Located : Position → Nat → List Directive → Position → Directive → List Position →
    Prop where
  | here (enclosing : Position) (index : Nat) (directive : Directive) (rest : List Directive) :
      Located enclosing index (directive :: rest) (enclosing ++ [index]) directive []
  | later {enclosing position : Position} {index : Nat} {first directive : Directive}
      {rest : List Directive} {auths : List Position}
      (next : Located enclosing (index + 1) rest position directive auths) :
      Located enclosing index (first :: rest) position directive
        ((if first.isForwardAuth then [enclosing ++ [index]] else []) ++ auths)
  | inside {enclosing position : Position} {index : Nat} {first directive : Directive}
      {rest : List Directive} {auths : List Position}
      (nested : Located (enclosing ++ [index]) 0 first.block position directive auths) :
      Located enclosing index (first :: rest) position directive auths

def Event.authPosition : Event → Option Position
  | .auth position _ _ _ => some position
  | _ => none

/-- No authorization result that ends the request. -/
def Event.Passed : Event → Prop
  | .auth _ cfg _ result => denial cfg result = none
  | _ => True

/-! ## Positions -/

theorem Located.auths_after {enclosing position : Position} {index : Nat}
    {directives : List Directive} {directive : Directive} {auths : List Position}
    (located : Located enclosing index directives position directive auths) :
    ∀ auth ∈ auths, ∃ later rest, index ≤ later ∧ auth = enclosing ++ later :: rest := by
  induction located with
  | here => simp
  | @later enclosing position index first directive rest auths next ih =>
      intro auth member
      rcases List.mem_append.mp member with first_ | after
      · by_cases isAuth : first.isForwardAuth = true
        · rw [if_pos isAuth, List.mem_singleton] at first_
          exact ⟨index, [], Nat.le_refl _, first_⟩
        · rw [if_neg isAuth] at first_
          cases first_
      · obtain ⟨place, tail, bound, shape⟩ := ih auth after
        exact ⟨place, tail, by omega, shape⟩
  | @inside enclosing position index first directive rest auths nested ih =>
      intro auth member
      obtain ⟨place, tail, _, shape⟩ := ih auth member
      exact ⟨index, place :: tail, Nat.le_refl _, by rw [shape, List.append_assoc]; rfl⟩

/-- Every `forward_auth` in front of a directive is counted once. -/
theorem Located.nodup {enclosing position : Position} {index : Nat}
    {directives : List Directive} {directive : Directive} {auths : List Position}
    (located : Located enclosing index directives position directive auths) : auths.Nodup := by
  induction located with
  | here => exact List.nodup_nil
  | @later enclosing position index first directive rest auths next ih =>
      by_cases isAuth : first.isForwardAuth = true
      · rw [if_pos isAuth, List.singleton_append, List.nodup_cons]
        refine ⟨fun again => ?_, ih⟩
        obtain ⟨place, tail, bound, shape⟩ := next.auths_after _ again
        have same := (List.cons.inj (List.append_cancel_left shape)).1
        omega
      · rw [if_neg isAuth]
        exact ih
  | inside _ ih => exact ih

/-! ## How a run ends -/

/-- The events of a run, and the result it has after them. -/
inductive Ending (enclosing : Position) (index : Nat) (directives : List Directive)
    (req : Request) : List Event → Except Str ActionResult → Prop where
  | acted {position : Position} {directive : Directive} {auths : List Position}
      {action : ActionResult} {events : List Event}
      (located : Located enclosing index directives position directive auths)
      (terminal : Terminal directive action)
      (order : events.filterMap Event.authPosition = auths)
      (passed : ∀ event ∈ events, event.Passed) :
      Ending enclosing index directives req (events ++ [.action position]) (.ok action)
  | rejected {position : Position} {cfg : ForwardAuthConfig} {before : Request}
      {result : AuthResult} {action : ActionResult} {events : List Event}
      (verdict : denial cfg result = some action) (unchanged : req = before)
      (passed : ∀ event ∈ events, event.Passed) :
      Ending enclosing index directives req (events ++ [.auth position cfg before result])
        (.ok action)
  | exhausted {currentPath : Str} {events : List Event}
      (passed : ∀ event ∈ events, event.Passed) :
      Ending enclosing index directives req events (.error (noActionMessage currentPath))

def AuthsLocated (enclosing : Position) (index : Nat) (directives : List Directive)
    (events : List Event) : Prop :=
  ∀ position cfg req result, Event.auth position cfg req result ∈ events →
    ∃ auths, Located enclosing index directives position (.forwardAuth cfg) auths

section Endings
variable {enclosing : Position} {index : Nat} {first : Directive} {rest : List Directive}
variable {req : Request} {events : List Event} {result : Except Str ActionResult}

theorem AuthsLocated.nil {directives : List Directive} :
    AuthsLocated enclosing index directives [] := by
  intro _ _ _ _ member
  cases member

theorem AuthsLocated.cons {directives : List Directive} {event : Event}
    (here : ∀ position cfg before answer, event = .auth position cfg before answer →
      ∃ auths, Located enclosing index directives position (.forwardAuth cfg) auths)
    (located : AuthsLocated enclosing index directives events) :
    AuthsLocated enclosing index directives (event :: events) := by
  intro position cfg before answer member
  rcases List.mem_cons.mp member with same | later
  · exact here position cfg before answer same.symm
  · exact located position cfg before answer later

theorem AuthsLocated.later (located : AuthsLocated enclosing (index + 1) rest events) :
    AuthsLocated enclosing index (first :: rest) events := by
  intro position cfg before answer member
  obtain ⟨auths, found⟩ := located position cfg before answer member
  exact ⟨_, .later found⟩

theorem AuthsLocated.inside
    (located : AuthsLocated (enclosing ++ [index]) 0 first.block events) :
    AuthsLocated enclosing index (first :: rest) events := by
  intro position cfg before answer member
  obtain ⟨auths, found⟩ := located position cfg before answer member
  exact ⟨auths, .inside found⟩

theorem Ending.later {before : List Event}
    (order : before.filterMap Event.authPosition =
      if first.isForwardAuth then [enclosing ++ [index]] else [])
    (passed : ∀ event ∈ before, event.Passed)
    (ending : Ending enclosing (index + 1) rest req events result) :
    Ending enclosing index (first :: rest) req (before ++ events) result := by
  have both : ∀ {more : List Event}, (∀ event ∈ more, event.Passed) →
      ∀ event ∈ before ++ more, event.Passed := by
    intro more morePassed event member
    rcases List.mem_append.mp member with early | late
    · exact passed event early
    · exact morePassed event late
  cases ending with
  | acted located terminal laterOrder laterPassed =>
      rw [← List.append_assoc]
      refine .acted (.later located) terminal ?_ (both laterPassed)
      rw [List.filterMap_append, order, laterOrder]
  | rejected verdict unchanged laterPassed =>
      rw [← List.append_assoc]
      exact .rejected verdict unchanged (both laterPassed)
  | exhausted laterPassed => exact .exhausted (both laterPassed)

theorem Ending.inside
    (ending : Ending (enclosing ++ [index]) 0 first.block req events result) :
    Ending enclosing index (first :: rest) req events result := by
  cases ending with
  | acted located terminal order passed => exact .acted (.inside located) terminal order passed
  | rejected verdict unchanged passed => exact .rejected verdict unchanged passed
  | exhausted passed => exact .exhausted passed

end Endings

section Runs
variable {world : World} {ctx : AuthCtx}

/-- What a run did is accounted for by the tree. -/
def Explained (enclosing : Position) (index : Nat) (directives : List Directive) (s : Pipeline)
    (result : Except Str ActionResult) (s' : Pipeline) : Prop :=
  ∃ events, s'.log = s.log ++ events ∧ AuthsLocated enclosing index directives events ∧
    Ending enclosing index directives s'.req events result

theorem run_explained {directives : List Directive} {enclosing : Position} {index : Nat}
    {currentPath path : Str} {s s' : Pipeline} {result : Except Str ActionResult}
    (run : runDirectives world ctx enclosing index directives currentPath path s =
      some (result, s')) : Explained enclosing index directives s result s' := by
  revert run
  apply run_induction (motive := Explained)
  · intro enclosing index currentPath s
    exact ⟨[], by rw [List.append_nil], .nil, .exhausted (by simp)⟩
  · rintro enclosing index first rest s result s' silent ⟨events, log, located, ending⟩
    have notAuth : ¬ first.isForwardAuth = true := by
      cases first <;> simp_all [Directive.isSilent, Directive.isForwardAuth]
    have nothing : ([] : List Event).filterMap Event.authPosition =
        if first.isForwardAuth then [enclosing ++ [index]] else [] := by
      rw [if_neg notAuth]
      rfl
    exact ⟨events, log, located.later, Ending.later nothing (by simp) ending⟩
  · rintro enclosing index name value rest s t result s' step ⟨events, log, located, ending⟩
    refine ⟨.header (enclosing ++ [index]) name value :: events, ?_, ?_, ?_⟩
    · rw [log, (stepHeader_spec step).1, List.append_assoc, List.singleton_append]
    · apply located.later.cons
      intro _ _ _ _ same
      cases same
    · have passed : ∀ event ∈ [Event.header (enclosing ++ [index]) name value], event.Passed := by
        simp [Event.Passed]
      exact Ending.later rfl passed ending
  · rintro enclosing index cfg path next rest s t result s' step ⟨events, log, located, ending⟩
    obtain ⟨verdict, rfl⟩ := stepForwardAuth_next step
    refine ⟨.auth (enclosing ++ [index]) cfg (scrubIdentityHeaders s.req cfg)
      (authResult world ctx cfg s) :: events, ?_, ?_, ?_⟩
    · rw [log, afterAuth, List.append_assoc, List.singleton_append]
    · apply located.later.cons
      rintro _ _ _ _ ⟨⟩
      exact ⟨[], .here _ _ _ _⟩
    · have passed : ∀ event ∈ [Event.auth (enclosing ++ [index]) cfg
          (scrubIdentityHeaders s.req cfg) (authResult world ctx cfg s)], event.Passed := by
        simpa [Event.Passed] using verdict
      exact Ending.later rfl passed ending
  · rintro enclosing index cfg path rest s result s' step
    obtain ⟨action, verdict, rfl, rfl⟩ := stepForwardAuth_done step
    refine ⟨[.auth (enclosing ++ [index]) cfg (scrubIdentityHeaders s.req cfg)
      (authResult world ctx cfg s)], rfl, ?_, ?_⟩
    · apply AuthsLocated.nil.cons
      rintro _ _ _ _ ⟨⟩
      exact ⟨[], .here _ _ _ _⟩
    · have unchanged : (afterAuth world ctx (enclosing ++ [index]) cfg s).req =
          scrubIdentityHeaders s.req cfg := by
        unfold afterAuth
        cases answer : authResult world ctx cfg s with
        | allowed identity => rw [answer] at verdict; cases verdict
        | denied status wwwAuthenticate => rfl
        | failed reason => rfl
      have nothing : ∀ event ∈ ([] : List Event), event.Passed := by simp
      exact .rejected verdict unchanged nothing
  · rintro enclosing index directive rest s action terminal
    refine ⟨[.action (enclosing ++ [index])], rfl, ?_, ?_⟩
    · apply AuthsLocated.nil.cons
      intro _ _ _ _ same
      cases same
    · have nothing : ∀ event ∈ ([] : List Event), event.Passed := by simp
      exact .acted (.here _ _ _ _) terminal rfl nothing
  · rintro enclosing index directive rest s result s' ⟨events, log, located, ending⟩
    exact ⟨events, log, located.inside, ending.inside⟩

/-! ## The first rejection is final -/

theorem Ending.rejection {enclosing : Position} {index : Nat} {directives : List Directive}
    {req before : Request} {result : Except Str ActionResult} {events earlier later : List Event}
    {position : Position} {cfg : ForwardAuthConfig} {answer : AuthResult} {action : ActionResult}
    (ending : Ending enclosing index directives req events result)
    (split : events = earlier ++ .auth position cfg before answer :: later)
    (verdict : denial cfg answer = some action) :
    later = [] ∧ result = .ok action ∧ req = before := by
  have rejecting : ∀ {passing : List Event}, (∀ event ∈ passing, event.Passed) →
      Event.auth position cfg before answer ∉ passing := by
    intro passing passed member
    have none_ : denial cfg answer = none := passed _ member
    rw [verdict] at none_
    cases none_
  cases ending with
  | acted located terminal order passed =>
      rcases snoc_split split with ⟨_, _, same⟩ | ⟨kept, _, inside⟩
      · cases same
      · exact absurd (inside ▸ List.mem_append_right _ (List.mem_cons_self ..)) (rejecting passed)
  | rejected lastVerdict unchanged passed =>
      rcases snoc_split split with ⟨nothing, _, same⟩ | ⟨kept, _, inside⟩
      · cases same
        rw [verdict] at lastVerdict
        obtain rfl := Option.some.inj lastVerdict
        exact ⟨nothing, rfl, unchanged⟩
      · exact absurd (inside ▸ List.mem_append_right _ (List.mem_cons_self ..)) (rejecting passed)
  | exhausted passed =>
      exact absurd (split ▸ List.mem_append_right _ (List.mem_cons_self ..)) (rejecting passed)

theorem executeAction_authDenied {parser : UriParser} {access : AccessLog} {s : Pipeline}
    {status : UInt16} {wwwAuthenticate : Option HeaderValue} {outcome : Outcome}
    (run : executeAction parser world ctx access s (.authDenied status wwwAuthenticate) =
      some outcome) : outcome.sentToBackend = none := by
  obtain rfl := Option.some.inj run
  exact conclude_sentToBackend _ _ _

theorem forward_auth_dominates {directives : List Directive} {path : Str} {req : Request}
    {result : Except Str ActionResult} {s : Pipeline}
    (run : processDirectives world ctx directives path (.initial req) = some (result, s)) :
    (∀ action, result = .ok action →
      (∀ status wwwAuthenticate, action ≠ .authDenied status wwwAuthenticate) →
      ∃ position directive auths, Located [] 0 directives position directive auths ∧
        Terminal directive action ∧ s.log.getLast? = some (.action position) ∧
        s.log.filterMap Event.authPosition = auths ∧ auths.Nodup ∧
        ∀ authPosition cfg before answer,
          Event.auth authPosition cfg before answer ∈ s.log →
            (∃ earlier, Located [] 0 directives authPosition (.forwardAuth cfg) earlier) ∧
            ((∃ identity, answer = .allowed identity) ∨
              ∃ reason, answer = .failed reason ∧ cfg.failureMode = .open)) ∧
    (∀ earlier position cfg before answer later action,
      s.log = earlier ++ .auth position cfg before answer :: later →
      denial cfg answer = some action →
        later = [] ∧ result = .ok action ∧ s.req = before ∧
          ∀ parser access outcome, executeAction parser world ctx access s action =
            some outcome → outcome.sentToBackend = none) ∧
    LogMatches world ctx s := by
  obtain ⟨events, log, located, ending⟩ := run_explained run
  have whole : s.log = events := log
  refine ⟨?_, ?_, processDirectives_log run⟩
  · intro action success notDenied
    rw [whole]
    cases ending with
    | @acted position directive auths _ passing found terminal order passed =>
        obtain rfl := Except.ok.inj success
        refine ⟨position, directive, auths, found, terminal, by simp, ?_, found.nodup, ?_⟩
        · rw [List.filterMap_append, order]
          exact List.append_nil auths
        · intro authPosition cfg before answer member
          refine ⟨located _ _ _ _ member, ?_⟩
          rcases List.mem_append.mp member with inside | last
          · exact denial_eq_none_iff.mp (passed _ inside)
          · cases List.mem_singleton.mp last
    | rejected verdict unchanged passed =>
        obtain rfl := Except.ok.inj success
        obtain ⟨status, wwwAuthenticate, same⟩ := denial_authDenied verdict
        exact absurd same (notDenied status wwwAuthenticate)
    | exhausted passed => cases success
  · intro earlier position cfg before answer later action split verdict
    obtain ⟨nothing, isResult, unchanged⟩ := ending.rejection (whole ▸ split) verdict
    refine ⟨nothing, isResult, unchanged, ?_⟩
    intro parser access outcome executed
    obtain ⟨status, wwwAuthenticate, rfl⟩ := denial_authDenied verdict
    exact executeAction_authDenied executed

/-! ## Denials that are never reported -/

/-- Processing gets to the `forward_auth` at `position` with this pipeline. -/
inductive Reaches (world : World) (ctx : AuthCtx) : Position → Nat → List Directive → Str → Str →
    Pipeline → Position → ForwardAuthConfig → Pipeline → Prop where
  | here (enclosing : Position) (index : Nat) (cfg : ForwardAuthConfig) (rest : List Directive)
      (currentPath path : Str) (s : Pipeline) :
      Reaches world ctx enclosing index (.forwardAuth cfg :: rest) currentPath path s
        (enclosing ++ [index]) cfg s
  | later {enclosing position : Position} {index : Nat} {first : Directive}
      {rest : List Directive} {currentPath path next : Str} {s t u : Pipeline}
      {cfg : ForwardAuthConfig}
      (step : stepDirective world ctx enclosing index first path s = some (.next next t))
      (after : Reaches world ctx enclosing (index + 1) rest currentPath next t position cfg u) :
      Reaches world ctx enclosing index (first :: rest) currentPath path s position cfg u
  | insidePath {enclosing position : Position} {index : Nat} {pattern remaining : Str}
      {nested rest : List Directive} {currentPath path : Str} {s u : Pipeline}
      {cfg : ForwardAuthConfig} (matched : matchPattern pattern path = some remaining)
      (inner : Reaches world ctx (enclosing ++ [index]) 0 nested remaining remaining s
        position cfg u) :
      Reaches world ctx enclosing index (.handlePath pattern nested :: rest) currentPath path s
        position cfg u
  | insideMethod {enclosing position : Position} {index : Nat} {methods : List Str}
      {nested rest : List Directive} {currentPath path : Str} {s u : Pipeline}
      {cfg : ForwardAuthConfig} (matched : handleMethod methods s.req = true)
      (inner : Reaches world ctx (enclosing ++ [index]) 0 nested path path s position cfg u) :
      Reaches world ctx enclosing index (.method methods nested :: rest) currentPath path s
        position cfg u

/-- A rejection at a directive that is reached is the result, whatever encloses it. -/
theorem Reaches.rejected {enclosing position : Position} {index : Nat}
    {directives : List Directive} {currentPath path : Str} {s u : Pipeline}
    {cfg : ForwardAuthConfig} {action : ActionResult}
    (reached : Reaches world ctx enclosing index directives currentPath path s position cfg u)
    (verdict : denial cfg (authResult world ctx cfg u) = some action) :
    runDirectives world ctx enclosing index directives currentPath path s =
      some (.ok action, afterAuth world ctx position cfg u) := by
  induction reached with
  | here => rw [runDirectives, stepDirective, stepForwardAuth_eq, verdict]
  | later step _ ih =>
      rw [runDirectives, step]
      exact ih verdict
  | insidePath matched _ ih =>
      rw [runDirectives, stepDirective, matched]
      dsimp only
      rw [ih verdict]
      rfl
  | insideMethod matched _ ih =>
      rw [runDirectives, stepDirective, if_pos matched, ih verdict]
      rfl

theorem explicit_denial_final_iff {directives : List Directive} {path : Str} {req : Request}
    {position : Position} {cfg : ForwardAuthConfig} {s : Pipeline} {delay : Nat}
    {status : StatusCode} {headers : HeaderMap} {body : Body}
    (reached : Reaches world ctx [] 0 directives path path (.initial req) position cfg s)
    (answer : world.authExchanges s.authCalls = .response delay status headers body)
    (clientError : status.isClientError = true) :
    (resolveAuth ctx (scrubIdentityHeaders s.req cfg) cfg (world.authExchanges s.authCalls) =
        .denied status (headers.get .wwwAuthenticate) ∧
      ∃ t, processDirectives world ctx directives path (.initial req) =
        some (.ok (.authDenied status.asU16 (headers.get .wwwAuthenticate)), t)) ↔
      SettlesInTime cfg delay body := by
  have decided : resolveAuth ctx (scrubIdentityHeaders s.req cfg) cfg
      (.response delay status headers body) = .denied status (headers.get .wwwAuthenticate) ↔
        SettlesInTime cfg delay body :=
    resolveAuth_denied_iff ctx (scrubIdentityHeaders s.req cfg) cfg clientError
  rw [answer, decided]
  refine ⟨And.left, fun settled => ⟨settled, ?_⟩⟩
  have denied : authResult world ctx cfg s =
      .denied status (headers.get .wwwAuthenticate) := by
    rw [authResult, answer]
    exact decided.mpr settled
  exact ⟨_, reached.rejected (by rw [denied]; rfl)⟩

end Runs

/-! ## Concrete services -/

/-- An authorization service at `http://c/`, without identity headers. -/
def plainAuth (failureMode : FailureMode) : ForwardAuthConfig :=
  ⟨⟨some "http".toList, some ['c'], some ['/']⟩, defaultRequestHeaders, [], failureMode,
    defaultAuthTimeoutSecs⟩

def exampleCtx : AuthCtx := ⟨['/'], exampleAddr, false⟩

def guardedSite : List Directive :=
  [.forwardAuth (plainAuth .open),
    .method ["GET".toList] [.forwardAuth (plainAuth .closed), .respond 200 []]]

def unauthorized : StatusCode := ⟨401, by decide⟩

/-- Every subrequest is answered by this exchange. -/
def answeringWorld (exchange : Exchange) : World :=
  { quietWorld with authExchanges := fun _ => exchange }

/-- Both directives in front of `respond` allow the request. -/
theorem forward_auth_dominates_nested :
    ∃ s position directive auths,
      processDirectives (answeringWorld (.response 0 .ok [] (.finished 0))) exampleCtx guardedSite
        ['/'] (.initial exampleRequest) = some (.ok (.respond 200 []), s) ∧
      Located [] 0 guardedSite position directive auths ∧
      s.log.filterMap Event.authPosition = auths ∧ auths.Nodup := by
  obtain ⟨s, run⟩ : ∃ s, processDirectives (answeringWorld (.response 0 .ok [] (.finished 0)))
      exampleCtx guardedSite ['/'] (.initial exampleRequest) = some (.ok (.respond 200 []), s) :=
    ⟨_, rfl⟩
  obtain ⟨position, directive, auths, located, _, _, order, once, _⟩ :=
    (forward_auth_dominates run).1 (.respond 200 []) rfl (by intro _ _ same; cases same)
  exact ⟨s, position, directive, auths, run, located, order, once⟩

theorem explicit_denial_final_iff_unauthorized :
    ∃ t, processDirectives (answeringWorld (.response 0 unauthorized [] (.finished 0))) exampleCtx
      guardedSite ['/'] (.initial exampleRequest) = some (.ok (.authDenied 401 none), t) := by
  have reached : Reaches (answeringWorld (.response 0 unauthorized [] (.finished 0))) exampleCtx
      [] 0 guardedSite ['/'] ['/'] (.initial exampleRequest) ([] ++ [0]) (plainAuth .open)
      (.initial exampleRequest) := .here ..
  exact ((explicit_denial_final_iff reached rfl (by decide)).mpr
    ⟨0, none, rfl, Nat.zero_le _⟩).2

/-- The service answers 401 at once and then stalls: the request is served. -/
theorem stalled_denial_is_ignored :
    resolveAuth exampleCtx exampleRequest (plainAuth .open)
        (.response 0 unauthorized [] .stalled) = .failed .timeout ∧
      (processDirectives (answeringWorld (.response 0 unauthorized [] .stalled)) exampleCtx
        [.forwardAuth (plainAuth .open), .respond 200 []] ['/']
        (.initial exampleRequest)).map Prod.fst = some (.ok (.respond 200 [])) := by
  exact ⟨rfl, rfl⟩

end TinyProxy
