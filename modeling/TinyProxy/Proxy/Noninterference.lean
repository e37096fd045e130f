import TinyProxy.Proxy.Identity

/-!
# Two runs

`run_simulation` is the rule for two runs of one directive tree.  Two requests
that differ only in headers which the first `forward_auth` removes are treated
alike from there on, and nothing in front of it reads a header.
-/

set_option autoImplicit false

namespace TinyProxy

open Rust Http

/-! ## The rule for two runs -/

section Rule
variable {world : World} {ctx : AuthCtx}

/-- Two runs stay related as long as every step that a good run can take keeps them so. -/
theorem run_simulation {R : Pipeline → Pipeline → Prop} {Good : Pipeline → Prop}
    (back : ∀ s t, Step world ctx s t → Good t → Good s)
    (method : ∀ s t, R s t → s.req.method = t.req.method)
    (header : ∀ s t position name value s', R s t →
      stepHeader world position name value s = some s' → Good s' →
        ∃ t', stepHeader world position name value t = some t' ∧ R s' t')
    (auth : ∀ s t position cfg, R s t → Good (afterAuth world ctx position cfg s) →
      denial cfg (authResult world ctx cfg t) = denial cfg (authResult world ctx cfg s) ∧
        R (afterAuth world ctx position cfg s) (afterAuth world ctx position cfg t))
    (action : ∀ s t position, R s t → Good (s.record (.action position)) →
      R (s.record (.action position)) (t.record (.action position))) :
    ∀ (directives : List Directive) (enclosing : Position) (index : Nat)
      (currentPath path : Str) (s t : Pipeline) (result : Except Str ActionResult)
      (s' : Pipeline), R s t →
      runDirectives world ctx enclosing index directives currentPath path s = some (result, s') →
      Good s' →
        ∃ t', runDirectives world ctx enclosing index directives currentPath path t =
          some (result, t') ∧ R s' t'
  | [], enclosing, index, currentPath, path, s, t, result, s', related, run, _ => by
      rw [runDirectives, Option.some.injEq, Prod.mk.injEq] at run
      obtain ⟨rfl, rfl⟩ := run
      exact ⟨t, by rw [runDirectives], related⟩
  | directive :: rest, enclosing, index, currentPath, path, s, t, result, s', related, run,
      good => by
      have later := run_simulation back method header auth action rest enclosing (index + 1)
        currentPath
      have inside := fun inner => run_simulation back method header auth action directive.block
        (enclosing ++ [index]) 0 inner inner
      have sameEntry : entered directive path t.req = entered directive path s.req := by
        unfold entered handleMethod
        rw [method s t related]
      cases enters : entered directive path s.req with
      | some inner =>
          rw [run_of_entered enters] at run
          rw [run_of_entered (sameEntry.trans enters)]
          exact inside inner s t result s' related run good
      | none =>
      rcases @directive_kinds world ctx directive path with
        isSilent | ⟨name, value, rfl⟩ | ⟨cfg, rfl⟩ | ⟨ended, _, ends⟩
      · obtain ⟨next, moves⟩ := @run_of_silent world ctx enclosing index directive path isSilent
        rw [run_of_next (moves s enters)] at run
        rw [run_of_next (moves t (sameEntry.trans enters))]
        exact later next s t result s' related run good
      · cases moved : stepHeader world (enclosing ++ [index]) name value s with
        | none =>
            rw [runDirectives, stepDirective, moved] at run
            cases run
        | some u =>
            rw [run_of_next (step_of_header moved)] at run
            obtain ⟨v, movedToo, relatedToo⟩ :=
              header s t _ name value u related moved (run_back back run good)
            rw [run_of_next (step_of_header movedToo)]
            exact later path u v result s' relatedToo run good
      · cases verdict : denial cfg (authResult world ctx cfg s) with
        | none =>
            rw [run_of_next (step_of_authorized verdict)] at run
            obtain ⟨same, relatedToo⟩ := auth s t _ cfg related (run_back back run good)
            rw [run_of_next (step_of_authorized (same.trans verdict))]
            exact later path _ _ result s' relatedToo run good
        | some denied =>
            rw [run_of_done (step_of_denied verdict), Option.some.injEq, Prod.mk.injEq] at run
            obtain ⟨rfl, rfl⟩ := run
            obtain ⟨same, relatedToo⟩ := auth s t _ cfg related good
            exact ⟨_, run_of_done (step_of_denied (same.trans verdict)), relatedToo⟩
      · rw [run_of_done (ends enclosing index s), Option.some.injEq, Prod.mk.injEq] at run
        obtain ⟨rfl, rfl⟩ := run
        exact ⟨_, run_of_done (ends enclosing index t), action s t _ related good⟩
termination_by directives => sizeOf directives
decreasing_by
  all_goals
    have smaller := directive.sizeOf_block
    simp only [List.cons.sizeOf_spec]
    omega

end Rule

/-! ## Requests alike -/

/-- The same but for the order of headers with different names. -/
structure RequestsAlike (first second : Request) : Prop where
  method : first.method = second.method
  uri : first.uri = second.uri
  headers : Multimap.Same first.headers second.headers

/-- Subrequests are made for requests that are alike. -/
inductive EventsAlike : Event → Event → Prop where
  | header (position : Position) (name : Str) (value : Option Str) :
      EventsAlike (.header position name value) (.header position name value)
  | auth (position : Position) (cfg : ForwardAuthConfig) {before other : Request}
      (result : AuthResult) (alike : RequestsAlike before other) :
      EventsAlike (.auth position cfg before result) (.auth position cfg other result)
  | action (position : Position) : EventsAlike (.action position) (.action position)

structure PipelinesAlike (s t : Pipeline) : Prop where
  req : RequestsAlike s.req t.req
  uuidsUsed : s.uuidsUsed = t.uuidsUsed
  authCalls : s.authCalls = t.authCalls
  log : List.Forall₂ EventsAlike s.log t.log

theorem PipelinesAlike.record {s t : Pipeline} (alike : PipelinesAlike s t) {event other : Event}
    (events : EventsAlike event other) : PipelinesAlike (s.record event) (t.record other) :=
  ⟨alike.req, alike.uuidsUsed, alike.authCalls,
    List.rel_append alike.log (.cons events .nil)⟩

section Steps
variable {world : World} {ctx : AuthCtx}

theorem headerText_same {headers other : HeaderMap} (same : Multimap.Same headers other) :
    headerText headers = headerText other := by
  funext name
  have gets : headers.get = other.get := funext same.get
  rw [headerText, headerText, gets]

theorem processHeaderSubstitution_same {headers other : HeaderMap}
    (same : Multimap.Same headers other) (fuel : Nat) (env : Environment) (uuid : Uuid)
    (template : Str) : processHeaderSubstitution fuel env uuid headers template =
      processHeaderSubstitution fuel env uuid other template := by
  rw [processHeaderSubstitution, processHeaderSubstitution, headerLoop, headerLoop,
    headerText_same same]

/-- A header directive writes the same into requests that are alike. -/
theorem handleHeader_alike {req other : Request} (alike : RequestsAlike req other) (fuel : Nat)
    (env : Environment) (uuid : Uuid) (name : Str) (value : Option Str) :
    (handleHeader fuel env uuid name value req = none ∧
      handleHeader fuel env uuid name value other = none) ∨
    (∃ e, handleHeader fuel env uuid name value req = some (.error e) ∧
      handleHeader fuel env uuid name value other = some (.error e)) ∨
    ∃ req' other', handleHeader fuel env uuid name value req = some (.ok req') ∧
      handleHeader fuel env uuid name value other = some (.ok other') ∧
      RequestsAlike req' other' := by
  obtain ⟨method, uri, headers⟩ := alike
  unfold handleHeader
  cases HeaderName.fromBytes name with
  | none => exact Or.inr (Or.inl ⟨_, rfl, rfl⟩)
  | some headerName =>
      cases value with
      | none => exact Or.inr (Or.inr ⟨_, _, rfl, rfl, method, uri, headers.remove headerName⟩)
      | some template =>
          dsimp only
          rw [processHeaderSubstitution_same headers]
          cases processHeaderSubstitution fuel env uuid other.headers template with
          | none => exact Or.inl ⟨rfl, rfl⟩
          | some outcome =>
              cases outcome with
              | error e => exact Or.inr (Or.inl ⟨e, rfl, rfl⟩)
              | ok processed =>
                  dsimp only
                  cases HeaderValue.fromStr processed with
                  | none => exact Or.inr (Or.inl ⟨_, rfl, rfl⟩)
                  | some v =>
                      exact Or.inr (Or.inr
                        ⟨_, _, rfl, rfl, method, uri, headers.insert headerName v⟩)

theorem stepHeader_alike {position : Position} {name : Str} {value : Option Str}
    {s t s' : Pipeline} (alike : PipelinesAlike s t)
    (step : stepHeader world position name value s = some s') :
    ∃ t', stepHeader world position name value t = some t' ∧ PipelinesAlike s' t' := by
  unfold stepHeader at step ⊢
  rw [← alike.uuidsUsed]
  have log := List.rel_append alike.log (.cons (EventsAlike.header position name value) .nil)
  rcases handleHeader_alike alike.req world.fuel world.env (world.uuids s.uuidsUsed) name value
    with ⟨stuck, _⟩ | ⟨e, failed, failedToo⟩ | ⟨req', other', wrote, wroteToo, written⟩
  · rw [stuck] at step
    cases step
  · rw [failed] at step
    rw [failedToo]
    obtain rfl := Option.some.inj step
    exact ⟨_, rfl, alike.req, rfl, alike.authCalls, log⟩
  · rw [wrote] at step
    rw [wroteToo]
    obtain rfl := Option.some.inj step
    exact ⟨_, rfl, written, rfl, alike.authCalls, log⟩

/-- The subrequest reads single headers by name. -/
theorem buildAuthRequest_alike {req other : Request} (alike : RequestsAlike req other)
    (cfg : ForwardAuthConfig) : buildAuthRequest ctx req cfg = buildAuthRequest ctx other cfg := by
  unfold buildAuthRequest copyHeader
  rw [alike.headers.copyFirst, alike.headers.get, alike.headers.get, alike.method]

/-- What the service answers does not depend on what it was asked. -/
theorem authResult_eq {s t : Pipeline} (calls : s.authCalls = t.authCalls)
    (cfg : ForwardAuthConfig) : authResult world ctx cfg s = authResult world ctx cfg t := by
  rw [authResult, authResult, resolveAuth, resolveAuth, calls]
  rfl

/-- Once the listed headers are removed, it is enough to agree on the others. -/
theorem afterAuth_alike {s t : Pipeline} {cfg : ForwardAuthConfig} (position : Position)
    (method : s.req.method = t.req.method) (uri : s.req.uri = t.req.uri)
    (outside : ∀ name, name ∉ cfg.responseHeaders →
      s.req.headers.getAll name = t.req.headers.getAll name)
    (uuidsUsed : s.uuidsUsed = t.uuidsUsed) (authCalls : s.authCalls = t.authCalls)
    (log : List.Forall₂ EventsAlike s.log t.log) :
    PipelinesAlike (afterAuth world ctx position cfg s) (afterAuth world ctx position cfg t) := by
  have scrubbed : RequestsAlike (scrubIdentityHeaders s.req cfg) (scrubIdentityHeaders t.req cfg) :=
    ⟨method, uri, Multimap.same_removeAll outside⟩
  have result : authResult world ctx cfg s = authResult world ctx cfg t :=
    authResult_eq authCalls cfg
  constructor
  · unfold afterAuth
    rw [result]
    cases authResult world ctx cfg t with
    | allowed identity => exact ⟨method, uri, scrubbed.headers.insertAll identity⟩
    | denied status wwwAuthenticate => exact scrubbed
    | failed reason => exact scrubbed
  · exact uuidsUsed
  · exact congrArg (· + 1) authCalls
  · unfold afterAuth
    rw [result]
    exact List.rel_append log (.cons (.auth position cfg _ scrubbed) .nil)

/-! ## Up to the first subrequest -/

/-- Nothing has happened yet, and the requests agree but for the listed headers. -/
structure Unscrubbed (cfg : ForwardAuthConfig) (s t : Pipeline) : Prop where
  method : s.req.method = t.req.method
  uri : s.req.uri = t.req.uri
  outside : ∀ name, name ∉ cfg.responseHeaders →
    s.req.headers.getAll name = t.req.headers.getAll name
  uuidsUsed : s.uuidsUsed = t.uuidsUsed
  authCalls : s.authCalls = t.authCalls
  log : s.log = [] ∧ t.log = []

/-- The first event, if there is one, is a subrequest for `cfg`. -/
def StartsWith (cfg : ForwardAuthConfig) (log : List Event) : Prop :=
  ∀ first, log.head? = some first → ∃ position before result, first = .auth position cfg before result

theorem StartsWith.of_append {cfg : ForwardAuthConfig} {log more : List Event}
    (starts : StartsWith cfg (log ++ more)) : StartsWith cfg log := by
  intro first isFirst
  apply starts
  cases log with
  | nil => cases isFirst
  | cons event rest => exact isFirst

theorem step_log {s t : Pipeline} (step : Step world ctx s t) : ∃ event, t.log = s.log ++ [event] := by
  cases step with
  | header step => exact ⟨_, (stepHeader_spec step).1⟩
  | auth position cfg s => exact ⟨_, rfl⟩
  | action position s => exact ⟨_, rfl⟩

theorem run_related {cfg : ForwardAuthConfig} {directives : List Directive} {path : Str}
    {s t s' : Pipeline} {result : Except Str ActionResult} (start : Unscrubbed cfg s t)
    (run : processDirectives world ctx directives path s = some (result, s'))
    (starts : StartsWith cfg s'.log) :
    ∃ t', processDirectives world ctx directives path t = some (result, t') ∧
      (PipelinesAlike s' t' ∨ Unscrubbed cfg s' t') := by
  refine @run_simulation world ctx (fun s t => PipelinesAlike s t ∨ Unscrubbed cfg s t)
    (fun s => StartsWith cfg s.log) ?_ ?_ ?_ ?_ ?_ directives [] 0 path path s t result s'
    (Or.inr start) run starts
  · intro s t step good
    obtain ⟨event, log⟩ := step_log step
    rw [log] at good
    exact good.of_append
  · rintro s t (alike | unscrubbed)
    · exact alike.req.method
    · exact unscrubbed.method
  · rintro s t position name value s' (alike | unscrubbed) step good
    · obtain ⟨t', stepToo, alikeToo⟩ := stepHeader_alike alike step
      exact ⟨t', stepToo, Or.inl alikeToo⟩
    · rw [(stepHeader_spec step).1, unscrubbed.log.1] at good
      obtain ⟨_, _, _, other⟩ := good _ rfl
      cases other
  · rintro s t position cfg' (alike | unscrubbed) good
    · obtain ⟨⟨method, uri, headers⟩, uuidsUsed, authCalls, log⟩ := alike
      exact ⟨by rw [authResult_eq authCalls], Or.inl (afterAuth_alike position method uri
        (fun name _ => headers name) uuidsUsed authCalls log)⟩
    · obtain ⟨method, uri, outside, uuidsUsed, authCalls, none_, noneToo⟩ := unscrubbed
      -- the first event belongs to `cfg`
      have isCfg : cfg' = cfg := by
        rw [afterAuth] at good
        dsimp only at good
        rw [none_] at good
        obtain ⟨_, _, _, same⟩ := good _ rfl
        cases same
        rfl
      subst isCfg
      refine ⟨by rw [authResult_eq authCalls], Or.inl (afterAuth_alike position method uri outside
        uuidsUsed authCalls ?_)⟩
      rw [none_, noneToo]
      exact .nil
  · rintro s t position (alike | unscrubbed) good
    · exact Or.inl (alike.record (.action position))
    · rw [Pipeline.record, unscrubbed.log.1] at good
      obtain ⟨_, _, _, other⟩ := good _ rfl
      cases other

end Steps

/-! ## Noninterference -/

/-- A subrequest that was sent, with its directive's configuration. -/
def Event.sent (ctx : AuthCtx) : Event → Option (ForwardAuthConfig × Except Str Request)
  | .auth _ cfg before _ => some (cfg, buildAuthRequest ctx before cfg)
  | _ => none

theorem sent_alike {ctx : AuthCtx} {log other : List Event}
    (alike : List.Forall₂ EventsAlike log other) :
    log.filterMap (Event.sent ctx) = other.filterMap (Event.sent ctx) := by
  induction alike with
  | nil => rfl
  | cons events _ ih =>
      rw [List.filterMap_cons, List.filterMap_cons, ih]
      cases events with
      | header => rfl
      | action => rfl
      | auth position cfg result requests =>
          rw [Event.sent, Event.sent, buildAuthRequest_alike requests]

/-- If the first thing that a run does is a subrequest for `cfg`, the headers which `cfg`
has removed do not matter: whatever their values, the run sends the same subrequests,
returns the same result and leaves the same request. -/
theorem identity_headers_ignored {world : World} {ctx : AuthCtx} {directives : List Directive}
    {path : Str} {cfg : ForwardAuthConfig} {first second : Request}
    (method : first.method = second.method) (uri : first.uri = second.uri)
    (outside : ∀ name, name ∉ cfg.responseHeaders →
      first.headers.getAll name = second.headers.getAll name)
    {result : Except Str ActionResult} {s : Pipeline}
    (run : processDirectives world ctx directives path (.initial first) = some (result, s))
    {position : Position} {before : Request} {answer : AuthResult} {later : List Event}
    (evaluated : s.log = .auth position cfg before answer :: later) :
    ∃ t, processDirectives world ctx directives path (.initial second) = some (result, t) ∧
      s.log.filterMap (Event.sent ctx) = t.log.filterMap (Event.sent ctx) ∧
      RequestsAlike s.req t.req := by
  have start : Unscrubbed cfg (.initial first) (.initial second) :=
    ⟨method, uri, outside, rfl, rfl, rfl, rfl⟩
  have starts : StartsWith cfg s.log := by
    intro event isFirst
    rw [evaluated] at isFirst
    exact ⟨position, before, answer, (Option.some.inj isFirst).symm⟩
  obtain ⟨t, runToo, alike | unscrubbed⟩ := run_related start run starts
  · exact ⟨t, runToo, sent_alike alike.log, alike.req⟩
  · rw [unscrubbed.log.1] at evaluated
    cases evaluated

/-- `identifyingAuth` that also passes `x-user` on to the service. -/
def forwardingAuth : ForwardAuthConfig :=
  { identifyingAuth with requestHeaders := [exampleUserHeader] }

def forwardingSite : List Directive :=
  [.forwardAuth forwardingAuth, .reverseProxy ['b'] none none []]

theorem identity_headers_ignored_spoofed :
    ∃ t, processDirectives quietWorld exampleCtx forwardingSite ['/']
        (.initial spoofingRequest) = some (.ok (.reverseProxy ['b'] ['/'] none none []), t) ∧
      t.req.headers.getAll exampleUserHeader = [] := by
  have outside : ∀ name, name ∉ forwardingAuth.responseHeaders →
      exampleRequest.headers.getAll name = spoofingRequest.headers.getAll name := by
    intro name unlisted
    have other : exampleUserHeader ≠ name := fun same =>
      unlisted (List.mem_singleton.mpr same.symm)
    rw [spoofingRequest, Multimap.getAll_union]
    simp [Multimap.getAll, other]
  have run : ∃ s, processDirectives quietWorld exampleCtx forwardingSite ['/']
      (.initial exampleRequest) = some (.ok (.reverseProxy ['b'] ['/'] none none []), s) ∧
      s.log = [.auth [0] forwardingAuth exampleRequest (.failed .timeout), .action [1]] ∧
      s.req.headers.getAll exampleUserHeader = [] := ⟨_, rfl, rfl, rfl⟩
  obtain ⟨s, ran, log, clean⟩ := run
  have method : exampleRequest.method = spoofingRequest.method := rfl
  have uri : exampleRequest.uri = spoofingRequest.uri := rfl
  obtain ⟨t, ranToo, _, alike⟩ := identity_headers_ignored method uri outside ran log
  exact ⟨t, ranToo, (alike.headers exampleUserHeader).symm.trans clean⟩

end TinyProxy
