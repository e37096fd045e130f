import TinyProxy.Proxy.Authorization

/-!
# The route of a request

A directive tree together with a method and a path is a straight-line program:
blocks are entered or passed and paths rewritten before anything is executed.
Headers, the environment and the answers of authorization endpoints decide only
how far a request gets on its route.
-/

set_option autoImplicit false

namespace TinyProxy

open Rust Http

/-! ## Routes -/

/-- The directives to execute, with their positions. -/
inductive Route where
  | header (position : Position) (name : Str) (value : Option Str) (rest : Route)
  | forwardAuth (position : Position) (cfg : ForwardAuthConfig) (rest : Route)
  | stop (position : Position) (action : ActionResult)
  /-- The block, entered with this path, has no more directives. -/
  | exhausted (currentPath : Str)

/-- `handle_method` reads nothing of the request but its method. -/
def handlesMethod (methods : List Str) (method : Str) : Bool :=
  methods.any fun m => eqIgnoreAsciiCase m method

/-- A directive on a route. -/
inductive Station where
  | header (position : Position) (name : Str) (value : Option Str)
  | forwardAuth (position : Position) (cfg : ForwardAuthConfig)
  | action (position : Position)

def Event.station : Event → Station
  | .header position name value => .header position name value
  | .auth position cfg _ _ => .forwardAuth position cfg
  | .action position => .action position

section Build
variable (method : Str)

mutual

/-- `later` is the route through the rest of the block. -/
def routeDirective (enclosing : Position) (index : Nat) :
    Directive → Str → (later : Str → Route) → Route
  | .header name value, path, later => .header (enclosing ++ [index]) name value (later path)
  | .uriReplace find replacement, path, later => later (handleUriReplace find replacement path)
  | .stripPrefix pattern, path, later => later (handleStripPrefix pattern path)
  | .handlePath pattern directives, path, later =>
      match matchPattern pattern path with
      | some remaining => routeBlock (enclosing ++ [index]) 0 directives remaining remaining
      | none => later path
  | .method methods directives, path, later =>
      if handlesMethod methods method then
        routeBlock (enclosing ++ [index]) 0 directives path path
      else later path
  | .redirect status url, _, _ => .stop (enclosing ++ [index]) (.redirect status url)
  | .respond status body, _, _ => .stop (enclosing ++ [index]) (.respond status body)
  | .reverseProxy to_ connectTimeout readTimeout headerUp, path, _ =>
      .stop (enclosing ++ [index]) (.reverseProxy to_ path connectTimeout readTimeout headerUp)
  | .forwardAuth cfg, path, later => .forwardAuth (enclosing ++ [index]) cfg (later path)

def routeBlock (enclosing : Position) (index : Nat) :
    List Directive → (currentPath modifiedPath : Str) → Route
  | [], currentPath, _ => .exhausted currentPath
  | directive :: rest, currentPath, modifiedPath =>
      routeDirective enclosing index directive modifiedPath fun path =>
        routeBlock enclosing (index + 1) rest currentPath path

end

end Build

def route (method : Str) (directives : List Directive) (path : Str) : Route :=
  routeBlock method [] 0 directives path path

namespace Route

/-- The result of a request that no authorization turns away. -/
def verdict : Route → Except Str ActionResult
  | .header _ _ _ rest => rest.verdict
  | .forwardAuth _ _ rest => rest.verdict
  | .stop _ action => .ok action
  | .exhausted currentPath => .error (noActionMessage currentPath)

/-- The directives on the route. -/
def stations : Route → List Station
  | .header position name value rest => .header position name value :: rest.stations
  | .forwardAuth position cfg rest => .forwardAuth position cfg :: rest.stations
  | .stop position _ => [.action position]
  | .exhausted _ => []

/-- One directive after the other. -/
def execute (world : World) (ctx : AuthCtx) :
    Route → Pipeline → Option (Except Str ActionResult × Pipeline)
  | .header position name value rest, s =>
      (stepHeader world position name value s).bind (rest.execute world ctx)
  | .forwardAuth position cfg rest, s =>
      match denial cfg (authResult world ctx cfg s) with
      | none => rest.execute world ctx (afterAuth world ctx position cfg s)
      | some action => some (.ok action, afterAuth world ctx position cfg s)
  | .stop position action, s => some (.ok action, s.record (.action position))
  | .exhausted currentPath, s => some (.error (noActionMessage currentPath), s)

end Route

/-! ## The method stays -/

section Runs
variable {world : World} {ctx : AuthCtx}

theorem stepHeader_method {position : Position} {name : Str} {value : Option Str}
    {s t : Pipeline} (step : stepHeader world position name value s = some t) :
    t.req.method = s.req.method := by
  unfold stepHeader at step
  cases handled : handleHeader world.fuel world.env (world.uuids s.uuidsUsed) name value s.req with
  | none => simp [handled] at step
  | some result =>
      rw [handled] at step
      obtain rfl := Option.some.inj step
      cases result with
      | error e => rfl
      | ok req =>
          obtain ⟨w, _, rfl⟩ := handleHeader_ok handled
          rfl

theorem afterAuth_method (position : Position) (cfg : ForwardAuthConfig) (s : Pipeline) :
    (afterAuth world ctx position cfg s).req.method = s.req.method := by
  unfold afterAuth AuthResult.applyTo
  cases authResult world ctx cfg s with
  | allowed identity => rfl
  | denied status wwwAuthenticate => rfl
  | failed reason => rfl

/-! ## A tree is its route -/

theorem routeDirective_entered {method : Str} {enclosing : Position} {index : Nat}
    {directive : Directive} {path inner : Str} {req : Request} (same : req.method = method)
    (enters : entered directive path req = some inner) (later : Str → Route) :
    routeDirective method enclosing index directive path later =
      routeBlock method (enclosing ++ [index]) 0 directive.block inner inner := by
  rcases entered_cases enters with ⟨pattern, nested, rfl, matched⟩ |
    ⟨methods, nested, rfl, allowed, rfl⟩
  · rw [routeDirective, matched]
    rfl
  · have handled : handlesMethod methods method = true := same ▸ allowed
    rw [routeDirective, if_pos handled]
    rfl

/-- A directive that is passed goes on with the rest of the route. -/
theorem routeDirective_silent {method : Str} {enclosing : Position} {index : Nat}
    {directive : Directive} {path next : Str} {s : Pipeline} (same : s.req.method = method)
    (isSilent : directive.isSilent = true) (outside : entered directive path s.req = none)
    (step : stepDirective world ctx enclosing index directive path s = some (.next next s))
    (later : Str → Route) :
    routeDirective method enclosing index directive path later = later next := by
  cases directive with
  | uriReplace find replacement =>
      obtain ⟨rfl, _⟩ := Flow.next.inj (Option.some.inj step)
      rw [routeDirective]
  | stripPrefix pattern =>
      obtain ⟨rfl, _⟩ := Flow.next.inj (Option.some.inj step)
      rw [routeDirective]
  | handlePath pattern nested =>
      rw [step_of_passed (Or.inl ⟨pattern, nested, rfl⟩) outside] at step
      obtain ⟨rfl, _⟩ := Flow.next.inj (Option.some.inj step)
      have unmatched : matchPattern pattern path = none := outside
      rw [routeDirective, unmatched]
  | method methods nested =>
      rw [step_of_passed (Or.inr ⟨methods, nested, rfl⟩) outside] at step
      obtain ⟨rfl, _⟩ := Flow.next.inj (Option.some.inj step)
      rw [entered] at outside
      split at outside
      next => cases outside
      next refused =>
        have unhandled : ¬ handlesMethod methods method = true := same ▸ refused
        rw [routeDirective, if_neg unhandled]
  | header => cases isSilent
  | redirect => cases isSilent
  | respond => cases isSilent
  | reverseProxy => cases isSilent
  | forwardAuth => cases isSilent

/-- The loop over a tree executes the route of the request. -/
theorem run_route {method : Str} :
    ∀ (directives : List Directive) (enclosing : Position) (index : Nat)
      (currentPath path : Str) (s : Pipeline), s.req.method = method →
      runDirectives world ctx enclosing index directives currentPath path s =
        (routeBlock method enclosing index directives currentPath path).execute world ctx s
  | [], enclosing, index, currentPath, path, s, _ => by
      rw [runDirectives, routeBlock, Route.execute]
  | directive :: rest, enclosing, index, currentPath, path, s, same => by
      have later := @run_route method rest enclosing (index + 1) currentPath
      have inside := fun inner =>
        @run_route method directive.block (enclosing ++ [index]) 0 inner inner
      rw [routeBlock]
      cases enters : entered directive path s.req with
      | some inner =>
          rw [run_of_entered enters, routeDirective_entered same enters]
          exact inside inner s same
      | none =>
      by_cases isSilent : directive.isSilent = true
      · obtain ⟨next, moves⟩ := @run_of_silent world ctx enclosing index directive path isSilent
        have step := moves s enters
        rw [run_of_next step, routeDirective_silent same isSilent enters step]
        exact later next s same
      cases directive with
      | header name value =>
          rw [routeDirective, Route.execute]
          cases moved : stepHeader world (enclosing ++ [index]) name value s with
          | none =>
              rw [runDirectives, stepDirective, moved]
              rfl
          | some t =>
              rw [run_of_next (step_of_header moved), Option.bind_some]
              exact later path t ((stepHeader_method moved).trans same)
      | forwardAuth cfg =>
          rw [routeDirective, Route.execute]
          cases verdict : denial cfg (authResult world ctx cfg s) with
          | none =>
              rw [run_of_next (step_of_authorized verdict)]
              exact later path _ ((afterAuth_method _ _ s).trans same)
          | some action => rw [run_of_done (step_of_denied verdict)]
      | redirect status url =>
          rw [runDirectives, stepDirective, routeDirective, Route.execute]
      | respond status body =>
          rw [runDirectives, stepDirective, routeDirective, Route.execute]
      | reverseProxy to_ connectTimeout readTimeout headerUp =>
          rw [runDirectives, stepDirective, routeDirective, Route.execute]
      | uriReplace => exact absurd rfl isSilent
      | stripPrefix => exact absurd rfl isSilent
      | handlePath => exact absurd rfl isSilent
      | method => exact absurd rfl isSilent
termination_by directives => sizeOf directives
decreasing_by
  all_goals
    have smaller := directive.sizeOf_block
    simp only [List.cons.sizeOf_spec]
    omega

/-! ## How far a request gets -/

/-- The authorization turned the request away. -/
def Denied (result : Except Str ActionResult) : Prop :=
  ∃ status wwwAuthenticate, result = .ok (.authDenied status wwwAuthenticate)

/-- What is executed is the start of the route; only a denial stops a request before its
end. -/
theorem execute_follows {result : Except Str ActionResult} {s' : Pipeline} :
    ∀ {route : Route} {s : Pipeline}, route.execute world ctx s = some (result, s') →
      ∃ executed, s'.log = s.log ++ executed ∧
        executed.map Event.station <+: route.stations ∧
        (Denied result ∨
          result = route.verdict ∧ executed.map Event.station = route.stations) := by
  intro route
  induction route with
  | header position name value rest ih =>
      intro s run
      obtain ⟨t, moved, later⟩ := Option.bind_eq_some_iff.mp run
      obtain ⟨executed, log, start, ends⟩ := ih later
      rw [(stepHeader_spec moved).1, List.append_assoc] at log
      refine ⟨_, log, List.cons_prefix_cons.mpr ⟨rfl, start⟩, ?_⟩
      exact ends.imp_right fun ⟨same, all⟩ => ⟨same, congrArg (_ :: ·) all⟩
  | forwardAuth position cfg rest ih =>
      intro s run
      rw [Route.execute] at run
      cases verdict : denial cfg (authResult world ctx cfg s) with
      | none =>
          rw [verdict] at run
          obtain ⟨executed, log, start, ends⟩ := ih run
          rw [afterAuth, List.append_assoc] at log
          refine ⟨_, log, List.cons_prefix_cons.mpr ⟨rfl, start⟩, ?_⟩
          exact ends.imp_right fun ⟨same, all⟩ => ⟨same, congrArg (_ :: ·) all⟩
      | some action =>
          rw [verdict] at run
          cases run
          obtain ⟨status, wwwAuthenticate, rfl⟩ := denial_authDenied verdict
          exact ⟨_, rfl, List.cons_prefix_cons.mpr ⟨rfl, List.nil_prefix⟩,
            Or.inl ⟨status, wwwAuthenticate, rfl⟩⟩
  | stop position action =>
      intro s run
      cases run
      exact ⟨[.action position], rfl, List.prefix_refl _, Or.inr ⟨rfl, rfl⟩⟩
  | exhausted currentPath =>
      intro s run
      cases run
      exact ⟨[], (List.append_nil _).symm, List.prefix_refl _, Or.inr ⟨rfl, rfl⟩⟩

/-- The whole of directive processing is the route of method and path, executed one
directive after the other. -/
theorem processDirectives_route (world : World) (ctx : AuthCtx) (directives : List Directive)
    (path : Str) (s : Pipeline) :
    processDirectives world ctx directives path s =
      (route s.req.method directives path).execute world ctx s :=
  run_route directives [] 0 path path s rfl

/-- Two requests with the same method and path that no authorization turns away execute the
same directives and end with the same action, whatever their headers, the environment and
the answers of the authorization endpoints are. -/
theorem same_route {other : World} {otherCtx : AuthCtx} {directives : List Directive}
    {path : Str} {first second : Request} (sameMethod : first.method = second.method)
    {result result' : Except Str ActionResult} {s s' : Pipeline}
    (run : processDirectives world ctx directives path (.initial first) = some (result, s))
    (run' : processDirectives other otherCtx directives path (.initial second) =
      some (result', s'))
    (passed : ¬ Denied result) (passed' : ¬ Denied result') :
    result = result' ∧ s.log.map Event.station = s'.log.map Event.station := by
  rw [processDirectives_route] at run run'
  obtain ⟨executed, log, _, ends⟩ := execute_follows run
  obtain ⟨executed', log', _, ends'⟩ := execute_follows run'
  obtain ⟨verdict, all⟩ := ends.resolve_left passed
  obtain ⟨verdict', all'⟩ := ends'.resolve_left passed'
  have sameRoute : (Pipeline.initial first).req.method = (Pipeline.initial second).req.method :=
    sameMethod
  rw [sameRoute] at verdict all
  refine ⟨verdict.trans verdict'.symm, ?_⟩
  rw [log, log']
  exact all.trans all'.symm

end Runs

/-! ## Two clients on one route -/

/-- A header and an authorization in front of the answer to a `GET`. -/
def routedTree : List Directive :=
  [.method ["GET".toList] [.header "Cookie".toList none, .forwardAuth (plainAuth .open),
    .respond 200 "ok".toList], .respond 405 []]

def anonymousRequest : Request := { exampleRequest with headers := .empty }

theorem same_route_anonymous : ∃ s s',
    processDirectives quietWorld exampleCtx routedTree ['/'] (.initial exampleRequest) =
        some (.ok (.respond 200 "ok".toList), s) ∧
      processDirectives quietWorld exampleCtx routedTree ['/'] (.initial anonymousRequest) =
        some (.ok (.respond 200 "ok".toList), s') ∧
      s.log.map Event.station = s'.log.map Event.station := by
  have first : ∃ s, processDirectives quietWorld exampleCtx routedTree ['/']
      (.initial exampleRequest) = some (.ok (.respond 200 "ok".toList), s) := ⟨_, rfl⟩
  have second : ∃ s, processDirectives quietWorld exampleCtx routedTree ['/']
      (.initial anonymousRequest) = some (.ok (.respond 200 "ok".toList), s) := ⟨_, rfl⟩
  obtain ⟨s, run⟩ := first
  obtain ⟨s', run'⟩ := second
  have allowed : ¬ Denied (.ok (.respond 200 "ok".toList)) := by
    intro denied
    obtain ⟨_, _, same⟩ := denied
    cases same
  have sameMethod : exampleRequest.method = anonymousRequest.method := rfl
  exact ⟨s, s', run, run', (same_route sameMethod run run' allowed allowed).2⟩

end TinyProxy
