import TinyProxy.Proxy.Handler

/-!
# Runs of the directive pipeline

What one step can do is said once, in `Step`; `run_induction` is the induction
rule for a whole run over a directive tree, with one case for each way the loop
goes on or returns.  Later modules never unfold the loop.
-/

set_option autoImplicit false

namespace TinyProxy

open Rust Http

/-- The directive ends processing with this action. -/
inductive Terminal : Directive → ActionResult → Prop where
  | redirect (status : UInt16) (url : Str) :
      Terminal (.redirect status url) (.redirect status url)
  | respond (status : UInt16) (body : Str) :
      Terminal (.respond status body) (.respond status body)
  | reverseProxy (to_ path : Str) (connectTimeout readTimeout : Option UInt64)
      (headerUp : List HeaderDirective) :
      Terminal (.reverseProxy to_ connectTimeout readTimeout headerUp)
        (.reverseProxy to_ path connectTimeout readTimeout headerUp)

/-- The directive touches neither the request nor the log when it is passed over:
a path rewrite, or a block that is not entered. -/
def Directive.isSilent : Directive → Bool
  | .uriReplace _ _ => true
  | .stripPrefix _ => true
  | .handlePath _ _ => true
  | .method _ _ => true
  | _ => false

section Runs
variable {world : World} {ctx : AuthCtx}

theorem run_cons {enclosing : Position} {index : Nat} {directive : Directive}
    {rest : List Directive} {currentPath path : Str} {s s' : Pipeline}
    {result : Except Str ActionResult}
    (run : runDirectives world ctx enclosing index (directive :: rest) currentPath path s =
      some (result, s')) :
    (∃ next t, stepDirective world ctx enclosing index directive path s = some (.next next t) ∧
      runDirectives world ctx enclosing (index + 1) rest currentPath next t =
        some (result, s')) ∨
    stepDirective world ctx enclosing index directive path s = some (.done result s') := by
  rw [runDirectives] at run
  cases step : stepDirective world ctx enclosing index directive path s with
  | none => simp [step] at run
  | some flow =>
      cases flow with
      | next next t =>
          rw [step] at run
          exact Or.inl ⟨next, t, rfl, run⟩
      | done r t =>
          simp only [step, Option.some.injEq, Prod.mk.injEq] at run
          rw [run.1, run.2]
          exact Or.inr rfl

/-! ## What the loop does next -/

theorem run_of_next {enclosing : Position} {index : Nat} {directive : Directive}
    {rest : List Directive} {currentPath path next : Str} {s t : Pipeline}
    (step : stepDirective world ctx enclosing index directive path s = some (.next next t)) :
    runDirectives world ctx enclosing index (directive :: rest) currentPath path s =
      runDirectives world ctx enclosing (index + 1) rest currentPath next t := by
  rw [runDirectives, step]

theorem run_of_done {enclosing : Position} {index : Nat} {directive : Directive}
    {rest : List Directive} {currentPath path : Str} {s t : Pipeline}
    {result : Except Str ActionResult}
    (step : stepDirective world ctx enclosing index directive path s = some (.done result t)) :
    runDirectives world ctx enclosing index (directive :: rest) currentPath path s =
      some (result, t) := by
  rw [runDirectives, step]

/-- The block that a directive enters, if it does, with the path inside. -/
def entered (directive : Directive) (path : Str) (req : Request) : Option Str :=
  match directive with
  | .handlePath pattern _ => matchPattern pattern path
  | .method methods _ => if handleMethod methods req then some path else none
  | _ => none

/-- A block is entered with the rest of a matched path, or, for a listed method, with
the same path. -/
theorem entered_cases {directive : Directive} {path inner : Str} {req : Request}
    (enters : entered directive path req = some inner) :
    (∃ pattern nested, directive = .handlePath pattern nested ∧
      matchPattern pattern path = some inner) ∨
    ∃ methods nested, directive = .method methods nested ∧
      handleMethod methods req = true ∧ inner = path := by
  cases directive with
  | handlePath pattern nested => exact Or.inl ⟨pattern, nested, rfl, enters⟩
  | method methods nested =>
      rw [entered] at enters
      split at enters
      next allowed =>
        exact Or.inr ⟨methods, nested, rfl, allowed, (Option.some.inj enters).symm⟩
      next => cases enters
  | header => cases enters
  | uriReplace => cases enters
  | stripPrefix => cases enters
  | redirect => cases enters
  | respond => cases enters
  | reverseProxy => cases enters
  | forwardAuth => cases enters

theorem step_of_entered {enclosing : Position} {index : Nat} {directive : Directive}
    {path inner : Str} {s : Pipeline} (enters : entered directive path s.req = some inner) :
    stepDirective world ctx enclosing index directive path s =
      (runDirectives world ctx (enclosing ++ [index]) 0 directive.block inner inner s).map
        fun outcome => .done outcome.1 outcome.2 := by
  rcases entered_cases enters with ⟨pattern, nested, rfl, matched⟩ |
    ⟨methods, nested, rfl, allowed, rfl⟩
  · rw [stepDirective, matched]
    rfl
  · rw [stepDirective, if_pos allowed]
    rfl

theorem run_of_entered {enclosing : Position} {index : Nat} {directive : Directive}
    {rest : List Directive} {currentPath path inner : Str} {s : Pipeline}
    (enters : entered directive path s.req = some inner) :
    runDirectives world ctx enclosing index (directive :: rest) currentPath path s =
      runDirectives world ctx (enclosing ++ [index]) 0 directive.block inner inner s := by
  rw [runDirectives, step_of_entered enters]
  cases runDirectives world ctx (enclosing ++ [index]) 0 directive.block inner inner s with
  | none => rfl
  | some outcome => rfl

theorem step_of_passed {enclosing : Position} {index : Nat} {directive : Directive} {path : Str}
    {s : Pipeline}
    (isBlock : (∃ pattern nested, directive = .handlePath pattern nested) ∨
      ∃ methods nested, directive = .method methods nested)
    (outside : entered directive path s.req = none) :
    stepDirective world ctx enclosing index directive path s = some (.next path s) := by
  rcases isBlock with ⟨pattern, nested, rfl⟩ | ⟨methods, nested, rfl⟩
  · have matched : matchPattern pattern path = none := outside
    rw [stepDirective, matched]
  · rw [entered] at outside
    split at outside
    next => cases outside
    next refused => rw [stepDirective, if_neg refused]

/-- A silent directive that enters no block moves on, with a path that depends on the
path alone. -/
theorem run_of_silent {enclosing : Position} {index : Nat} {directive : Directive} {path : Str}
    (isSilent : directive.isSilent = true) : ∃ next, ∀ s : Pipeline,
      entered directive path s.req = none →
      stepDirective world ctx enclosing index directive path s = some (.next next s) := by
  cases directive with
  | uriReplace find replacement => exact ⟨_, fun s _ => rfl⟩
  | stripPrefix pattern => exact ⟨_, fun s _ => rfl⟩
  | handlePath pattern nested =>
      exact ⟨path, fun s outside => step_of_passed (Or.inl ⟨pattern, nested, rfl⟩) outside⟩
  | method methods nested =>
      exact ⟨path, fun s outside => step_of_passed (Or.inr ⟨methods, nested, rfl⟩) outside⟩
  | header => cases isSilent
  | redirect => cases isSilent
  | respond => cases isSilent
  | reverseProxy => cases isSilent
  | forwardAuth => cases isSilent

/-- A directive is silent, sets a header, asks for authorization, or ends the request. -/
theorem directive_kinds (directive : Directive) (path : Str) :
    directive.isSilent = true ∨ (∃ name value, directive = .header name value) ∨
    (∃ cfg, directive = .forwardAuth cfg) ∨
    ∃ action, Terminal directive action ∧ ∀ (enclosing : Position) (index : Nat) (s : Pipeline),
      stepDirective world ctx enclosing index directive path s =
        some (.done (.ok action) (s.record (.action (enclosing ++ [index])))) := by
  cases directive with
  | uriReplace => exact Or.inl rfl
  | stripPrefix => exact Or.inl rfl
  | handlePath => exact Or.inl rfl
  | method => exact Or.inl rfl
  | header name value => exact Or.inr (Or.inl ⟨name, value, rfl⟩)
  | forwardAuth cfg => exact Or.inr (Or.inr (Or.inl ⟨cfg, rfl⟩))
  | redirect status url =>
      exact Or.inr (Or.inr (Or.inr ⟨_, .redirect status url, fun _ _ _ => rfl⟩))
  | respond status body =>
      exact Or.inr (Or.inr (Or.inr ⟨_, .respond status body, fun _ _ _ => rfl⟩))
  | reverseProxy to_ connectTimeout readTimeout headerUp =>
      exact Or.inr (Or.inr (Or.inr
        ⟨_, .reverseProxy to_ path connectTimeout readTimeout headerUp, fun _ _ _ => rfl⟩))

/-! ## The rule for runs -/

/-- Induction over a run: over the directives of a block, and into the block
that is entered. -/
theorem run_induction
    {motive : Position → Nat → List Directive → Pipeline → Except Str ActionResult →
      Pipeline → Prop}
    (none_left : ∀ enclosing index currentPath s,
      motive enclosing index [] s (.error (noActionMessage currentPath)) s)
    (silent : ∀ enclosing index directive rest s result s', directive.isSilent = true →
      motive enclosing (index + 1) rest s result s' →
        motive enclosing index (directive :: rest) s result s')
    (header : ∀ enclosing index name value rest s t result s',
      stepHeader world (enclosing ++ [index]) name value s = some t →
      motive enclosing (index + 1) rest t result s' →
        motive enclosing index (.header name value :: rest) s result s')
    (authorized : ∀ enclosing index cfg path next rest s t result s',
      stepForwardAuth world ctx (enclosing ++ [index]) cfg path s = .next next t →
      motive enclosing (index + 1) rest t result s' →
        motive enclosing index (.forwardAuth cfg :: rest) s result s')
    (rejected : ∀ enclosing index cfg path rest s result s',
      stepForwardAuth world ctx (enclosing ++ [index]) cfg path s = .done result s' →
        motive enclosing index (.forwardAuth cfg :: rest) s result s')
    (terminal : ∀ enclosing index directive rest s action, Terminal directive action →
      motive enclosing index (directive :: rest) s (.ok action)
        (s.record (.action (enclosing ++ [index]))))
    (entered : ∀ enclosing index directive rest s result s',
      motive (enclosing ++ [index]) 0 directive.block s result s' →
        motive enclosing index (directive :: rest) s result s') :
    ∀ (directives : List Directive) (enclosing : Position) (index : Nat)
      (currentPath path : Str) (s : Pipeline) (result : Except Str ActionResult) (s' : Pipeline),
      runDirectives world ctx enclosing index directives currentPath path s = some (result, s') →
        motive enclosing index directives s result s'
  | [], enclosing, index, currentPath, path, s, result, s', run => by
      rw [runDirectives, Option.some.injEq, Prod.mk.injEq] at run
      rw [← run.1, ← run.2]
      exact none_left enclosing index currentPath s
  | directive :: rest, enclosing, index, currentPath, path, s, result, s', run => by
      have later := run_induction none_left silent header authorized rejected terminal entered
        rest enclosing (index + 1) currentPath
      have inside := fun inner => run_induction none_left silent header authorized rejected
        terminal entered directive.block (enclosing ++ [index]) 0 inner inner s result s'
      cases enters : TinyProxy.entered directive path s.req with
      | some inner =>
          rw [run_of_entered enters] at run
          exact entered _ _ _ _ _ _ _ (inside inner run)
      | none =>
      rcases @directive_kinds world ctx directive path with
        isSilent | ⟨name, value, rfl⟩ | ⟨cfg, rfl⟩ | ⟨action, isTerminal, step⟩
      · obtain ⟨next, moves⟩ := @run_of_silent world ctx enclosing index directive path isSilent
        rw [run_of_next (moves s enters)] at run
        exact silent _ _ _ _ _ _ _ isSilent (later next s result s' run)
      · rcases run_cons run with ⟨next, t, step, restRun⟩ | step
        · obtain ⟨_, moved, same⟩ := Option.map_eq_some_iff.mp step
          obtain ⟨rfl, rfl⟩ := Flow.next.inj same
          exact header _ _ _ _ _ _ _ _ _ moved (later _ _ _ _ restRun)
        · obtain ⟨_, _, same⟩ := Option.map_eq_some_iff.mp step
          cases same
      · rcases run_cons run with ⟨next, t, step, restRun⟩ | step
        · exact authorized _ _ _ _ _ _ _ _ _ _ (Option.some.inj step) (later _ _ _ _ restRun)
        · exact rejected _ _ _ _ _ _ _ _ (Option.some.inj step)
      · rw [run_of_done (step enclosing index s), Option.some.injEq, Prod.mk.injEq] at run
        obtain ⟨rfl, rfl⟩ := run
        exact terminal _ _ _ _ _ _ isTerminal
termination_by directives => sizeOf directives
decreasing_by
  all_goals
    have smaller := directive.sizeOf_block
    simp only [List.cons.sizeOf_spec]
    omega

/-! ## What one step does -/

/-- The action with which an authorization result ends the request, if it does. -/
def denial (cfg : ForwardAuthConfig) : AuthResult → Option ActionResult
  | .allowed _ => none
  | .denied status wwwAuthenticate => some (.authDenied status.asU16 wwwAuthenticate)
  | .failed _ =>
      match cfg.failureMode with
      | .closed => some (.authDenied 503 none)
      | .open => none

theorem denial_eq_none_iff {cfg : ForwardAuthConfig} {result : AuthResult} :
    denial cfg result = none ↔
      (∃ identity, result = .allowed identity) ∨
        ∃ reason, result = .failed reason ∧ cfg.failureMode = .open := by
  cases result with
  | allowed identity => simp [denial]
  | denied status wwwAuthenticate => simp [denial]
  | failed reason => cases mode : cfg.failureMode <;> simp [denial, mode]

theorem denial_authDenied {cfg : ForwardAuthConfig} {answer : AuthResult} {action : ActionResult}
    (verdict : denial cfg answer = some action) :
    ∃ status wwwAuthenticate, action = .authDenied status wwwAuthenticate := by
  cases answer with
  | allowed identity => cases verdict
  | denied status wwwAuthenticate => exact ⟨_, _, (Option.some.inj verdict).symm⟩
  | failed reason =>
      cases mode : cfg.failureMode with
      | closed =>
          simp only [denial, mode] at verdict
          exact ⟨_, _, (Option.some.inj verdict).symm⟩
      | «open» =>
          simp only [denial, mode] at verdict
          cases verdict

def authResult (world : World) (ctx : AuthCtx) (cfg : ForwardAuthConfig) (s : Pipeline) :
    AuthResult :=
  resolveAuth ctx (scrubIdentityHeaders s.req cfg) cfg (world.authExchanges s.authCalls)

/-- The request once an authorization result has been dealt with. -/
def AuthResult.applyTo (scrubbed : Request) : AuthResult → Request
  | .allowed identity => applyIdentityHeaders scrubbed identity
  | _ => scrubbed

def afterAuth (world : World) (ctx : AuthCtx) (position : Position) (cfg : ForwardAuthConfig)
    (s : Pipeline) : Pipeline where
  req := (authResult world ctx cfg s).applyTo (scrubIdentityHeaders s.req cfg)
  uuidsUsed := s.uuidsUsed
  authCalls := s.authCalls + 1
  log := s.log ++
    [.auth position cfg (scrubIdentityHeaders s.req cfg) (authResult world ctx cfg s)]

theorem stepForwardAuth_eq (position : Position) (cfg : ForwardAuthConfig) (path : Str)
    (s : Pipeline) :
    stepForwardAuth world ctx position cfg path s =
      match denial cfg (authResult world ctx cfg s) with
      | none => .next path (afterAuth world ctx position cfg s)
      | some action => .done (.ok action) (afterAuth world ctx position cfg s) := by
  unfold stepForwardAuth afterAuth authResult
  dsimp only
  cases result : resolveAuth ctx (scrubIdentityHeaders s.req cfg) cfg
      (world.authExchanges s.authCalls) with
  | allowed identity => rfl
  | denied status wwwAuthenticate => rfl
  | failed reason => cases mode : cfg.failureMode <;> simp only [denial, mode] <;> rfl

theorem stepForwardAuth_next {position : Position} {cfg : ForwardAuthConfig} {path next : Str}
    {s t : Pipeline} (step : stepForwardAuth world ctx position cfg path s = .next next t) :
    denial cfg (authResult world ctx cfg s) = none ∧ t = afterAuth world ctx position cfg s := by
  rw [stepForwardAuth_eq] at step
  cases verdict : denial cfg (authResult world ctx cfg s) with
  | none =>
      rw [verdict] at step
      exact ⟨rfl, (Flow.next.inj step).2.symm⟩
  | some action =>
      rw [verdict] at step
      cases step

theorem stepForwardAuth_done {position : Position} {cfg : ForwardAuthConfig} {path : Str}
    {s t : Pipeline} {result : Except Str ActionResult}
    (step : stepForwardAuth world ctx position cfg path s = .done result t) :
    ∃ action, denial cfg (authResult world ctx cfg s) = some action ∧ result = .ok action ∧
      t = afterAuth world ctx position cfg s := by
  rw [stepForwardAuth_eq] at step
  cases verdict : denial cfg (authResult world ctx cfg s) with
  | none =>
      rw [verdict] at step
      cases step
  | some action =>
      rw [verdict] at step
      obtain ⟨rfl, rfl⟩ := Flow.done.inj step
      exact ⟨action, rfl, rfl, rfl⟩

theorem step_of_header {enclosing : Position} {index : Nat} {name path : Str}
    {value : Option Str} {s t : Pipeline}
    (moved : stepHeader world (enclosing ++ [index]) name value s = some t) :
    stepDirective world ctx enclosing index (.header name value) path s =
      some (.next path t) := by
  rw [stepDirective, moved]
  rfl

theorem step_of_authorized {enclosing : Position} {index : Nat} {cfg : ForwardAuthConfig}
    {path : Str} {s : Pipeline} (passed : denial cfg (authResult world ctx cfg s) = none) :
    stepDirective world ctx enclosing index (.forwardAuth cfg) path s =
      some (.next path (afterAuth world ctx (enclosing ++ [index]) cfg s)) := by
  rw [stepDirective, stepForwardAuth_eq, passed]

theorem step_of_denied {enclosing : Position} {index : Nat} {cfg : ForwardAuthConfig}
    {path : Str} {s : Pipeline} {denied : ActionResult}
    (refused : denial cfg (authResult world ctx cfg s) = some denied) :
    stepDirective world ctx enclosing index (.forwardAuth cfg) path s =
      some (.done (.ok denied) (afterAuth world ctx (enclosing ++ [index]) cfg s)) := by
  rw [stepDirective, stepForwardAuth_eq, refused]

/-- A header directive touches only the header it names. -/
theorem stepHeader_spec {position : Position} {name : Str} {value : Option Str} {s t : Pipeline}
    (step : stepHeader world position name value s = some t) :
    t.log = s.log ++ [.header position name value] ∧ t.authCalls = s.authCalls ∧
      ∀ n, HeaderName.fromBytes name ≠ some n →
        Multimap.getAll t.req.headers n = Multimap.getAll s.req.headers n := by
  unfold stepHeader at step
  cases handled : handleHeader world.fuel world.env (world.uuids s.uuidsUsed) name value s.req with
  | none => simp [handled] at step
  | some result =>
      rw [handled] at step
      obtain rfl := Option.some.inj step
      refine ⟨rfl, rfl, ?_⟩
      intro n other
      cases result with
      | error e => rfl
      | ok req =>
          obtain ⟨w, named, rfl⟩ := handleHeader_ok handled
          have apart : w.key ≠ n := fun same => other (same ▸ named)
          change Multimap.getAll (Multimap.write s.req.headers w) n = _
          rw [Multimap.getAll_write, if_neg apart]

/-! ## Runs as sequences of steps -/

inductive Step (world : World) (ctx : AuthCtx) : Pipeline → Pipeline → Prop where
  | header {position : Position} {name : Str} {value : Option Str} {s t : Pipeline}
      (step : stepHeader world position name value s = some t) : Step world ctx s t
  | auth (position : Position) (cfg : ForwardAuthConfig) (s : Pipeline) :
      Step world ctx s (afterAuth world ctx position cfg s)
  | action (position : Position) (s : Pipeline) :
      Step world ctx s (s.record (.action position))

theorem run_steps {directives : List Directive} {enclosing : Position} {index : Nat}
    {currentPath path : Str} {s s' : Pipeline} {result : Except Str ActionResult}
    (run : runDirectives world ctx enclosing index directives currentPath path s =
      some (result, s')) : Relation.ReflTransGen (Step world ctx) s s' := by
  revert run
  apply run_induction (motive := fun _ _ _ s _ s' => Relation.ReflTransGen (Step world ctx) s s')
  · intro _ _ _ s
    exact .refl
  · intro _ _ _ _ _ _ _ _ later
    exact later
  · intro _ _ _ _ _ _ _ _ _ step later
    exact .head (.header step) later
  · intro _ _ cfg _ _ _ s _ _ _ step later
    rw [(stepForwardAuth_next step).2] at later
    exact .head (.auth _ cfg s) later
  · intro _ _ cfg _ _ s _ _ step
    obtain ⟨_, _, _, rfl⟩ := stepForwardAuth_done step
    exact .single (.auth _ cfg s)
  · intro _ _ _ _ s _ _
    exact .single (.action _ s)
  · intro _ _ _ _ _ _ _ later
    exact later

/-- An invariant of single steps is an invariant of runs. -/
theorem run_invariant {Inv : Pipeline → Prop}
    (preserved : ∀ s t, Step world ctx s t → Inv s → Inv t)
    {directives : List Directive} {enclosing : Position} {index : Nat}
    {currentPath path : Str} {s s' : Pipeline} {result : Except Str ActionResult}
    (run : runDirectives world ctx enclosing index directives currentPath path s =
      some (result, s')) (start : Inv s) : Inv s' := by
  have steps := run_steps run
  clear run
  induction steps with
  | refl => exact start
  | tail _ step ih => exact preserved _ _ step ih

/-- What a step only keeps backwards, a run does too. -/
theorem run_back {Good : Pipeline → Prop} (back : ∀ s t, Step world ctx s t → Good t → Good s)
    {directives : List Directive} {enclosing : Position} {index : Nat}
    {currentPath path : Str} {s s' : Pipeline} {result : Except Str ActionResult}
    (run : runDirectives world ctx enclosing index directives currentPath path s =
      some (result, s')) (final : Good s') : Good s := by
  have steps := run_steps run
  clear run
  induction steps using Relation.ReflTransGen.head_induction_on with
  | refl => exact final
  | head step _ ih => exact back _ _ step ih

/-! ## The log -/

def authCount (log : List Event) : Nat :=
  log.countP fun event =>
    match event with
    | .auth _ _ _ _ => true
    | _ => false

/-- Every subrequest on record was answered by the next exchange of the world. -/
def LogMatches (world : World) (ctx : AuthCtx) (s : Pipeline) : Prop :=
  s.authCalls = authCount s.log ∧
    ∀ before position cfg req result after,
      s.log = before ++ .auth position cfg req result :: after →
        result = resolveAuth ctx req cfg (world.authExchanges (authCount before))

/-- Cutting a log that has grown by one event. -/
theorem snoc_split {log before after : List Event} {last event : Event}
    (split : log ++ [last] = before ++ event :: after) :
    (after = [] ∧ before = log ∧ event = last) ∨
      ∃ kept, after = kept ++ [last] ∧ log = before ++ event :: kept := by
  rcases List.eq_nil_or_concat after with rfl | ⟨kept, final, rfl⟩
  · obtain ⟨rfl, same⟩ := List.append_inj' split rfl
    exact Or.inl ⟨rfl, rfl, (List.cons.inj same).1.symm⟩
  · have shape : log ++ [last] = (before ++ event :: kept) ++ [final] := by
      rw [split]
      simp
    obtain ⟨rfl, same⟩ := List.append_inj' shape rfl
    exact Or.inr ⟨kept, by rw [List.concat_eq_append, (List.cons.inj same).1], rfl⟩

theorem logMatches_step {s t : Pipeline} (step : Step world ctx s t)
    (matched : LogMatches world ctx s) : LogMatches world ctx t := by
  obtain ⟨calls, answered⟩ := matched
  cases step with
  | header step =>
      obtain ⟨log, sameCalls, _⟩ := stepHeader_spec step
      refine ⟨by rw [sameCalls, log, calls]; simp [authCount], ?_⟩
      intro before position cfg req result after split
      rw [log] at split
      rcases snoc_split split with ⟨_, _, same⟩ | ⟨kept, _, earlier⟩
      · cases same
      · exact answered _ _ _ _ _ _ earlier
  | auth position cfg s =>
      refine ⟨by simp [afterAuth, calls, authCount], ?_⟩
      intro before position' cfg' req result after split
      rcases snoc_split split with ⟨_, rfl, same⟩ | ⟨kept, _, earlier⟩
      · cases same
        rw [← calls]
        rfl
      · exact answered _ _ _ _ _ _ earlier
  | action position s =>
      refine ⟨by simp [Pipeline.record, calls, authCount], ?_⟩
      intro before position' cfg req result after split
      rcases snoc_split split with ⟨_, _, same⟩ | ⟨kept, _, earlier⟩
      · cases same
      · exact answered _ _ _ _ _ _ earlier

theorem processDirectives_log {directives : List Directive} {path : Str} {req : Request}
    {result : Except Str ActionResult} {s : Pipeline}
    (run : processDirectives world ctx directives path (.initial req) = some (result, s)) :
    LogMatches world ctx s := by
  refine run_invariant (fun _ _ step => logMatches_step step) run ⟨rfl, ?_⟩
  intro before position cfg req result after split
  cases before <;> cases split

end Runs

end TinyProxy
