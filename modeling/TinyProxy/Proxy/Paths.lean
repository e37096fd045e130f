import TinyProxy.Proxy.Authorization

/-!
# Paths of nested blocks

A wildcard pattern is compared character by character, not segment by segment.
`Visits` says which directives the loop meets, with which path; paths stay
absolute as long as no wildcard cuts one inside a segment or at its end.
-/

set_option autoImplicit false

namespace TinyProxy

open Rust Http

/-! ## Wildcards -/

/-- The path goes on after `lead` with another character than `/`. -/
def ContinuesSegment (lead path : Str) : Prop := ∃ c rest, path = lead ++ c :: rest ∧ c ≠ '/'

theorem matchPattern_wildcard (lead path : Str) :
    matchPattern (lead ++ "/*".toList) path = stripPrefix lead path := by
  rw [matchPattern, stripSuffix_eq_some_iff.mpr rfl]

theorem matchPattern_wildcard_isSome {lead path : Str} :
    (matchPattern (lead ++ "/*".toList) path).isSome = true ↔ lead <+: path := by
  rw [matchPattern_wildcard, Option.isSome_iff_exists]
  constructor
  · rintro ⟨rest, split⟩
    exact ⟨rest, (stripPrefix_eq_some_iff.mp split).symm⟩
  · rintro ⟨rest, split⟩
    exact ⟨rest, stripPrefix_eq_some_iff.mpr split.symm⟩

/-- A wildcard keeps to segments exactly on the paths that do not go on inside one. -/
theorem matchPattern_segment_iff (lead path : Str) :
    ((matchPattern (lead ++ "/*".toList) path).isSome = true ↔
      path = lead ∨ lead ++ ['/'] <+: path) ↔ ¬ ContinuesSegment lead path := by
  rw [matchPattern_wildcard_isSome]
  constructor
  · rintro segments ⟨c, rest, rfl, notSlash⟩
    rcases segments.mp (List.prefix_append _ _) with same | ⟨tail, split⟩
    · have lengths := congrArg List.length same
      simp at lengths
    · rw [List.append_assoc, List.append_cancel_left_eq] at split
      exact notSlash (List.cons.inj split).1.symm
  · intro boundary
    constructor
    · rintro ⟨rest, rfl⟩
      cases rest with
      | nil => exact Or.inl (List.append_nil _)
      | cons c tail =>
          have slash : c = '/' := by
            by_contra notSlash
            exact boundary ⟨c, tail, rfl, notSlash⟩
          subst slash
          refine Or.inr ⟨tail, ?_⟩
          rw [List.append_assoc, List.singleton_append]
    · rintro (rfl | ⟨tail, rfl⟩)
      · exact List.prefix_refl _
      · rw [List.append_assoc]
        exact List.prefix_append _ _

/-- `/apiv2/x` is inside the block for `/api/*`, with the path `v2/x`. -/
theorem wildcard_splits_segment :
    matchPattern "/api/*".toList "/apiv2/x".toList = some "v2/x".toList ∧
      ¬ ∀ lead path : Str, lead.getLast? ≠ some '/' →
        ((matchPattern (lead ++ "/*".toList) path).isSome = true ↔
          path = lead ∨ lead ++ ['/'] <+: path) := by
  refine ⟨by decide, fun segments => ?_⟩
  have matched : (matchPattern ("/api".toList ++ "/*".toList) "/apiv2/x".toList).isSome = true := by
    decide
  have outside : ¬ ("/apiv2/x".toList = "/api".toList ∨
      "/api".toList ++ ['/'] <+: "/apiv2/x".toList) := by decide
  exact outside ((segments _ _ (by decide)).mp matched)

/-! ## Absolute paths -/

def Absolute (path : Str) : Prop := ['/'] <+: path

theorem handleStripPrefix_absolute {pattern path : Str} (absolute : Absolute path) :
    Absolute (handleStripPrefix pattern path) := by
  rw [handleStripPrefix]
  cases stripPrefix pattern path with
  | none => exact absolute
  | some stripped =>
      dsimp only
      split
      · exact ⟨stripped, rfl⟩
      · next kept =>
          rw [not_or, Bool.not_eq_false] at kept
          exact List.isPrefixOf_iff_prefix.mp kept.2

/-- The directive is in the tree. -/
inductive Occurs (directive : Directive) : List Directive → Prop where
  | here {directives : List Directive} (member : directive ∈ directives) :
      Occurs directive directives
  | inside {directives : List Directive} {parent : Directive} (member : parent ∈ directives)
      (nested : Occurs directive parent.block) : Occurs directive directives

theorem Occurs.cons {directive first : Directive} {rest : List Directive}
    (occurs : Occurs directive rest) : Occurs directive (first :: rest) := by
  cases occurs with
  | here member => exact .here (List.mem_cons_of_mem _ member)
  | inside member nested => exact .inside (List.mem_cons_of_mem _ member) nested

/-! ## Visits -/

/-- The loop at a directive. -/
structure Visit where
  enclosing : Position
  index : Nat
  directive : Directive
  path : Str
  s : Pipeline

/-- A wildcard that matches is followed by a `/` in the path. -/
def Visit.AtBoundary (visit : Visit) : Prop :=
  ∀ lead nested, visit.directive = .handlePath (lead ++ "/*".toList) nested →
    lead <+: visit.path → lead ++ ['/'] <+: visit.path

/-- The loop over the directives, from this path and state, comes to the visit: in its
own block or in one that it enters. -/
inductive Visits (world : World) (ctx : AuthCtx) :
    Position → Nat → List Directive → Str → Pipeline → Visit → Prop where
  | here (enclosing : Position) (index : Nat) (directive : Directive) (rest : List Directive)
      (path : Str) (s : Pipeline) :
      Visits world ctx enclosing index (directive :: rest) path s
        ⟨enclosing, index, directive, path, s⟩
  | later {enclosing : Position} {index : Nat} {directive : Directive} {rest : List Directive}
      {path next : Str} {s t : Pipeline} {visit : Visit}
      (step : stepDirective world ctx enclosing index directive path s = some (.next next t))
      (visits : Visits world ctx enclosing (index + 1) rest next t visit) :
      Visits world ctx enclosing index (directive :: rest) path s visit
  | inside {enclosing : Position} {index : Nat} {directive : Directive} {rest : List Directive}
      {path inner : Str} {s : Pipeline} {visit : Visit}
      (enters : entered directive path s.req = some inner)
      (visits : Visits world ctx (enclosing ++ [index]) 0 directive.block inner s visit) :
      Visits world ctx enclosing index (directive :: rest) path s visit

section Runs
variable {world : World} {ctx : AuthCtx}

/-- What a directive that is passed does to the path. -/
theorem step_next_path {enclosing : Position} {index : Nat} {directive : Directive}
    {path next : Str} {s t : Pipeline}
    (step : stepDirective world ctx enclosing index directive path s = some (.next next t)) :
    next = path ∨
    (∃ pattern, directive = .stripPrefix pattern ∧ next = handleStripPrefix pattern path) ∨
    ∃ find replacement, directive = .uriReplace find replacement ∧
      next = handleUriReplace find replacement path := by
  have block : ((∃ pattern nested, directive = .handlePath pattern nested) ∨
      ∃ methods nested, directive = .method methods nested) → next = path := by
    intro isBlock
    cases enters : entered directive path s.req with
    | some inner =>
        rw [step_of_entered enters] at step
        obtain ⟨_, _, same⟩ := Option.map_eq_some_iff.mp step
        cases same
    | none =>
        rw [step_of_passed isBlock enters] at step
        exact (Flow.next.inj (Option.some.inj step)).1.symm
  cases directive with
  | header name value =>
      obtain ⟨_, _, same⟩ := Option.map_eq_some_iff.mp step
      exact Or.inl (Flow.next.inj same).1.symm
  | uriReplace find replacement =>
      obtain ⟨rfl, _⟩ := Flow.next.inj (Option.some.inj step)
      exact Or.inr (Or.inr ⟨find, replacement, rfl, rfl⟩)
  | stripPrefix pattern =>
      obtain ⟨rfl, _⟩ := Flow.next.inj (Option.some.inj step)
      exact Or.inr (Or.inl ⟨pattern, rfl, rfl⟩)
  | handlePath pattern nested => exact Or.inl (block (Or.inl ⟨pattern, nested, rfl⟩))
  | method methods nested => exact Or.inl (block (Or.inr ⟨methods, nested, rfl⟩))
  | redirect => cases step
  | respond => cases step
  | reverseProxy => cases step
  | forwardAuth cfg =>
      rw [stepDirective, stepForwardAuth_eq] at step
      have moved := Option.some.inj step
      split at moved
      · exact Or.inl (Flow.next.inj moved).1.symm
      · cases moved

/-- The rule for what all paths of a run have in common. -/
theorem visits_path {P : Str → Prop} {enclosing : Position} {index : Nat}
    {directives : List Directive} {path : Str} {s : Pipeline} {visit : Visit}
    (visits : Visits world ctx enclosing index directives path s visit)
    (strips : ∀ pattern before, Occurs (.stripPrefix pattern) directives → P before →
      P (handleStripPrefix pattern before))
    (replaces : ∀ find replacement before, Occurs (.uriReplace find replacement) directives →
      P before → P (handleUriReplace find replacement before))
    (enters : ∀ other inner, Visits world ctx enclosing index directives path s other →
      P other.path → entered other.directive other.path other.s.req = some inner → P inner)
    (start : P path) : P visit.path := by
  induction visits with
  | here => exact start
  | @later enclosing index directive rest path next s t visit step _ ih =>
      apply ih (fun pattern before occurs => strips pattern before occurs.cons)
        (fun find replacement before occurs => replaces find replacement before occurs.cons)
        fun other inner visits => enters other inner (.later step visits)
      rcases step_next_path step with rfl | ⟨pattern, rfl, rfl⟩ | ⟨find, replacement, rfl, rfl⟩
      · exact start
      · exact strips pattern path (.here (List.mem_cons_self ..)) start
      · exact replaces find replacement path (.here (List.mem_cons_self ..)) start
  | @inside enclosing index directive rest path inner s visit entry _ ih =>
      have member : directive ∈ directive :: rest := List.mem_cons_self ..
      apply ih (fun pattern before occurs => strips pattern before (.inside member occurs))
        (fun find replacement before occurs =>
          replaces find replacement before (.inside member occurs))
        fun other inner visits => enters other inner (.inside entry visits)
      exact enters _ inner (.here enclosing index directive rest path s) start entry

theorem entered_absolute {visit : Visit} {inner : Str} (boundary : visit.AtBoundary)
    (absolute : Absolute visit.path)
    (enters : entered visit.directive visit.path visit.s.req = some inner) : Absolute inner := by
  rcases entered_cases enters with ⟨pattern, nested, isWildcard, matched⟩ | ⟨_, _, _, _, rfl⟩
  · cases wildcard : stripSuffix "/*".toList pattern with
    | none =>
        rw [matchPattern, wildcard] at matched
        dsimp only at matched
        split at matched
        · exact Option.some.inj matched ▸ List.prefix_refl _
        · cases matched
    | some lead =>
        obtain rfl := stripSuffix_eq_some_iff.mp wildcard
        rw [matchPattern_wildcard, stripPrefix_eq_some_iff] at matched
        obtain ⟨tail, split⟩ := boundary lead nested isWildcard
          (matched ▸ List.prefix_append _ _)
        rw [matched, List.append_assoc, List.append_cancel_left_eq] at split
        exact ⟨tail, split⟩
  · exact absolute

/-- Every directive is met with an absolute path. -/
theorem visits_absolute {enclosing : Position} {index : Nat} {directives : List Directive}
    {path : Str} {s : Pipeline} {visit : Visit}
    (visits : Visits world ctx enclosing index directives path s visit)
    (notReplace : ∀ find replacement, ¬ Occurs (.uriReplace find replacement) directives)
    (boundary : ∀ other, Visits world ctx enclosing index directives path s other →
      other.AtBoundary) (absolute : Absolute path) : Absolute visit.path :=
  visits_path visits (fun _ _ _ => handleStripPrefix_absolute)
    (fun find replacement _ occurs => absurd occurs (notReplace find replacement))
    (fun other _ visits => entered_absolute (boundary other visits)) absolute

/-- A run that ends with an action ends at a directive it came to. -/
theorem run_visits :
    ∀ (directives : List Directive) (enclosing : Position) (index : Nat)
      (currentPath path : Str) (s : Pipeline) (action : ActionResult) (s' : Pipeline),
      runDirectives world ctx enclosing index directives currentPath path s =
        some (.ok action, s') →
      ∃ visit, Visits world ctx enclosing index directives path s visit ∧
        entered visit.directive visit.path visit.s.req = none ∧
        stepDirective world ctx visit.enclosing visit.index visit.directive visit.path visit.s =
          some (.done (.ok action) s')
  | [], enclosing, index, currentPath, path, s, action, s', run => by
      rw [runDirectives] at run
      cases run
  | directive :: rest, enclosing, index, currentPath, path, s, action, s', run => by
      have later := run_visits rest enclosing (index + 1) currentPath
      have inside := fun inner => run_visits directive.block (enclosing ++ [index]) 0 inner inner
      cases enters : entered directive path s.req with
      | some inner =>
          rw [run_of_entered enters] at run
          obtain ⟨visit, visits, ends⟩ := inside inner s action s' run
          exact ⟨visit, .inside enters visits, ends⟩
      | none =>
          rcases run_cons run with ⟨next, t, step, restRun⟩ | step
          · obtain ⟨visit, visits, ends⟩ := later next t action s' restRun
            exact ⟨visit, .later step visits, ends⟩
          · exact ⟨_, .here enclosing index directive rest path s, enters, step⟩
termination_by directives => sizeOf directives
decreasing_by
  all_goals
    have smaller := directive.sizeOf_block
    simp only [List.cons.sizeOf_spec]
    omega

/-- The loop comes to directives of the tree only. -/
theorem Visits.occurs {enclosing : Position} {index : Nat} {directives : List Directive}
    {path : Str} {s : Pipeline} {visit : Visit}
    (visits : Visits world ctx enclosing index directives path s visit) :
    Occurs visit.directive directives := by
  induction visits with
  | here => exact .here (List.mem_cons_self ..)
  | later _ _ ih => exact ih.cons
  | inside _ _ ih => exact .inside (List.mem_cons_self ..) ih

/-- What is proxied is the directive that the loop comes to, with the path it has there. -/
theorem reverseProxy_visited {directives : List Directive} {path backendUrl pathToSend : Str}
    {connectTimeout readTimeout : Option UInt64} {headerUp : List HeaderDirective}
    {s s' : Pipeline}
    (run : processDirectives world ctx directives path s =
      some (.ok (.reverseProxy backendUrl pathToSend connectTimeout readTimeout headerUp), s')) :
    ∃ visit, Visits world ctx [] 0 directives path s visit ∧ visit.path = pathToSend ∧
      visit.directive = .reverseProxy backendUrl connectTimeout readTimeout headerUp := by
  obtain ⟨⟨enclosing, index, directive, here, t⟩, visits, outside, step⟩ :=
    run_visits _ _ _ _ _ _ _ _ run
  refine ⟨_, visits, ?_⟩
  dsimp only at outside step ⊢
  by_cases isSilent : directive.isSilent = true
  · obtain ⟨next, moves⟩ := @run_of_silent world ctx enclosing index directive here isSilent
    rw [moves t outside] at step
    cases step
  cases directive with
  | header name value =>
      obtain ⟨_, _, same⟩ := Option.map_eq_some_iff.mp step
      cases same
  | reverseProxy =>
      have same := Except.ok.inj (Flow.done.inj (Option.some.inj step)).1
      obtain ⟨rfl, rfl, rfl, rfl, rfl⟩ := ActionResult.reverseProxy.inj same
      exact ⟨rfl, rfl⟩
  | redirect => cases step
  | respond => cases step
  | forwardAuth cfg =>
      obtain ⟨_, verdict, same, _⟩ := stepForwardAuth_done (Option.some.inj step)
      obtain ⟨_, _, denied⟩ := denial_authDenied verdict
      cases (Except.ok.inj same).trans denied
  | uriReplace => exact absurd rfl isSilent
  | stripPrefix => exact absurd rfl isSilent
  | handlePath => exact absurd rfl isSilent
  | method => exact absurd rfl isSilent

/-- Blocks and backend get absolute paths exactly when no wildcard that matches cuts the
path inside a segment or at its end. -/
theorem paths_absolute_iff {directives : List Directive} {path : Str} {s : Pipeline}
    (notReplace : ∀ find replacement, ¬ Occurs (.uriReplace find replacement) directives)
    (absolute : Absolute path) :
    ((∀ visit inner, Visits world ctx [] 0 directives path s visit →
        entered visit.directive visit.path visit.s.req = some inner → Absolute inner) ∧
      ∀ backendUrl pathToSend connectTimeout readTimeout headerUp s',
        processDirectives world ctx directives path s =
            some (.ok (.reverseProxy backendUrl pathToSend connectTimeout readTimeout headerUp),
              s') →
          Absolute pathToSend) ↔
      ∀ visit, Visits world ctx [] 0 directives path s visit → visit.AtBoundary := by
  constructor
  · rintro ⟨nested, _⟩ visit visits lead block isWildcard ⟨rest, split⟩
    have enters : entered visit.directive visit.path visit.s.req = some rest := by
      rw [isWildcard]
      change matchPattern (lead ++ "/*".toList) visit.path = some rest
      rw [matchPattern_wildcard, stripPrefix_eq_some_iff, split]
    obtain ⟨tail, rfl⟩ := nested visit rest visits enters
    exact ⟨tail, by rw [← split, List.append_assoc]⟩
  · intro boundary
    refine ⟨fun visit inner visits enters => ?_, fun _ pathToSend _ _ _ _ run => ?_⟩
    · exact entered_absolute (boundary visit visits)
        (visits_absolute visits notReplace boundary absolute) enters
    · obtain ⟨visit, visits, same, _⟩ := reverseProxy_visited run
      exact same ▸ visits_absolute visits notReplace boundary absolute

end Runs

/-! ## Examples -/

def apiTree : List Directive :=
  [.handlePath "/api/*".toList [.reverseProxy ['b'] none none []]]

theorem apiTree_keeps (find replacement : Str) :
    ¬ Occurs (.uriReplace find replacement) apiTree := by
  intro occurs
  cases occurs with
  | here member => cases List.mem_singleton.mp member
  | inside member nested =>
      obtain rfl := List.mem_singleton.mp member
      cases nested with
      | here member => cases List.mem_singleton.mp member
      | inside member deeper =>
          obtain rfl := List.mem_singleton.mp member
          cases deeper with
          | here member => cases member
          | inside member _ => cases member

theorem apiTree_boundary {visit : Visit}
    (visits : Visits quietWorld exampleCtx [] 0 apiTree "/api/users".toList
      (.initial exampleRequest) visit) : visit.AtBoundary := by
  cases visits with
  | here =>
      intro lead nested same _
      have pattern : "/api".toList ++ "/*".toList = lead ++ "/*".toList :=
        (Directive.handlePath.inj same).1
      obtain rfl := List.append_cancel_right pattern
      exact ⟨"users".toList, rfl⟩
  | later _ rest => cases rest
  | inside enters visits =>
      cases visits with
      | here =>
          intro lead nested same
          cases same
      | later _ rest => cases rest
      | inside enters _ => cases enters

theorem paths_absolute_iff_users :
    (∀ visit inner, Visits quietWorld exampleCtx [] 0 apiTree "/api/users".toList
        (.initial exampleRequest) visit →
      entered visit.directive visit.path visit.s.req = some inner → Absolute inner) ∧
    ∃ s, processDirectives quietWorld exampleCtx apiTree "/api/users".toList
      (.initial exampleRequest) =
        some (.ok (.reverseProxy ['b'] "/users".toList none none []), s) := by
  have absolute : Absolute "/api/users".toList := ⟨"api/users".toList, rfl⟩
  have both := (paths_absolute_iff apiTree_keeps absolute).mpr fun _ => apiTree_boundary
  exact ⟨both.1, _, rfl⟩

/-- `/apiv2` and `/api` get into the block for `/api/*` with relative paths. -/
theorem wildcard_leaves_relative_path :
    (∀ find replacement, ¬ Occurs (.uriReplace find replacement) apiTree) ∧
    Absolute "/apiv2".toList ∧ Absolute "/api".toList ∧
    (processDirectives quietWorld exampleCtx apiTree "/apiv2".toList
        (.initial exampleRequest)).map Prod.fst =
      some (.ok (.reverseProxy ['b'] "v2".toList none none [])) ∧
    (processDirectives quietWorld exampleCtx apiTree "/api".toList
        (.initial exampleRequest)).map Prod.fst =
      some (.ok (.reverseProxy ['b'] [] none none [])) ∧
    ¬ Absolute "v2".toList ∧ ¬ Absolute [] := by
  refine ⟨apiTree_keeps, ⟨"apiv2".toList, rfl⟩, ⟨"api".toList, rfl⟩, rfl, rfl, ?_, ?_⟩ <;>
    (rw [Absolute]; decide)

end TinyProxy
