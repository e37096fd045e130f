import TinyProxy.Config.Layout

/-!
# No directive is lost, except inside `reverse_proxy`

The body of a block pushes one directive for each directive statement on top of
the stack and leaves the rest of the parser's state alone.  A `reverse_proxy`
block throws away what was pushed inside it.
-/

set_option autoImplicit false

namespace TinyProxy

open Rust Http

section Steps
variable {parser : UriParser} {line : Nat} {s s' : ParserState}

/-- A text is read part by part. -/
theorem parseLines_bind {front back : List Str} : ∀ {line : Nat} {s : ParserState},
    parseLines parser line (front ++ back) s =
      (parseLines parser line front s >>= parseLines parser (line + front.length) back) := by
  induction front with
  | nil => exact fun {_} {_} => rfl
  | cons raw rest ih =>
      intro line s
      rw [List.cons_append, parseLines, parseLines, List.length_cons, Nat.add_comm rest.length,
        ← Nat.add_assoc]
      cases parseLine parser line raw s with
      | error e => rfl
      | ok next => exact ih

theorem parseLines_append {front back : List Str} {line : Nat} {s s' : ParserState}
    (run : parseLines parser line (front ++ back) s = .ok s') :
    ∃ middle, parseLines parser line front s = .ok middle ∧
      parseLines parser (line + front.length) back middle = .ok s' := by
  rw [parseLines_bind] at run
  exact bind_ok run

/-- The heading of the innermost open block. -/
def ParserState.enclosing (s : ParserState) : Option Str :=
  s.blockStack.head?.map PendingBlock.directiveType

/-- The headings of the open blocks, without their settings. -/
def ParserState.headings (s : ParserState) : List (Str × List Str) :=
  s.blockStack.map fun block => (block.directiveType, block.args)

/-- A run added directives on top of the stack and left the other stacks' shape alone. -/
structure Grown (s s' : ParserState) (produced : List Directive) : Prop where
  stack : ∀ top outer, s.directiveStack = top :: outer →
    s'.directiveStack = (top ++ produced) :: outer
  sites : s'.sites = s.sites
  site : s'.currentSiteAddress = s.currentSiteAddress
  headings : s'.headings = s.headings

theorem Grown.of_stack (stack : s'.directiveStack = s.directiveStack)
    (sites : s'.sites = s.sites) (site : s'.currentSiteAddress = s.currentSiteAddress)
    (headings : s'.headings = s.headings) : Grown s s' [] := by
  refine ⟨fun top outer shape => ?_, sites, site, headings⟩
  rw [stack, shape, List.append_nil]

theorem Grown.refl (s : ParserState) : Grown s s [] := .of_stack rfl rfl rfl rfl

theorem Grown.trans {middle : ParserState} {first second : List Directive}
    (start : Grown s middle first) (finish : Grown middle s' second) :
    Grown s s' (first ++ second) where
  stack top outer shape := by
    rw [finish.stack _ _ (start.stack _ _ shape), List.append_assoc]
  sites := finish.sites.trans start.sites
  site := finish.site.trans start.site
  headings := finish.headings.trans start.headings

theorem Grown.enclosing {produced : List Directive} (grown : Grown s s' produced) :
    s'.enclosing = s.enclosing := by
  have same := congrArg (fun headings => headings.head?.map Prod.fst) grown.headings
  simpa [ParserState.headings, ParserState.enclosing, Function.comp_def] using same

/-- The parser stays inside a site. -/
theorem Grown.stays {produced : List Directive} (grown : Grown s s' produced)
    (inSite : s.currentSiteAddress ≠ none) (nonempty : s.directiveStack ≠ []) :
    s'.currentSiteAddress ≠ none ∧ s'.directiveStack ≠ [] := by
  obtain ⟨top, outer, shape⟩ := List.exists_cons_of_ne_nil nonempty
  refine ⟨grown.site ▸ inSite, ?_⟩
  rw [grown.stack top outer shape]
  exact List.cons_ne_nil _ _

theorem pushDirective_grown {directive : Directive}
    (pushed : pushDirective directive s = .ok s') : Grown s s' [directive] := by
  unfold pushDirective at pushed
  cases stack : s.directiveStack with
  | nil =>
      rw [stack] at pushed
      cases pushed
  | cons current others =>
      rw [stack] at pushed
      obtain rfl := Except.ok.inj pushed
      refine ⟨fun top outer shape => ?_, rfl, rfl, rfl⟩
      rw [stack] at shape
      obtain ⟨rfl, rfl⟩ := List.cons.inj shape
      rfl

theorem regularLine_grown {name : Str} {args : List Str}
    (run : regularLine name args line s = .ok s') :
    ∃ directive, parseDirective name args line = .ok directive ∧ Grown s s' [directive] := by
  obtain ⟨directive, parsed, pushed⟩ := bind_ok run
  exact ⟨directive, parsed, pushDirective_grown pushed⟩

theorem reverseProxySetting_heading {name : Str} {args : List Str} {block block' : PendingBlock}
    (run : reverseProxySetting name args line block = .ok block') :
    block'.directiveType = block.directiveType ∧ block'.args = block.args := by
  unfold reverseProxySetting at run
  split at run
  · obtain ⟨_, _, same⟩ := bind_ok run
    obtain rfl := Except.ok.inj same
    exact ⟨rfl, rfl⟩
  split at run
  · obtain ⟨_, _, same⟩ := bind_ok run
    obtain rfl := Except.ok.inj same
    exact ⟨rfl, rfl⟩
  split at run
  · obtain ⟨_, _, same⟩ := bind_ok run
    obtain rfl := Except.ok.inj same
    exact ⟨rfl, rfl⟩
  · cases run

/-- A line that opens and closes nothing is a setting or one directive. -/
theorem simpleLine_grown {name : Str} {args : List Str}
    (run : simpleLine name args line s = .ok s') :
    ((Stmt.line name args).isSetting s.enclosing = true ∧ Grown s s' []) ∨
      ((Stmt.line name args).isSetting s.enclosing = false ∧ ∃ directive,
        parseDirective name args line = .ok directive ∧ Grown s s' [directive]) := by
  unfold simpleLine at run
  cases stack : s.blockStack with
  | cons block blocks =>
      rw [stack] at run
      have enclosing : s.enclosing = some block.directiveType := by
        rw [ParserState.enclosing, stack]
        rfl
      rw [enclosing]
      have kept : ∀ block' : PendingBlock, block'.directiveType = block.directiveType →
          block'.args = block.args →
          Grown s { s with blockStack := block' :: blocks } [] := by
        intro block' sameType sameArgs
        refine .of_stack rfl rfl rfl ?_
        simp only [ParserState.headings, stack, List.map_cons, sameType, sameArgs]
      dsimp only at run
      split at run
      next isAuth =>
        refine Or.inl ⟨Stmt.isSetting_block_iff.mpr (Or.inl isAuth), ?_⟩
        split at run
        next => cases run
        next pending _ =>
          obtain ⟨_, _, same⟩ := bind_ok run
          obtain rfl := Except.ok.inj same
          exact kept _ rfl rfl
      next notAuth =>
        split at run
        next isProxy =>
          refine Or.inl ⟨Stmt.isSetting_block_iff.mpr (Or.inr isProxy), ?_⟩
          obtain ⟨block', setting, same⟩ := bind_ok run
          obtain rfl := Except.ok.inj same
          obtain ⟨sameType, sameArgs⟩ := reverseProxySetting_heading setting
          exact kept block' sameType sameArgs
        next notProxy =>
          refine Or.inr ⟨?_, regularLine_grown run⟩
          rw [Bool.eq_false_iff, ne_eq, Stmt.isSetting_block_iff]
          exact not_or.mpr ⟨notAuth, notProxy⟩
  | nil =>
      rw [stack] at run
      have enclosing : s.enclosing = none := by
        rw [ParserState.enclosing, stack]
        rfl
      rw [enclosing]
      dsimp only at run
      split at run
      next isTls =>
        obtain ⟨_, _, same⟩ := bind_ok run
        obtain rfl := Except.ok.inj same
        refine Or.inl ⟨Stmt.isSetting_site_iff.mpr isTls, ?_⟩
        refine .of_stack rfl rfl rfl ?_
        rw [ParserState.headings, ParserState.headings, stack]
      next notTls =>
        refine Or.inr ⟨?_, regularLine_grown run⟩
        rw [Bool.eq_false_iff, ne_eq, Stmt.isSetting_site_iff]
        exact notTls

theorem simpleLine_grows {name : Str} {args : List Str}
    (run : simpleLine name args line s = .ok s') : ∃ produced, Grown s s' produced := by
  rcases simpleLine_grown run with ⟨_, grown⟩ | ⟨_, directive, _, grown⟩
  · exact ⟨[], grown⟩
  · exact ⟨[directive], grown⟩

theorem buildForwardAuth_ok {pending : ForwardAuthBlock} {directive : Directive}
    (built : buildForwardAuth parser pending line = .ok directive) :
    ∃ cfg, directive = .forwardAuth cfg := by
  unfold buildForwardAuth at built
  split at built
  next => cases built
  next rawTo _ =>
    split at built
    next => cases built
    next uri _ =>
      split at built
      next => cases built
      next endpoint _ =>
        cases requests : pending.requestHeaders <;>
          cases responses : pending.responseHeaders <;>
          · rw [requests, responses] at built
            obtain ⟨_, _, rest⟩ := bind_ok built
            obtain ⟨_, _, same⟩ := bind_ok rest
            exact ⟨_, (Except.ok.inj same).symm⟩

/-- What a closing brace makes of the block and of the directives inside. -/
theorem completeBlock_ok {block : PendingBlock} {finished : List Directive}
    {directive : Directive}
    (completed : completeBlock parser block finished line = .ok directive) :
    directive.OpenedBy block.directiveType block.args ∧
      (block.directiveType ≠ "reverse_proxy".toList → directive.block = finished) ∧
      (block.directiveType = "reverse_proxy".toList → directive.block = []) := by
  unfold completeBlock at completed
  split at completed
  next isPath =>
    obtain rfl := Except.ok.inj completed
    have notProxy : "handle_path".toList ≠ "reverse_proxy".toList := by decide
    exact ⟨⟨isPath, rfl⟩, fun _ => rfl, fun isProxy => absurd (isPath.symm.trans isProxy) notProxy⟩
  split at completed
  next isMethod =>
    obtain rfl := Except.ok.inj completed
    have notProxy : "method".toList ≠ "reverse_proxy".toList := by decide
    exact ⟨⟨isMethod, rfl⟩, fun _ => rfl,
      fun isProxy => absurd (isMethod.symm.trans isProxy) notProxy⟩
  split at completed
  next isProxy =>
    obtain rfl := Except.ok.inj completed
    exact ⟨⟨isProxy, rfl⟩, fun other => absurd isProxy other, fun _ => rfl⟩
  split at completed
  next isAuth =>
    split at completed
    next empty =>
      split at completed
      next => cases completed
      next pending _ =>
        obtain ⟨cfg, rfl⟩ := buildForwardAuth_ok completed
        refine ⟨isAuth, fun _ => ?_, fun _ => rfl⟩
        rw [List.isEmpty_iff.mp empty]
        rfl
    next => cases completed
  · cases completed

theorem openBlock_nested (head : Str) (args : List Str) (inSite : s.currentSiteAddress ≠ none) :
    (openBlock (head :: args) s).directiveStack = [] :: s.directiveStack ∧
      (openBlock (head :: args) s).sites = s.sites ∧
      (openBlock (head :: args) s).currentSiteAddress = s.currentSiteAddress ∧
      (openBlock (head :: args) s).headings = (head, blockArgs args) :: s.headings ∧
      (openBlock (head :: args) s).enclosing = some head := by
  have nested : ¬ (s.directiveStack.length = 1 ∧ s.currentSiteAddress = none) :=
    fun siteLevel => inSite siteLevel.2
  rw [openBlock, if_neg nested]
  exact ⟨rfl, rfl, rfl, rfl, rfl⟩

/-- A closing brace turns the innermost block into one directive of its parent. -/
theorem closeBlock_nested {finished parent : List Directive} {outer : List (List Directive)}
    (closed : closeBlock parser line s = .ok s')
    (stack : s.directiveStack = finished :: parent :: outer) :
    ∃ block blocks directive, s.blockStack = block :: blocks ∧
      completeBlock parser block finished line = .ok directive ∧
      s' = { s with directiveStack := (parent ++ [directive]) :: outer, blockStack := blocks } := by
  rw [closeBlock, stack] at closed
  cases blockStack : s.blockStack with
  | nil =>
      rw [blockStack] at closed
      cases closed
  | cons block blocks =>
      rw [blockStack] at closed
      obtain ⟨directive, completed, same⟩ := bind_ok closed
      exact ⟨block, blocks, directive, rfl, completed, (Except.ok.inj same).symm⟩

/-! ## Runs over a layout -/

theorem parseLine_skip {raw : Str} (kind : lineKind raw = .skip)
    (run : parseLine parser line raw s = .ok s') : s' = s := by
  rw [parseLine_eq, kind] at run
  exact (Except.ok.inj run).symm

theorem parseLine_simple {raw name : Str} {args : List Str}
    (kind : lineKind raw = .simple (name :: args))
    (run : parseLine parser line raw s = .ok s') : simpleLine name args line s = .ok s' := by
  rwa [parseLine_eq, kind] at run

theorem parseLine_opener {raw : Str} {parts : List Str} (kind : lineKind raw = .opener parts)
    (run : parseLine parser line raw s = .ok s') : s' = openBlock parts s := by
  rw [parseLine_eq, kind] at run
  exact (Except.ok.inj run).symm

theorem parseLine_closer {raw : Str} (kind : lineKind raw = .closer)
    (run : parseLine parser line raw s = .ok s') : closeBlock parser line s = .ok s' := by
  rwa [parseLine_eq, kind] at run

/-- The three parts of a run over a block: its opening line, its body, its closing line. -/
theorem parseLines_block_eq {opening closing : Str} {parts inner raws : List Str}
    (opens : lineKind opening = .opener parts) (closes : lineKind closing = .closer) :
    parseLines parser line (opening :: (inner ++ closing :: raws)) s =
      (parseLines parser (line + 1) inner (openBlock parts s) >>= fun inside =>
        closeBlock parser (line + 1 + inner.length) inside >>=
          parseLines parser (line + 1 + inner.length + 1) raws) := by
  rw [parseLines, parseLine_eq, opens]
  change parseLines parser (line + 1) (inner ++ closing :: raws) (openBlock parts s) = _
  rw [parseLines_bind]
  cases parseLines parser (line + 1) inner (openBlock parts s) with
  | error e => rfl
  | ok inside =>
      change parseLines parser (line + 1 + inner.length) (closing :: raws) inside = _
      rw [parseLines, parseLine_eq, closes]
      rfl

theorem parseLines_block {opening closing : Str} {parts inner raws : List Str}
    (opens : lineKind opening = .opener parts) (closes : lineKind closing = .closer)
    (run : parseLines parser line (opening :: (inner ++ closing :: raws)) s = .ok s') :
    ∃ number inside closed, parseLines parser (line + 1) inner (openBlock parts s) = .ok inside ∧
      closeBlock parser number inside = .ok closed ∧
      parseLines parser (number + 1) raws closed = .ok s' := by
  rw [parseLines_block_eq opens closes] at run
  obtain ⟨inside, body, rest⟩ := bind_ok run
  obtain ⟨closed, last, later⟩ := bind_ok rest
  exact ⟨_, inside, closed, body, last, later⟩

theorem directiveStmts_cons (enclosing : Option Str) (first : Stmt) (rest : List Stmt) :
    directiveStmts enclosing (first :: rest) =
      if first.isSetting enclosing then directiveStmts enclosing rest
      else first :: directiveStmts enclosing rest := by
  cases setting : first.isSetting enclosing <;> simp [directiveStmts, setting]

/-- A block whose body has run, and whose directives were closed into one. -/
theorem block_grown {head : Str} {args : List Str} {inside closed : ParserState}
    {produced : List Directive} {number : Nat} (inSite : s.currentSiteAddress ≠ none)
    (nonempty : s.directiveStack ≠ []) (body : Grown (openBlock (head :: args) s) inside produced)
    (close : closeBlock parser number inside = .ok closed) :
    ∃ directive, Grown s closed [directive] ∧ directive.OpenedBy head (blockArgs args) ∧
      (head ≠ "reverse_proxy".toList → directive.block = produced) ∧
      (head = "reverse_proxy".toList → directive.block = []) := by
  obtain ⟨stack, sites, site, headings, _⟩ := openBlock_nested head args inSite
  obtain ⟨top, outer, shape⟩ := List.exists_cons_of_ne_nil nonempty
  rw [shape] at stack
  have insideStack := body.stack _ _ stack
  obtain ⟨block, blocks, directive, blockStack, completed, rfl⟩ :=
    closeBlock_nested close insideStack
  have insideHeadings := body.headings.trans headings
  rw [ParserState.headings, blockStack, List.map_cons] at insideHeadings
  obtain ⟨heading, others⟩ := List.cons.inj insideHeadings
  obtain ⟨rfl, sameArgs⟩ := Prod.mk.inj heading
  obtain ⟨opened, kept, dropped⟩ := completeBlock_ok completed
  rw [sameArgs] at opened
  refine ⟨directive, ⟨fun top' outer' shape' => ?_, body.sites.trans sites, body.site.trans site,
    others⟩, opened, kept, dropped⟩
  rw [shape] at shape'
  obtain ⟨rfl, rfl⟩ := List.cons.inj shape'
  rfl

/-- The body of a block or of a site, from its first line to its last. -/
theorem laid_run {raws : List Str} {stmts : List Stmt} (laid : Laid raws stmts) :
    ∀ {line : Nat} {s s' : ParserState}, parseLines parser line raws s = .ok s' →
      s.currentSiteAddress ≠ none → s.directiveStack ≠ [] →
      ∃ produced, Grown s s' produced ∧
        produced.length = (directiveStmts s.enclosing stmts).length ∧ (KeepsBlocks stmts →
          List.Forall₂ Represents (directiveStmts s.enclosing stmts) produced) := by
  induction laid with
  | nil =>
      intro line s s' run _ _
      obtain rfl := Except.ok.inj run
      exact ⟨[], .refl s, rfl, fun _ => List.Forall₂.nil⟩
  | skip kind _ ih =>
      intro line s s' run inSite nonempty
      obtain ⟨next, first, later⟩ := bind_ok run
      obtain rfl := parseLine_skip kind first
      exact ih later inSite nonempty
  | line kind _ ih =>
      intro line s s' run inSite nonempty
      obtain ⟨next, first, later⟩ := bind_ok run
      have stepped := simpleLine_grown (parseLine_simple kind first)
      rcases stepped with ⟨setting, grown⟩ | ⟨notSetting, directive, parsed, grown⟩
      · obtain ⟨nextInSite, nextNonempty⟩ := grown.stays inSite nonempty
        obtain ⟨produced, rest, count, represented⟩ := ih later nextInSite nextNonempty
        rw [directiveStmts_cons, if_pos setting, ← grown.enclosing]
        exact ⟨produced, grown.trans rest, count, fun keeps => represented keeps.tail⟩
      · obtain ⟨nextInSite, nextNonempty⟩ := grown.stays inSite nonempty
        obtain ⟨produced, rest, count, represented⟩ := ih later nextInSite nextNonempty
        rw [directiveStmts_cons, if_neg (Bool.eq_false_iff.mp notSetting), ← grown.enclosing]
        exact ⟨directive :: produced, grown.trans rest, congrArg (· + 1) count,
          fun keeps => List.Forall₂.cons (.line parsed) (represented keeps.tail)⟩
  | @block opening closing head args inner raws body stmts opens closes _ _ insideIh restIh =>
      intro line s s' run inSite nonempty
      obtain ⟨number, inside, closed, bodyRun, close, later⟩ := parseLines_block opens closes run
      obtain ⟨openStack, _, openSite, _, openEnclosing⟩ :=
        openBlock_nested head args inSite
      obtain ⟨innerProduced, bodyGrown, _, innerRepresented⟩ := insideIh bodyRun
        (openSite ▸ inSite) (openStack ▸ List.cons_ne_nil _ _)
      obtain ⟨directive, grown, opened, kept, dropped⟩ :=
        block_grown inSite nonempty bodyGrown close
      obtain ⟨nextInSite, nextNonempty⟩ := grown.stays inSite nonempty
      obtain ⟨produced, rest, count, represented⟩ := restIh later nextInSite nextNonempty
      have notSetting : ¬ (Stmt.block head args body).isSetting s.enclosing = true := nofun
      rw [directiveStmts_cons, if_neg notSetting, ← grown.enclosing]
      refine ⟨directive :: produced, grown.trans rest, congrArg (· + 1) count, fun keeps => ?_⟩
      refine List.Forall₂.cons (.block opened ?_) (represented keeps.tail)
      by_cases isProxy : head = "reverse_proxy".toList
      · subst isProxy
        rw [dropped rfl, directiveStmts_reverseProxy keeps]
        exact List.Forall₂.nil
      · rw [kept isProxy, ← openEnclosing]
        exact innerRepresented keeps.body

/-! ## The certificate setting -/

/-- Whether one of the statements is a `tls` line; nested blocks have none. -/
def hasTls (stmts : List Stmt) : Bool := stmts.any (Stmt.isSetting none)

/-- A `tls` line finds no setting and leaves one; without it nothing changes. -/
structure TlsEffect (has : Bool) (before after : Option TlsConfig) : Prop where
  set : has = true → before = none ∧ after.isSome = true
  kept : has = false → after = before

theorem TlsEffect.refl (tls : Option TlsConfig) : TlsEffect false tls tls :=
  ⟨nofun, fun _ => rfl⟩

theorem TlsEffect.trans {first second : Bool} {before middle after : Option TlsConfig}
    (start : TlsEffect first before middle) (finish : TlsEffect second middle after) :
    TlsEffect (first || second) before after := by
  cases first with
  | false =>
      rw [Bool.false_or, ← start.kept rfl]
      exact finish
  | true =>
      obtain ⟨none_, some_⟩ := start.set rfl
      refine ⟨fun _ => ⟨none_, ?_⟩, nofun⟩
      cases second with
      | false => rwa [finish.kept rfl]
      | true => exact (finish.set rfl).2

theorem pushDirective_tls {directive : Directive} (pushed : pushDirective directive s = .ok s') :
    s'.currentSiteTls = s.currentSiteTls := by
  unfold pushDirective at pushed
  split at pushed
  next => cases pushed
  next =>
    obtain rfl := Except.ok.inj pushed
    rfl

theorem tlsSetting_none {args : List Str} {current : Option TlsConfig} {tls : TlsConfig}
    (set : tlsSetting args line current = .ok tls) : current = none := by
  unfold tlsSetting at set
  split at set
  next => cases set
  next => cases set
  next =>
    split at set
    next => cases set
    next absent => exact Option.not_isSome_iff_eq_none.mp absent

theorem simpleLine_tls {name : Str} {args : List Str}
    (run : simpleLine name args line s = .ok s') :
    TlsEffect (s.blockStack.isEmpty && (Stmt.line name args).isSetting none)
      s.currentSiteTls s'.currentSiteTls := by
  unfold simpleLine at run
  split at run
  next block blocks stack =>
    rw [stack, List.isEmpty_cons, Bool.false_and]
    refine ⟨nofun, fun _ => ?_⟩
    split at run
    next =>
      split at run
      next => cases run
      next =>
        obtain ⟨_, _, same⟩ := bind_ok run
        obtain rfl := Except.ok.inj same
        rfl
    next =>
      split at run
      next =>
        obtain ⟨_, _, same⟩ := bind_ok run
        obtain rfl := Except.ok.inj same
        rfl
      next =>
        obtain ⟨_, _, pushed⟩ := bind_ok run
        exact pushDirective_tls pushed
  next stack =>
    rw [stack, List.isEmpty_nil, Bool.true_and]
    split at run
    next isTls =>
      obtain ⟨tls, set, same⟩ := bind_ok run
      obtain rfl := Except.ok.inj same
      refine ⟨fun _ => ⟨tlsSetting_none set, rfl⟩, fun notSetting => ?_⟩
      rw [Stmt.isSetting_site_iff.mpr isTls] at notSetting
      cases notSetting
    next notTls =>
      obtain ⟨_, _, pushed⟩ := bind_ok run
      refine ⟨fun setting => absurd (Stmt.isSetting_site_iff.mp setting) notTls, fun _ => ?_⟩
      exact pushDirective_tls pushed

theorem Grown.noBlocks {produced : List Directive} (grown : Grown s s' produced) :
    s'.blockStack.isEmpty = s.blockStack.isEmpty := by
  have same := congrArg List.isEmpty grown.headings
  rwa [ParserState.headings, ParserState.headings, List.isEmpty_map, List.isEmpty_map] at same

/-- In a site the `tls` lines directly inside count, in a nested block none does. -/
theorem laid_tls {raws : List Str} {stmts : List Stmt} (laid : Laid raws stmts) :
    ∀ {line : Nat} {s s' : ParserState}, parseLines parser line raws s = .ok s' →
      s.currentSiteAddress ≠ none → s.directiveStack ≠ [] →
      TlsEffect (s.blockStack.isEmpty && hasTls stmts) s.currentSiteTls s'.currentSiteTls := by
  induction laid with
  | nil =>
      intro line s s' run _ _
      obtain rfl := Except.ok.inj run
      rw [hasTls, List.any_nil, Bool.and_false]
      exact .refl _
  | skip kind _ ih =>
      intro line s s' run inSite nonempty
      obtain ⟨next, first, later⟩ := bind_ok run
      obtain rfl := parseLine_skip kind first
      exact ih later inSite nonempty
  | line kind _ ih =>
      intro line s s' run inSite nonempty
      obtain ⟨next, first, later⟩ := bind_ok run
      have step := parseLine_simple kind first
      obtain ⟨produced, grown⟩ := simpleLine_grows step
      obtain ⟨nextInSite, nextNonempty⟩ := grown.stays inSite nonempty
      have rest := ih later nextInSite nextNonempty
      rw [grown.noBlocks] at rest
      rw [hasTls, List.any_cons, Bool.and_or_distrib_left]
      exact (simpleLine_tls step).trans rest
  | @block opening closing head args inner raws body stmts opens closes insideLaid _ insideIh
      restIh =>
      intro line s s' run inSite nonempty
      obtain ⟨number, inside, closed, bodyRun, close, later⟩ := parseLines_block opens closes run
      obtain ⟨openStack, _, openSite, _, _⟩ := openBlock_nested head args inSite
      obtain ⟨_, bodyGrown, _, _⟩ := laid_run insideLaid bodyRun
        (openSite ▸ inSite) (openStack ▸ List.cons_ne_nil _ _)
      obtain ⟨directive, grown, _⟩ := block_grown inSite nonempty bodyGrown close
      obtain ⟨top, outer, shape⟩ := List.exists_cons_of_ne_nil nonempty
      obtain ⟨nextInSite, nextNonempty⟩ := grown.stays inSite nonempty
      have rest := restIh later nextInSite nextNonempty
      have nested : ¬ (s.directiveStack.length = 1 ∧ s.currentSiteAddress = none) :=
        fun siteLevel => inSite siteLevel.2
      have openTls : (openBlock (head :: args) s).currentSiteTls = s.currentSiteTls ∧
          (openBlock (head :: args) s).blockStack.isEmpty = false := by
        rw [openBlock, if_neg nested]
        exact ⟨rfl, rfl⟩
      have insideTls := insideIh bodyRun (openSite ▸ inSite) (openStack ▸ List.cons_ne_nil _ _)
      rw [openTls.2, Bool.false_and] at insideTls
      have insideStack := bodyGrown.stack _ _ openStack
      have closedTls : closed.currentSiteTls = inside.currentSiteTls := by
        rw [shape] at insideStack
        obtain ⟨_, _, _, _, _, rfl⟩ := closeBlock_nested close insideStack
        rfl
      rw [closedTls, insideTls.kept rfl, openTls.1, grown.noBlocks] at rest
      rw [hasTls, List.any_cons]
      exact rest

/-! ## Sites -/

/-- No site is open. -/
structure Between (s : ParserState) : Prop where
  stack : ∃ pending, s.directiveStack = [pending]
  blocks : s.blockStack = []
  site : s.currentSiteAddress = none

theorem between_initial : Between .initial := ⟨⟨[], rfl⟩, rfl, rfl⟩

theorem openBlock_site {head : Str} {args : List Str} (between : Between s) :
    openBlock (head :: args) s = { s with currentSiteAddress := some head } := by
  obtain ⟨pending, stack⟩ := between.stack
  have siteLevel : s.directiveStack.length = 1 ∧ s.currentSiteAddress = none :=
    ⟨by rw [stack]; rfl, between.site⟩
  rw [openBlock, if_pos siteLevel]

theorem closeBlock_site {directives : List Directive} {head : Str}
    (stack : s.directiveStack = [directives]) (site : s.currentSiteAddress = some head)
    (closed : closeBlock parser line s = .ok s') :
    head ∉ s.sites ∧ s' =
      { sites := s.sites.insert head ⟨head, directives, s.currentSiteTls⟩
        currentSiteAddress := none
        currentSiteTls := none
        directiveStack := [[]]
        blockStack := s.blockStack } := by
  rw [closeBlock, stack] at closed
  dsimp only at closed
  rw [closeSite, site, stack] at closed
  dsimp only at closed
  split at closed
  next => cases closed
  next fresh => exact ⟨fresh, (Except.ok.inj closed).symm⟩

/-- A site block adds one site, made of what was pending and of its body. -/
theorem siteBlock_run {opening closing head : Str} {args inner raws : List Str} {body : List Stmt}
    {pending : List Directive}
    (opens : lineKind opening = .opener (head :: args)) (closes : lineKind closing = .closer)
    (laid : Laid inner body) (between : Between s) (stack : s.directiveStack = [pending])
    (run : parseLines parser line (opening :: (inner ++ closing :: raws)) s = .ok s') :
    ∃ number middle produced tls, parseLines parser number raws middle = .ok s' ∧
      head ∉ s.sites ∧ middle =
        { sites := s.sites.insert head ⟨head, pending ++ produced, tls⟩
          currentSiteAddress := none
          currentSiteTls := none
          directiveStack := [[]]
          blockStack := [] } ∧
      produced.length = (directiveStmts none body).length ∧
      TlsEffect (hasTls body) s.currentSiteTls tls ∧
      (KeepsBlocks body → List.Forall₂ Represents (directiveStmts none body) produced) := by
  obtain ⟨number, inside, closed, bodyRun, close, later⟩ := parseLines_block opens closes run
  rw [openBlock_site between] at bodyRun
  have opened : ({ s with currentSiteAddress := some head } : ParserState).directiveStack ≠ [] := by
    rw [stack]
    exact List.cons_ne_nil _ _
  obtain ⟨produced, grown, count, represented⟩ :=
    laid_run laid bodyRun (Option.some_ne_none head) opened
  obtain ⟨fresh, rfl⟩ := closeBlock_site (grown.stack pending [] stack) grown.site close
  have noBlocks : inside.blockStack = [] := by
    have headings := grown.headings
    rw [ParserState.headings, ParserState.headings, between.blocks] at headings
    exact List.map_eq_nil_iff.mp headings
  have noEnclosing : ({ s with currentSiteAddress := some head } : ParserState).enclosing =
      none := by
    rw [ParserState.enclosing, between.blocks]
    rfl
  rw [noEnclosing] at count represented
  have tls := laid_tls laid bodyRun (Option.some_ne_none head) opened
  have siteLevel : ({ s with currentSiteAddress := some head } : ParserState).blockStack.isEmpty =
      true := List.isEmpty_iff.mpr between.blocks
  rw [siteLevel, Bool.true_and] at tls
  have sites : inside.sites = s.sites := grown.sites
  rw [sites] at fresh
  exact ⟨_, _, produced, inside.currentSiteTls, later, fresh, by rw [noBlocks, sites], count,
    tls, represented⟩

/-- The sites that site blocks add to `before`. -/
structure SitesFrom (stmts : List Stmt) (before after : AList fun _ : Str => SiteConfig) :
    Prop where
  kept : ∀ key site, before.lookup key = some site → after.lookup key = some site
  made : ∀ head args body, .block head args body ∈ stmts → ∃ site,
    after.lookup head = some site ∧ (KeepsBlocks body →
      List.Forall₂ Represents (directiveStmts none body) site.directives)
  only : ∀ key site, after.lookup key = some site → before.lookup key = some site ∨
    ∃ args body, .block key args body ∈ stmts

theorem sites_run {raws : List Str} {stmts : List Stmt} (laid : Laid raws stmts) :
    ∀ {line : Nat} {s s' : ParserState}, (∀ stmt ∈ stmts, stmt.isBlock = true) →
      parseLines parser line raws s = .ok s' → Between s → s.directiveStack = [[]] →
      SitesFrom stmts s.sites s'.sites := by
  induction laid with
  | nil =>
      intro line s s' _ run _ _
      obtain rfl := Except.ok.inj run
      exact ⟨fun _ _ => id, (fun _ _ _ member => absurd member List.not_mem_nil), fun _ _ => Or.inl⟩
  | skip kind _ ih =>
      intro line s s' blocks run between stack
      obtain ⟨next, first, later⟩ := bind_ok run
      obtain rfl := parseLine_skip kind first
      exact ih blocks later between stack
  | line kind _ _ =>
      intro line s s' blocks _ _ _
      have isBlock := blocks _ (List.mem_cons_self ..)
      cases isBlock
  | @block opening closing head args inner raws body stmts opens closes inside _ _ restIh =>
      intro line s s' blocks run between stack
      obtain ⟨number, middle, produced, tls, later, fresh, rfl, _, _, represented⟩ :=
        siteBlock_run opens closes inside between stack run
      obtain ⟨kept, made, only⟩ := restIh (fun stmt member => blocks stmt (.tail _ member)) later
        ⟨⟨[], rfl⟩, rfl, rfl⟩ rfl
      have here := kept head _ (AList.lookup_insert s.sites)
      refine ⟨fun key site known => kept key site ?_, fun head' args' body' member => ?_,
        fun key site found => ?_⟩
      · have other : key ≠ head := by
          rintro rfl
          exact fresh (AList.lookup_isSome.mp (by rw [known]; rfl))
        rw [AList.lookup_insert_ne other]
        exact known
      · rcases List.mem_cons.mp member with same | later
        · obtain ⟨rfl, rfl, rfl⟩ := Stmt.block.inj same
          exact ⟨_, here, represented⟩
        · exact made head' args' body' later
      · rcases only key site found with known | ⟨args', body', member⟩
        · by_cases same : key = head
          · exact Or.inr ⟨args, body, by rw [same]; exact List.mem_cons_self ..⟩
          · rw [AList.lookup_insert_ne same] at known
            exact Or.inl known
        · exact Or.inr ⟨args', body', List.mem_cons_of_mem _ member⟩

/-- Each site block has its site, whose tree has one node for each directive statement. -/
structure Conserved (stmts : List Stmt) (config : Config) : Prop where
  made : ∀ head args body, .block head args body ∈ stmts → ∃ site,
    config.sites.lookup head = some site ∧
      List.Forall₂ Represents (directiveStmts none body) site.directives
  only : ∀ key site, config.sites.lookup key = some site →
    ∃ args body, .block key args body ∈ stmts

theorem keepsBlocks_of_represented {body : List Stmt} {directives : List Directive}
    (represented : List.Forall₂ Represents (directiveStmts none body) directives) :
    KeepsBlocks body := by
  intro top member stmt within
  cases top with
  | line name args =>
      cases within with
      | refl => exact id
  | block head args inner =>
      have isDirective : Stmt.block head args inner ∈ directiveStmts none body :=
        List.mem_filter.mpr ⟨member, rfl⟩
      obtain ⟨_, _, represents⟩ := exists_related represented _ isDirective
      exact represents.keeps stmt within

end Steps

theorem directives_conserved_iff {parser : UriParser} {content : Str} {config : Config}
    {stmts : List Stmt} (accepted : Config.fromStr parser content = .ok config)
    (layout : Laid (lines content) stmts) (sitesOnly : ∀ stmt ∈ stmts, stmt.isBlock = true) :
    Conserved stmts config ↔
      ∀ head args body, .block head args body ∈ stmts → KeepsBlocks body := by
  obtain ⟨s, run, checked⟩ := bind_ok accepted
  obtain ⟨_, _, same⟩ := bind_ok checked
  obtain rfl := Except.ok.inj same
  obtain ⟨_, made, only⟩ := sites_run layout sitesOnly run between_initial rfl
  constructor
  · intro conserved head args body member
    obtain ⟨_, _, represented⟩ := conserved.made head args body member
    exact keepsBlocks_of_represented represented
  · intro keeps
    refine ⟨fun head args body member => ?_, fun key site found => ?_⟩
    · obtain ⟨site, found, represented⟩ := made head args body member
      exact ⟨site, found, represented (keeps head args body member)⟩
    · rcases only key site found with before | block
      · cases before
      · exact block

/-! ## A dropped authorization -/

/-- A `forward_auth` block inside a block that is inside the site `a:80`. -/
def nestedAuthLines (outer : Str) : List Str :=
  ["a:80 \x7b".toList, outer ++ " \x7b".toList, "forward_auth \x7b".toList,
    "to http://c/".toList, ['\x7d'], ['\x7d'], "respond 200".toList, ['\x7d']]

def nestedAuthText (outer : Str) : Str := join ['\n'] (nestedAuthLines outer)

def nestedAuthStmt : Stmt :=
  .block "forward_auth".toList [['\x7b']] [.line "to".toList ["http://c/".toList]]

def nestedAuthLayout (head : Str) (args : List Str) : List Stmt :=
  [.block "a:80".toList [['\x7b']]
    [.block head args [nestedAuthStmt], .line "respond".toList ["200".toList]]]

def nestedAuthConfig (outer : Directive) : Config :=
  ⟨(∅ : AList fun _ : Str => SiteConfig).insert "a:80".toList
    ⟨"a:80".toList, [outer, .respond 200 []], none⟩⟩

theorem nestedAuth_laid {outer head : Str} {args : List Str}
    (opens : lineKind (outer ++ " \x7b".toList) = .opener (head :: args)) :
    Laid (nestedAuthLines outer) (nestedAuthLayout head args) := by
  have setting : Laid ["to http://c/".toList]
      [.line "to".toList ["http://c/".toList]] := .line rfl .nil
  have auth : Laid ["forward_auth \x7b".toList, "to http://c/".toList, ['\x7d']]
      [nestedAuthStmt] := .block rfl rfl setting .nil
  have respond : Laid ["respond 200".toList] [.line "respond".toList ["200".toList]] :=
    .line rfl .nil
  have body : Laid [outer ++ " \x7b".toList, "forward_auth \x7b".toList, "to http://c/".toList,
      ['\x7d'], ['\x7d'], "respond 200".toList]
      [.block head args [nestedAuthStmt], .line "respond".toList ["200".toList]] :=
    .block opens rfl auth respond
  exact .block rfl rfl body .nil

/-- Inside `reverse_proxy` the authorization is accepted and then missing. -/
theorem nested_auth_dropped :
    Config.fromStr plainUriParser (nestedAuthText "reverse_proxy b".toList) =
        .ok (nestedAuthConfig (.reverseProxy ['b'] none none [])) ∧
      Laid (lines (nestedAuthText "reverse_proxy b".toList))
        (nestedAuthLayout "reverse_proxy".toList [['b'], ['\x7b']]) ∧
      ¬ Conserved (nestedAuthLayout "reverse_proxy".toList [['b'], ['\x7b']])
        (nestedAuthConfig (.reverseProxy ['b'] none none [])) := by
  have spelled : lines (nestedAuthText "reverse_proxy b".toList) =
      nestedAuthLines "reverse_proxy b".toList := rfl
  have laid : Laid (nestedAuthLines "reverse_proxy b".toList)
      (nestedAuthLayout "reverse_proxy".toList [['b'], ['\x7b']]) := nestedAuth_laid rfl
  refine ⟨rfl, spelled ▸ laid, fun conserved => ?_⟩
  obtain ⟨_, _, represented⟩ := conserved.made _ _ _ (List.mem_cons_self ..)
  exact keepsBlocks_of_represented represented _ (List.mem_cons_self ..) _ .refl
    ⟨rfl, nestedAuthStmt, List.mem_cons_self .., rfl⟩

def nestedAuthEndpoint : ForwardAuthConfig :=
  ⟨⟨some "http".toList, some ['c'], some ['/']⟩, defaultRequestHeaders, [], .closed,
    defaultAuthTimeoutSecs⟩

/-- Inside `handle_path` it is kept. -/
theorem directives_conserved_iff_handle_path :
    Conserved (nestedAuthLayout "handle_path".toList ["/*".toList, ['\x7b']])
      (nestedAuthConfig (.handlePath "/*".toList [.forwardAuth nestedAuthEndpoint])) := by
  have accepted : Config.fromStr plainUriParser (nestedAuthText "handle_path /*".toList) =
      .ok (nestedAuthConfig (.handlePath "/*".toList [.forwardAuth nestedAuthEndpoint])) := rfl
  have spelled : lines (nestedAuthText "handle_path /*".toList) =
      nestedAuthLines "handle_path /*".toList := rfl
  have laid : Laid (nestedAuthLines "handle_path /*".toList)
      (nestedAuthLayout "handle_path".toList ["/*".toList, ['\x7b']]) := nestedAuth_laid rfl
  have layout : Laid (lines (nestedAuthText "handle_path /*".toList))
      (nestedAuthLayout "handle_path".toList ["/*".toList, ['\x7b']]) := spelled ▸ laid
  refine (directives_conserved_iff accepted layout (by simp [nestedAuthLayout, Stmt.isBlock])).mpr ?_
  intro head args body member top inBody stmt within
  obtain ⟨rfl, rfl, rfl⟩ := Stmt.block.inj (List.mem_singleton.mp member)
  rcases List.mem_cons.mp inBody with rfl | inRest
  · cases within with
    | refl => exact fun drops => absurd drops.1 (by decide)
    | inside isChild deeper =>
        obtain rfl := List.mem_singleton.mp isChild
        cases deeper with
        | refl => exact fun drops => absurd drops.1 (by decide)
        | inside isSetting deepest =>
            obtain rfl := List.mem_singleton.mp isSetting
            cases deepest
            exact id
  · obtain rfl := List.mem_singleton.mp inRest
    cases within
    exact id

end TinyProxy
