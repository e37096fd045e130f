import TinyProxy.Config.Acceptance
import TinyProxy.Config.Numbering
import TinyProxy.Config.Sockets

/-!
# Sites and what stands between them

Closing a site resets the pending directives and the `tls` setting; opening one
does not.  So a line between two sites belongs to the later one, and two texts
can be put together without harm only if nothing is pending where they meet.
-/

set_option autoImplicit false

namespace TinyProxy

open Rust Http

/-! ## Lines outside the sites -/

/-- The lines after the last site block. -/
def trailing : List Stmt → List Stmt
  | [] => []
  | stmt :: rest => if (stmt :: rest).any Stmt.isBlock then trailing rest else stmt :: rest

/-- The first site block: its address, and what it takes: the lines before it and its body. -/
def leadingSite : List Stmt → Option (Str × List Stmt)
  | [] => none
  | .line name args :: rest =>
      (leadingSite rest).map fun site => (site.1, .line name args :: site.2)
  | .block head _ body :: _ => some (head, body)

/-- Nothing is pending where the texts meet, or the second has no site to take it. -/
def Separable (first second : List Stmt) : Prop :=
  trailing first = [] ∨
    (second.any Stmt.isBlock = false ∧ (hasTls (trailing first) && hasTls second) = false)

instance (first second : List Stmt) : Decidable (Separable first second) := by
  unfold Separable
  have : Decidable (trailing first = []) := decidable_of_iff _ List.isEmpty_iff
  infer_instance

theorem trailing_of_lines {stmts : List Stmt} (noBlock : stmts.any Stmt.isBlock = false) :
    trailing stmts = stmts := by
  cases stmts with
  | nil => rfl
  | cons stmt rest => rw [trailing, noBlock, if_neg Bool.false_ne_true]

theorem trailing_cons {stmts : List Stmt} (stmt : Stmt)
    (hasBlock : (stmt :: stmts).any Stmt.isBlock = true) :
    trailing (stmt :: stmts) = trailing stmts := by
  rw [trailing, if_pos hasBlock]

theorem leadingSite_some {stmts : List Stmt} (hasBlock : stmts.any Stmt.isBlock = true) :
    ∃ head own, leadingSite stmts = some (head, own) := by
  induction stmts with
  | nil => cases hasBlock
  | cons stmt rest ih =>
      cases stmt with
      | line name args =>
          obtain ⟨head, own, found⟩ := ih hasBlock
          exact ⟨head, .line name args :: own, by rw [leadingSite, found, Option.map_some]⟩
      | block head args body => exact ⟨head, body, rfl⟩

/-! ## What is pending -/

section Pending
variable {parser : UriParser} {line : Nat} {s s' : ParserState}

/-- Directives and a setting that a run over the statements leaves at site level. -/
structure Settles (stmts : List Stmt) (pending : List Directive) (tls : Option TlsConfig)
    (s' : ParserState) : Prop where
  stack : ∃ produced, s'.directiveStack = [pending ++ produced] ∧
    produced.length = (directiveStmts none stmts).length
  tls : TlsEffect (hasTls stmts) tls s'.currentSiteTls

theorem between_enclosing (between : Between s) : s.enclosing = none := by
  rw [ParserState.enclosing, between.blocks]
  rfl

/-- One line between sites. -/
theorem simpleLine_settles {name : Str} {args : List Str} {pending : List Directive}
    (run : simpleLine name args line s = .ok s') (between : Between s)
    (stack : s.directiveStack = [pending]) :
    Between s' ∧ s'.sites = s.sites ∧
      Settles [.line name args] pending s.currentSiteTls s' := by
  have tls := simpleLine_tls run
  rw [between.blocks, List.isEmpty_nil, Bool.true_and] at tls
  have effect : TlsEffect (hasTls [.line name args]) s.currentSiteTls s'.currentSiteTls := by
    rw [hasTls, List.any_cons, List.any_nil, Bool.or_false]
    exact tls
  rcases simpleLine_grown run with ⟨setting, grown⟩ | ⟨notSetting, directive, _, grown⟩
  · rw [between_enclosing between] at setting
    refine ⟨grown.between between, grown.sites, ⟨[], grown.stack _ _ stack, ?_⟩, effect⟩
    rw [directiveStmts_cons, if_pos setting]
    rfl
  · rw [between_enclosing between] at notSetting
    refine ⟨grown.between between, grown.sites, ⟨[directive], grown.stack _ _ stack, ?_⟩, effect⟩
    rw [directiveStmts_cons, if_neg (Bool.eq_false_iff.mp notSetting)]
    rfl

theorem Settles.refl {pending : List Directive} (stack : s.directiveStack = [pending]) :
    Settles [] pending s.currentSiteTls s :=
  ⟨⟨[], by rw [List.append_nil, stack], rfl⟩, .refl _⟩

theorem Settles.cons {middle : ParserState} {stmt : Stmt} {stmts : List Stmt}
    {pending : List Directive} {tls : Option TlsConfig} (first : Settles [stmt] pending tls middle)
    (rest : ∀ pending, middle.directiveStack = [pending] →
      Settles stmts pending middle.currentSiteTls s') :
    Settles (stmt :: stmts) pending tls s' := by
  obtain ⟨produced, stack, count⟩ := first.stack
  obtain ⟨⟨later, finalStack, laterCount⟩, laterTls⟩ := rest _ stack
  refine ⟨⟨produced ++ later, by rw [finalStack, List.append_assoc], ?_⟩, ?_⟩
  · rw [List.length_append, count, laterCount, directiveStmts, directiveStmts, directiveStmts,
      ← List.length_append, ← List.filter_append, List.singleton_append]
  · have whole := first.tls.trans laterTls
    rwa [hasTls, hasTls, List.any_cons, List.any_nil, Bool.or_false, ← List.any_cons] at whole

theorem lines_settle {raws : List Str} {stmts : List Stmt} (laid : Laid raws stmts) :
    ∀ {line : Nat} {s s' : ParserState} {pending : List Directive},
      stmts.any Stmt.isBlock = false → parseLines parser line raws s = .ok s' → Between s →
      s.directiveStack = [pending] →
      Between s' ∧ s'.sites = s.sites ∧ Settles stmts pending s.currentSiteTls s' := by
  induction laid with
  | nil =>
      intro line s s' pending _ run between stack
      obtain rfl := Except.ok.inj run
      exact ⟨between, rfl, .refl stack⟩
  | skip kind _ ih =>
      intro line s s' pending noBlock run between stack
      obtain ⟨next, first, later⟩ := bind_ok run
      obtain rfl := parseLine_skip kind first
      exact ih noBlock later between stack
  | line kind _ ih =>
      intro line s s' pending noBlock run between stack
      obtain ⟨next, first, later⟩ := bind_ok run
      obtain ⟨stillBetween, sites, settles⟩ :=
        simpleLine_settles (parseLine_simple kind first) between stack
      obtain ⟨nextPending, nextStack⟩ := stillBetween.stack
      obtain ⟨last, lastSites, _⟩ := ih noBlock later stillBetween nextStack
      exact ⟨last, lastSites.trans sites,
        settles.cons fun pending shape => (ih noBlock later stillBetween shape).2.2⟩
  | block _ _ _ _ _ _ =>
      intro line s s' pending noBlock
      cases noBlock

/-- After the last site block only the lines that follow it are pending. -/
theorem trailing_settle {raws : List Str} {stmts : List Stmt} (laid : Laid raws stmts) :
    ∀ {line : Nat} {s s' : ParserState}, stmts.any Stmt.isBlock = true →
      parseLines parser line raws s = .ok s' → Between s →
      Between s' ∧ Settles (trailing stmts) [] none s' := by
  induction laid with
  | nil =>
      intro line s s' hasBlock
      cases hasBlock
  | skip kind _ ih =>
      intro line s s' hasBlock run between
      obtain ⟨next, first, later⟩ := bind_ok run
      obtain rfl := parseLine_skip kind first
      exact ih hasBlock later between
  | line kind _ ih =>
      intro line s s' hasBlock run between
      obtain ⟨next, first, later⟩ := bind_ok run
      obtain ⟨pending, stack⟩ := between.stack
      obtain ⟨stillBetween, _, _⟩ := simpleLine_settles (parseLine_simple kind first) between stack
      rw [trailing_cons _ hasBlock]
      exact ih hasBlock later stillBetween
  | @block opening closing head args inner raws body stmts opens closes inside rest _ restIh =>
      intro line s s' hasBlock run between
      obtain ⟨pending, stack⟩ := between.stack
      obtain ⟨number, middle, produced, tls, later, _, rfl, _⟩ :=
        siteBlock_run opens closes inside between stack run
      rw [trailing_cons _ hasBlock]
      cases more : stmts.any Stmt.isBlock with
      | true => exact restIh more later ⟨⟨[], rfl⟩, rfl, rfl⟩
      | false =>
          rw [trailing_of_lines more]
          obtain ⟨last, _, settles⟩ := lines_settle rest more later ⟨⟨[], rfl⟩, rfl, rfl⟩ rfl
          exact ⟨last, settles⟩

/-- What an accepted text leaves pending at its end. -/
theorem pending_at_end {raws : List Str} {stmts : List Stmt} (laid : Laid raws stmts)
    (run : parseLines parser line raws .initial = .ok s') :
    Between s' ∧ Settles (trailing stmts) [] none s' := by
  cases hasBlock : stmts.any Stmt.isBlock with
  | true => exact trailing_settle laid hasBlock run between_initial
  | false =>
      rw [trailing_of_lines hasBlock]
      obtain ⟨last, _, settles⟩ := lines_settle laid hasBlock run between_initial rfl
      exact ⟨last, settles⟩

/-- What is known of the first site of a text: it takes what was pending. -/
structure Leads (head : Str) (own : List Stmt) (pending : List Directive)
    (tls : Option TlsConfig) (site : SiteConfig) : Prop where
  count : site.directives.length = pending.length + (directiveStmts none own).length
  tls : TlsEffect (hasTls own) tls site.tls

theorem sites_kept {raws : List Str} {key : Str} {site : SiteConfig}
    (run : parseLines parser line raws s = .ok s') (between : Between s)
    (known : s.sites.lookup key = some site) : s'.sites.lookup key = some site := by
  obtain ⟨blocks, tail, scanned⟩ := scanned_exists _ raws (Nat.le_refl _)
  exact (scanned_run scanned run between).kept key site known

theorem leading_run {raws : List Str} {stmts : List Stmt} (laid : Laid raws stmts) :
    ∀ {line : Nat} {s s' : ParserState} {pending : List Directive} {head : Str}
      {own : List Stmt}, leadingSite stmts = some (head, own) →
      parseLines parser line raws s = .ok s' → Between s → s.directiveStack = [pending] →
      ∃ site, s'.sites.lookup head = some site ∧ Leads head own pending s.currentSiteTls site := by
  induction laid with
  | nil =>
      intro line s s' pending head own leads
      cases leads
  | skip kind _ ih =>
      intro line s s' pending head own leads run between stack
      obtain ⟨next, first, later⟩ := bind_ok run
      obtain rfl := parseLine_skip kind first
      exact ih leads later between stack
  | @line raw name args raws stmts kind _ ih =>
      intro line s s' pending head own leads run between stack
      obtain ⟨next, first, later⟩ := bind_ok run
      obtain ⟨stillBetween, _, settles⟩ :=
        simpleLine_settles (parseLine_simple kind first) between stack
      obtain ⟨⟨produced, nextStack, count⟩, effect⟩ := settles
      rw [leadingSite] at leads
      obtain ⟨⟨restHead, restOwn⟩, restLeads, same⟩ := Option.map_eq_some_iff.mp leads
      obtain ⟨rfl, rfl⟩ := Prod.mk.inj same
      obtain ⟨site, found, siteCount, siteTls⟩ := ih restLeads later stillBetween nextStack
      refine ⟨site, found, ?_, ?_⟩
      · rw [siteCount, List.length_append, count, Nat.add_assoc, ← List.length_append,
          directiveStmts, directiveStmts, ← List.filter_append, List.singleton_append]
        rfl
      · have whole := effect.trans siteTls
        rwa [hasTls, hasTls, List.any_cons, List.any_nil, Bool.or_false, ← List.any_cons] at whole
  | @block opening closing blockHead args inner raws body stmts opens closes inside _ _ _ =>
      intro line s s' pending head own leads run between stack
      obtain ⟨rfl, rfl⟩ := Prod.mk.inj (Option.some.inj leads)
      obtain ⟨number, middle, produced, tls, later, _, rfl, count, effect, _⟩ :=
        siteBlock_run opens closes inside between stack run
      refine ⟨_, sites_kept later ⟨⟨[], rfl⟩, rfl, rfl⟩ (AList.lookup_insert s.sites), ?_, effect⟩
      rw [List.length_append, count]

end Pending

/-! ## Other sites in the map -/

section Frame
variable {parser : UriParser} {s s' : ParserState} (base : AList fun _ : Str => SiteConfig)

/-- The same state with more sites on record. -/
def ParserState.withSites (base : AList fun _ : Str => SiteConfig) (s : ParserState) :
    ParserState := { s with sites := s.sites ∪ base }

theorem openBlock_withSites (parts : List Str) (s : ParserState) :
    openBlock parts (s.withSites base) = (openBlock parts s).withSites base := by
  cases parts with
  | nil => rfl
  | cons head args =>
      by_cases siteLevel : s.directiveStack.length = 1 ∧ s.currentSiteAddress = none
      · rw [openBlock, openBlock, if_pos siteLevel]
        exact if_pos siteLevel
      · rw [openBlock, openBlock, if_neg siteLevel]
        exact if_neg siteLevel

/-- The same state at another site, with other sites on record. -/
def ParserState.onSite (s : ParserState) (sites : AList fun _ : Str => SiteConfig)
    (address : Option Str) : ParserState :=
  { s with sites := sites, currentSiteAddress := address }

section OtherSite
variable {sites : AList fun _ : Str => SiteConfig} {address : Option Str} {line : Nat}
variable {name : Str} {args : List Str}

theorem regularLine_onSite (run : regularLine name args line s = .ok s') :
    regularLine name args line (s.onSite sites address) = .ok (s'.onSite sites address) := by
  obtain ⟨directive, parsed, pushed⟩ := bind_ok run
  rw [regularLine, parsed]
  change pushDirective directive (s.onSite sites address) = _
  unfold pushDirective at pushed
  split at pushed
  next => cases pushed
  next current outer stack =>
    obtain rfl := Except.ok.inj pushed
    have same : (s.onSite sites address).directiveStack = current :: outer := stack
    rw [pushDirective, same]
    rfl

/-- A line that opens and closes nothing does not look at the site. -/
theorem simpleLine_onSite (run : simpleLine name args line s = .ok s') :
    simpleLine name args line (s.onSite sites address) = .ok (s'.onSite sites address) := by
  unfold simpleLine at run
  split at run
  next block blocks stack =>
    have same : (s.onSite sites address).blockStack = block :: blocks := stack
    rw [simpleLine, same]
    dsimp only
    split_ifs at run ⊢
    · split at run
      next => cases run
      next =>
        obtain ⟨pending, set, done⟩ := bind_ok run
        obtain rfl := Except.ok.inj done
        rw [set]
        rfl
    · obtain ⟨block', set, done⟩ := bind_ok run
      obtain rfl := Except.ok.inj done
      rw [set]
      rfl
    · exact regularLine_onSite run
  next stack =>
    have same : (s.onSite sites address).blockStack = [] := stack
    rw [simpleLine, same]
    dsimp only
    split_ifs at run ⊢
    · obtain ⟨tls, set, done⟩ := bind_ok run
      obtain rfl := Except.ok.inj done
      have sameTls : (s.onSite sites address).currentSiteTls = s.currentSiteTls := rfl
      rw [sameTls, set, ParserState.onSite, ParserState.onSite, stack]
      rfl
    · exact regularLine_onSite run

theorem openBlock_onSite (head : Str) (inSite : s.currentSiteAddress ≠ none)
    (here : address ≠ none) :
    openBlock (head :: args) (s.onSite sites address) =
      (openBlock (head :: args) s).onSite sites address := by
  have nested : ¬ (s.directiveStack.length = 1 ∧ s.currentSiteAddress = none) :=
    fun siteLevel => inSite siteLevel.2
  have nestedHere : ¬ ((s.onSite sites address).directiveStack.length = 1 ∧
      (s.onSite sites address).currentSiteAddress = none) := fun siteLevel => here siteLevel.2
  rw [openBlock, openBlock, if_neg nested, if_neg nestedHere]
  rfl

theorem closeBlock_onSite {finished parent : List Directive} {outer : List (List Directive)}
    (closed : closeBlock parser line s = .ok s')
    (stack : s.directiveStack = finished :: parent :: outer) :
    closeBlock parser line (s.onSite sites address) = .ok (s'.onSite sites address) := by
  obtain ⟨block, blocks, directive, blockStack, completed, rfl⟩ := closeBlock_nested closed stack
  have sameStack : (s.onSite sites address).directiveStack = finished :: parent :: outer := stack
  have sameBlocks : (s.onSite sites address).blockStack = block :: blocks := blockStack
  rw [closeBlock, sameStack, sameBlocks]
  dsimp only
  rw [completed]
  rfl

/-- The body of a site does not depend on the site's address. -/
theorem laid_onSite {raws : List Str} {stmts : List Stmt} (laid : Laid raws stmts)
    (here : address ≠ none) : ∀ {line : Nat} {s s' : ParserState},
    parseLines parser line raws s = .ok s' → s.currentSiteAddress ≠ none →
      s.directiveStack ≠ [] →
      parseLines parser line raws (s.onSite sites address) = .ok (s'.onSite sites address) := by
  induction laid with
  | nil =>
      intro line s s' run _ _
      obtain rfl := Except.ok.inj run
      rfl
  | skip kind _ ih =>
      intro line s s' run inSite nonempty
      obtain ⟨next, first, later⟩ := bind_ok run
      obtain rfl := parseLine_skip kind first
      rw [parseLines, parseLine_eq, kind]
      exact ih later inSite nonempty
  | line kind _ ih =>
      intro line s s' run inSite nonempty
      obtain ⟨next, first, later⟩ := bind_ok run
      have step := parseLine_simple kind first
      obtain ⟨produced, grown⟩ := simpleLine_grows step
      obtain ⟨nextInSite, nextNonempty⟩ := grown.stays inSite nonempty
      rw [parseLines, parseLine_eq, kind]
      dsimp only
      rw [simpleLine_onSite step]
      exact ih later nextInSite nextNonempty
  | @block opening closing head args inner raws body stmts opens closes insideLaid _ insideIh
      restIh =>
      intro line s s' run inSite nonempty
      rw [parseLines_block_eq opens closes] at run ⊢
      obtain ⟨inside, bodyRun, rest⟩ := bind_ok run
      obtain ⟨closed, close, later⟩ := bind_ok rest
      obtain ⟨openStack, _, openSite, _, _⟩ := openBlock_nested head args inSite
      obtain ⟨_, bodyGrown, _, _⟩ := laid_run insideLaid bodyRun
        (openSite ▸ inSite) (openStack ▸ List.cons_ne_nil _ _)
      obtain ⟨directive, grown, _⟩ := block_grown inSite nonempty bodyGrown close
      obtain ⟨top, outer, shape⟩ := List.exists_cons_of_ne_nil nonempty
      have insideStack := bodyGrown.stack _ _ (shape ▸ openStack)
      obtain ⟨nextInSite, nextNonempty⟩ := grown.stays inSite nonempty
      rw [openBlock_onSite head inSite here,
        insideIh bodyRun (openSite ▸ inSite) (openStack ▸ List.cons_ne_nil _ _)]
      change (closeBlock parser _ (inside.onSite sites address) >>= _) = _
      rw [closeBlock_onSite close insideStack]
      exact restIh later nextInSite nextNonempty

end OtherSite

theorem simpleLine_withSites {line : Nat} {name : Str} {args : List Str}
    (run : simpleLine name args line s = .ok s') :
    simpleLine name args line (s.withSites base) = .ok (s'.withSites base) := by
  obtain ⟨produced, grown⟩ := simpleLine_grows run
  have same : s'.withSites base = s'.onSite (s.sites ∪ base) s.currentSiteAddress := by
    rw [ParserState.withSites, ParserState.onSite, grown.sites, ← grown.site]
  rw [same]
  exact simpleLine_onSite run

theorem closeBlock_withSites {line : Nat} (run : closeBlock parser line s = .ok s')
    (apart : ∀ key ∈ s'.sites, key ∉ base) :
    closeBlock parser line (s.withSites base) = .ok (s'.withSites base) := by
  unfold closeBlock at run
  split at run
  next finished parent outer stack =>
    have same : (s.withSites base).directiveStack = finished :: parent :: outer := stack
    rw [closeBlock, same]
    dsimp only
    split at run
    next => cases run
    next block blocks blockStack =>
      have sameBlocks : (s.withSites base).blockStack = block :: blocks := blockStack
      obtain ⟨directive, completed, done⟩ := bind_ok run
      obtain rfl := Except.ok.inj done
      rw [sameBlocks]
      dsimp only
      rw [completed]
      rfl
  next flat =>
    have atSite : closeBlock parser line (s.withSites base) = closeSite (s.withSites base) := by
      unfold closeBlock
      split
      next finished parent outer stack => exact absurd stack (flat finished parent outer)
      next => rfl
    rw [atSite]
    unfold closeSite at run
    split at run
    next outside =>
      obtain rfl := Except.ok.inj run
      have same : (s.withSites base).currentSiteAddress = none := outside
      rw [closeSite, same]
    next address inSite =>
      have same : (s.withSites base).currentSiteAddress = some address := inSite
      rw [closeSite, same]
      dsimp only
      split at run
      next => cases run
      next directives outer stack =>
        have sameStack : (s.withSites base).directiveStack = directives :: outer := stack
        rw [sameStack]
        dsimp only
        split at run
        next => cases run
        next fresh =>
          obtain rfl := Except.ok.inj run
          have notThere : address ∉ base := apart address ((AList.mem_insert _).mpr (Or.inl rfl))
          have stillFresh : address ∉ (s.withSites base).sites :=
            fun present => (AList.mem_union.mp present).elim fresh notThere
          rw [if_neg stillFresh]
          rw [ParserState.withSites, ParserState.withSites, ← AList.insert_union]

theorem closeBlock_sites {line : Nat} {key : Str} (run : closeBlock parser line s = .ok s')
    (present : key ∈ s.sites) : key ∈ s'.sites := by
  rcases closeBlock_adds run with same | ⟨site, _, inserted⟩
  · rwa [same]
  · rw [inserted]
    exact (AList.mem_insert _).mpr (Or.inr present)

/-- No line takes a site away. -/
theorem readKind_sites {line : Nat} {kind : LineKind} {key : Str}
    (run : readKind parser line kind s = .ok s') (present : key ∈ s.sites) : key ∈ s'.sites := by
  unfold readKind at run
  split at run
  next =>
    obtain rfl := Except.ok.inj run
    exact present
  next parts =>
    obtain rfl := Except.ok.inj run
    rwa [openBlock_sites]
  next => exact closeBlock_sites run present
  next =>
    obtain rfl := Except.ok.inj run
    exact present
  next name args =>
    rcases simpleLine_grown run with ⟨_, grown⟩ | ⟨_, directive, _, grown⟩
    · rwa [grown.sites]
    · rwa [grown.sites]

theorem readKinds_sites {key : Str} {steps : List LineKind} : ∀ {s : ParserState},
    readKinds parser steps s = .ok s' → key ∈ s.sites → key ∈ s'.sites := by
  induction steps with
  | nil =>
      intro s run present
      obtain rfl := Except.ok.inj run
      exact present
  | cons kind rest ih =>
      intro s run present
      obtain ⟨next, first, later⟩ := bind_ok run
      exact ih later (readKind_sites first present)

theorem readKind_withSites {line : Nat} {kind : LineKind}
    (run : readKind parser line kind s = .ok s') (apart : ∀ key ∈ s'.sites, key ∉ base) :
    readKind parser line kind (s.withSites base) = .ok (s'.withSites base) := by
  unfold readKind at run ⊢
  split at run
  next =>
    obtain rfl := Except.ok.inj run
    rfl
  next parts =>
    obtain rfl := Except.ok.inj run
    exact congrArg Except.ok (openBlock_withSites base parts s)
  next => exact closeBlock_withSites base run apart
  next =>
    obtain rfl := Except.ok.inj run
    rfl
  next => exact simpleLine_withSites base run

theorem readKinds_withSites {steps : List LineKind} : ∀ {s : ParserState},
    readKinds parser steps s = .ok s' → (∀ key ∈ s'.sites, key ∉ base) →
      readKinds parser steps (s.withSites base) = .ok (s'.withSites base) := by
  induction steps with
  | nil =>
      intro s run _
      obtain rfl := Except.ok.inj run
      rfl
  | cons kind rest ih =>
      intro s run apart
      obtain ⟨next, first, later⟩ := bind_ok run
      have apartNext : ∀ key ∈ next.sites, key ∉ base :=
        fun key present => apart key (readKinds_sites later present)
      rw [readKinds, readKind_withSites base first apartNext]
      exact ih later apart

end Frame

/-! ## One text after another -/

section Texts
variable {parser : UriParser} {s s' t middle : ParserState}

/-- Lines between sites are read whatever is pending, except a second `tls` line. -/
theorem simpleLine_transfer {line : Nat} {name : Str} {args : List Str}
    (run : simpleLine name args line s = .ok s') (between : Between s) (other : Between t)
    (clear : (Stmt.line name args).isSetting none = true → t.currentSiteTls = none) :
    ∃ t', simpleLine name args line t = .ok t' := by
  unfold simpleLine at run ⊢
  rw [between.blocks] at run
  rw [other.blocks]
  dsimp only at run ⊢
  split_ifs at run ⊢ with isTls
  · obtain ⟨tls, set, _⟩ := bind_ok run
    rw [tlsSetting_none set] at set
    rw [clear (Stmt.isSetting_site_iff.mpr isTls), set]
    exact ⟨_, rfl⟩
  · obtain ⟨directive, parsed, _⟩ := bind_ok run
    obtain ⟨pending, stack⟩ := other.stack
    rw [regularLine, parsed]
    change ∃ t', pushDirective directive t = .ok t'
    rw [pushDirective, stack]
    exact ⟨_, rfl⟩

theorem lines_transfer {raws : List Str} {stmts : List Stmt} (laid : Laid raws stmts) :
    ∀ {line : Nat} {s s' t : ParserState}, stmts.any Stmt.isBlock = false →
      parseLines parser line raws s = .ok s' → Between s → Between t →
      (hasTls stmts = true → t.currentSiteTls = none) →
      ∃ t', parseLines parser line raws t = .ok t' := by
  induction laid with
  | nil => exact fun _ _ _ _ _ => ⟨_, rfl⟩
  | @skip raw _ _ kind _ ih =>
      intro line s s' t noBlock run between other clear
      obtain ⟨next, first, later⟩ := bind_ok run
      obtain rfl := parseLine_skip kind first
      obtain ⟨t', rest⟩ := ih noBlock later between other clear
      refine ⟨t', ?_⟩
      have skipped : parseLine parser line raw t = .ok t := by
        rw [parseLine_eq, kind]
      rw [parseLines, skipped]
      exact rest
  | @line raw name args raws stmts kind laid ih =>
      intro line s s' t noBlock run between other clear
      obtain ⟨next, first, later⟩ := bind_ok run
      have step := parseLine_simple kind first
      have clearHere : (Stmt.line name args).isSetting none = true → t.currentSiteTls = none := by
        intro setting
        apply clear
        rw [hasTls, List.any_cons, setting, Bool.true_or]
      obtain ⟨nextT, stepT⟩ := simpleLine_transfer step between other clearHere
      obtain ⟨pending, stack⟩ := between.stack
      obtain ⟨pendingT, stackT⟩ := other.stack
      obtain ⟨stillBetween, _, settles⟩ := simpleLine_settles step between stack
      obtain ⟨stillOther, _, settlesT⟩ := simpleLine_settles stepT other stackT
      obtain ⟨nextPending, nextStack⟩ := stillBetween.stack
      have clearRest : hasTls stmts = true → nextT.currentSiteTls = none := by
        intro more
        cases setting : (Stmt.line name args).isSetting none with
        | true =>
            -- The first run would have met its second `tls` line here.
            have here : hasTls [.line name args] = true := by
              rw [hasTls, List.any_cons, setting, Bool.true_or]
            have some_ := (settles.tls.set here).2
            have none_ := ((lines_settle laid noBlock later stillBetween nextStack).2.2.tls.set
              more).1
            rw [none_] at some_
            cases some_
        | false =>
            have here : hasTls [.line name args] = false := by
              rw [hasTls, List.any_cons, setting, List.any_nil, Bool.or_false]
            rw [settlesT.tls.kept here]
            apply clear
            rw [hasTls, List.any_cons, setting, Bool.false_or]
            exact more
      obtain ⟨t', rest⟩ := ih noBlock later stillBetween stillOther clearRest
      refine ⟨t', ?_⟩
      have read : parseLine parser line raw t = .ok nextT := by
        rw [parseLine_eq, kind]
        exact stepT
      rw [parseLines, read]
      exact rest
  | block _ _ _ _ _ _ =>
      intro line s s' t noBlock
      cases noBlock

theorem feed_iff {first second : Str} (run : parseLines parser 1 (lines first) s = .ok middle) :
    parseLines parser 1 (lines (first ++ '\n' :: second)) s = .ok s' ↔
      parseLines parser 1 (lines second) middle = .ok s' := by
  rw [parseLines_iff, kinds_feed, readKinds_append, parseLines_iff]
  constructor
  · rintro ⟨other, start, finish⟩
    rw [parseLines_iff.mp run] at start
    rwa [Except.ok.inj start]
  · exact fun finish => ⟨middle, parseLines_iff.mp run, finish⟩

theorem fromStr_iff {content : Str} {config : Config} :
    Config.fromStr parser content = .ok config ↔
      ∃ s, parseLines parser 1 (lines content) .initial = .ok s ∧ config = ⟨s.sites⟩ ∧
        validateListenSockets ⟨s.sites⟩ = .ok () := by
  constructor
  · intro accepted
    obtain ⟨s, run, checked⟩ := bind_ok accepted
    obtain ⟨_, validated, same⟩ := bind_ok checked
    exact ⟨s, run, (Except.ok.inj same).symm, validated⟩
  · rintro ⟨s, run, rfl, validated⟩
    rw [Config.fromStr, run]
    change (validateListenSockets ⟨s.sites⟩ >>= _) = _
    rw [validated]
    rfl

/-- Lines that leave nothing pending are no lines. -/
theorem nothing_pending_iff {stmts : List Stmt} (noDirective : directiveStmts none stmts = [])
    (noTls : hasTls stmts = false) : stmts = [] := by
  cases stmts with
  | nil => rfl
  | cons stmt rest =>
      rw [hasTls, List.any_cons, Bool.or_eq_false_iff] at noTls
      rw [directiveStmts_cons, if_neg (Bool.eq_false_iff.mp noTls.1)] at noDirective
      cases noDirective

/-- The sites of the second text come out as they are alone only if nothing is taken over. -/
theorem separable_of_kept {firstRaws secondRaws : List Str} {first second : List Stmt}
    {final joined : ParserState} (firstLaid : Laid firstRaws first)
    (secondLaid : Laid secondRaws second)
    (firstRun : parseLines parser 1 firstRaws .initial = .ok middle)
    (secondRun : parseLines parser 1 secondRaws .initial = .ok final)
    (joinedRun : parseLines parser 1 secondRaws middle = .ok joined)
    (kept : ∀ key site, final.sites.lookup key = some site →
      joined.sites.lookup key = some site) : Separable first second := by
  obtain ⟨between, ⟨produced, stack, count⟩, effect⟩ := pending_at_end firstLaid firstRun
  rw [List.nil_append] at stack
  by_contra apart
  obtain ⟨leaves, blocked⟩ := not_or.mp apart
  cases hasBlock : second.any Stmt.isBlock with
  | true =>
      obtain ⟨head, own, leads⟩ := leadingSite_some hasBlock
      obtain ⟨alone, foundAlone, countAlone, tlsAlone⟩ :=
        leading_run secondLaid leads secondRun between_initial rfl
      obtain ⟨taker, foundTaker, countTaker, tlsTaker⟩ :=
        leading_run secondLaid leads joinedRun between stack
      have same := kept head alone foundAlone
      rw [foundTaker] at same
      obtain rfl := Option.some.inj same
      have noDirective : directiveStmts none (trailing first) = [] := by
        rw [countAlone, List.length_nil] at countTaker
        exact List.eq_nil_of_length_eq_zero (by omega)
      cases pendingTls : hasTls (trailing first) with
      | false => exact leaves (nothing_pending_iff noDirective pendingTls)
      | true =>
          have some_ := (effect.set pendingTls).2
          cases ownTls : hasTls own with
          | true =>
              rw [(tlsTaker.set ownTls).1] at some_
              cases some_
          | false =>
              rw [← tlsTaker.kept ownTls, tlsAlone.kept ownTls] at some_
              cases some_
  | false =>
      have both : (hasTls (trailing first) && hasTls second) = true := by
        by_contra notBoth
        exact blocked ⟨hasBlock, Bool.eq_false_iff.mpr notBoth⟩
      obtain ⟨pendingTls, ownTls⟩ := Bool.and_eq_true_iff.mp both
      have none_ := ((lines_settle secondLaid hasBlock joinedRun between stack).2.2.tls.set
        ownTls).1
      have some_ := (effect.set pendingTls).2
      rw [none_] at some_
      cases some_

/-- Nothing pending: the state is the initial one with sites on record. -/
theorem reset_of_trailing {firstRaws : List Str} {first : List Stmt}
    (firstLaid : Laid firstRaws first)
    (firstRun : parseLines parser 1 firstRaws .initial = .ok middle)
    (nothing : trailing first = []) : middle = ParserState.initial.withSites middle.sites := by
  obtain ⟨between, ⟨produced, stack, count⟩, effect⟩ := pending_at_end firstLaid firstRun
  rw [nothing] at count effect
  have empty : produced = [] := List.eq_nil_of_length_eq_zero count
  have noTls := effect.kept rfl
  rw [empty] at stack
  have blocks := between.blocks
  have site := between.site
  obtain ⟨sites, address, tls, directives, pendingBlocks⟩ := middle
  dsimp only at stack noTls blocks site
  rw [stack, noTls, blocks, site, ParserState.withSites, ParserState.initial, AList.empty_union]
  rfl

theorem joined_of_separable {firstRaws secondRaws : List Str} {first second : List Stmt}
    {final : ParserState} (firstLaid : Laid firstRaws first)
    (secondLaid : Laid secondRaws second)
    (firstRun : parseLines parser 1 firstRaws .initial = .ok middle)
    (secondRun : parseLines parser 1 secondRaws .initial = .ok final)
    (disjoint : ∀ key ∈ final.sites, key ∉ middle.sites) (separable : Separable first second) :
    ∃ joined, parseLines parser 1 secondRaws middle = .ok joined ∧
      joined.sites = final.sites ∪ middle.sites := by
  rcases separable with nothing | ⟨noBlock, notBoth⟩
  · have start := reset_of_trailing firstLaid firstRun nothing
    refine ⟨final.withSites middle.sites, ?_, rfl⟩
    rw [start]
    exact parseLines_iff.mpr (readKinds_withSites _ (parseLines_iff.mp secondRun) disjoint)
  · obtain ⟨between, _, effect⟩ := pending_at_end firstLaid firstRun
    have clear : hasTls second = true → middle.currentSiteTls = none := by
      intro ownTls
      rw [ownTls, Bool.and_true] at notBoth
      exact effect.kept notBoth
    obtain ⟨joined, joinedRun⟩ :=
      lines_transfer secondLaid noBlock secondRun between_initial between clear
    obtain ⟨pending, stack⟩ := between.stack
    refine ⟨joined, joinedRun, ?_⟩
    rw [(lines_settle secondLaid noBlock joinedRun between stack).2.1,
      (lines_settle secondLaid noBlock secondRun between_initial rfl).2.1, ParserState.initial,
      AList.empty_union]

end Texts

/-- Two accepted texts give the union of their sites together exactly when they are separable. -/
theorem union_iff_separable {parser : UriParser} {first second : Str} {one two : Config}
    {firstStmts secondStmts : List Stmt}
    (firstAccepted : Config.fromStr parser first = .ok one)
    (secondAccepted : Config.fromStr parser second = .ok two)
    (firstLaid : Laid (lines first) firstStmts) (secondLaid : Laid (lines second) secondStmts)
    (disjoint : one.sites.Disjoint two.sites)
    (valid : validateListenSockets ⟨one.sites ∪ two.sites⟩ = .ok ()) :
    (∃ config, Config.fromStr parser (first ++ '\n' :: second) = .ok config ∧
      config.sites.entries.Perm (one.sites ∪ two.sites).entries) ↔
        Separable firstStmts secondStmts := by
  obtain ⟨middle, firstRun, rfl, _⟩ := fromStr_iff.mp firstAccepted
  obtain ⟨final, secondRun, rfl, _⟩ := fromStr_iff.mp secondAccepted
  have apart : ∀ key ∈ final.sites, key ∉ middle.sites :=
    fun key inSecond inFirst => disjoint key inFirst inSecond
  have comm := AList.union_comm_of_disjoint disjoint
  constructor
  · rintro ⟨config, accepted, same⟩
    obtain ⟨joined, joinedRun, rfl, _⟩ := fromStr_iff.mp accepted
    refine separable_of_kept firstLaid secondLaid firstRun secondRun
      ((feed_iff firstRun).mp joinedRun) fun key site known => ?_
    rw [AList.perm_lookup (same.trans comm)]
    exact AList.mem_lookup_union.mpr (Or.inl known)
  · intro separable
    obtain ⟨joined, joinedRun, sites⟩ :=
      joined_of_separable firstLaid secondLaid firstRun secondRun apart separable
    have validJoined : validateListenSockets ⟨final.sites ∪ middle.sites⟩ = .ok () := by
      refine validateListenSockets_iff.mpr ((validateListenSockets_iff.mp valid).perm ?_)
      rw [Config.values, Config.values]
      exact comm.symm.map _
    refine ⟨⟨joined.sites⟩, fromStr_iff.mpr ⟨joined, (feed_iff firstRun).mpr joinedRun, rfl, ?_⟩, ?_⟩
    · rwa [sites]
    · rw [sites]
      exact comm.symm

/-! ## A line between two sites -/

def oneSiteText (address : Str) : Str := join ['\n'] [address ++ " \x7b".toList, ['\x7d']]

def oneSite (address : Str) (directives : List Directive) : Config :=
  ⟨(∅ : AList fun _ : Str => SiteConfig).insert address ⟨address, directives, none⟩⟩

def oneSiteLayout (address : Str) : List Stmt := [.block address [['\x7b']] []]

theorem oneSite_accepted_a :
    Config.fromStr plainUriParser (oneSiteText "a:80".toList) = .ok (oneSite "a:80".toList []) := rfl

theorem oneSite_laid_a :
    Laid (lines (oneSiteText "a:80".toList)) (oneSiteLayout "a:80".toList) := by
  have spelled : lines (oneSiteText "a:80".toList) =
      ["a:80 \x7b".toList, ['\x7d']] := rfl
  have laid : Laid ["a:80 \x7b".toList, ['\x7d']] (oneSiteLayout "a:80".toList) :=
    .block rfl rfl .nil .nil
  exact spelled ▸ laid

/-- A directive line before a site ends up in the site. -/
theorem outside_line_taken :
    Config.fromStr plainUriParser "respond 200".toList = .ok ⟨∅⟩ ∧
      Config.fromStr plainUriParser (oneSiteText "a:80".toList) = .ok (oneSite "a:80".toList []) ∧
      Laid (lines "respond 200".toList) [.line "respond".toList ["200".toList]] ∧
      Laid (lines (oneSiteText "a:80".toList)) (oneSiteLayout "a:80".toList) ∧
      validateListenSockets ⟨∅ ∪ (oneSite "a:80".toList []).sites⟩ = .ok () ∧
      ¬ ∃ config, Config.fromStr plainUriParser
          ("respond 200".toList ++ '\n' :: oneSiteText "a:80".toList) = .ok config ∧
        config.sites.entries.Perm
          ((∅ : AList fun _ : Str => SiteConfig) ∪ (oneSite "a:80".toList []).sites).entries := by
  have together : Config.fromStr plainUriParser
      ("respond 200".toList ++ '\n' :: oneSiteText "a:80".toList) =
      .ok (oneSite "a:80".toList [.respond 200 []]) := rfl
  refine ⟨rfl, oneSite_accepted_a, .line rfl .nil, oneSite_laid_a, rfl, ?_⟩
  rintro ⟨config, accepted, same⟩
  rw [together] at accepted
  obtain rfl := Except.ok.inj accepted
  obtain entry := List.perm_singleton.mp same
  cases entry

theorem union_iff_separable_sites :
    ∃ config, Config.fromStr plainUriParser
        (oneSiteText "a:80".toList ++ '\n' :: oneSiteText "b:80".toList) = .ok config ∧
      config.sites.entries.Perm
        ((oneSite "a:80".toList []).sites ∪ (oneSite "b:80".toList []).sites).entries := by
  have accepted : Config.fromStr plainUriParser (oneSiteText "b:80".toList) =
      .ok (oneSite "b:80".toList []) := rfl
  have spelled : lines (oneSiteText "b:80".toList) = ["b:80 \x7b".toList, ['\x7d']] := rfl
  have laid : Laid ["b:80 \x7b".toList, ['\x7d']] (oneSiteLayout "b:80".toList) :=
    .block rfl rfl .nil .nil
  have disjoint : (oneSite "a:80".toList []).sites.Disjoint (oneSite "b:80".toList []).sites := by
    intro key isFirst isSecond
    obtain rfl := List.mem_singleton.mp isFirst
    exact absurd (List.mem_singleton.mp isSecond) (by decide)
  exact (union_iff_separable oneSite_accepted_a accepted oneSite_laid_a (spelled ▸ laid)
    disjoint rfl).mpr (Or.inl rfl)

end TinyProxy
