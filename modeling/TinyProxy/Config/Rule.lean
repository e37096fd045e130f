import TinyProxy.Config.Acceptance
import TinyProxy.Config.Tokens

/-!
# Invariants of the configuration parser

What holds of all that an accepted text builds: the pieces that single lines
make are checked once, and the stacks carry them to the sites.
-/

set_option autoImplicit false

namespace TinyProxy

open Rust Http

/-- Predicates on the pieces of a configuration that the parser keeps, for texts whose lines
are all of some kind. -/
structure ParserRule (parser : UriParser) where
  line : LineKind → Prop
  address : Str → Prop
  tls : TlsConfig → Prop
  block : PendingBlock → Prop
  directive : Directive → Prop
  opens : ∀ {head : Str} {rest : List Str}, line (.opener (head :: rest)) →
    address head ∧ block (pendingBlock head (blockArgs rest))
  tlsLine : ∀ {args : List Str} {number : Nat} {current : Option TlsConfig} {given : TlsConfig},
    line (.simple ("tls".toList :: args)) → tlsSetting args number current = .ok given →
      tls given
  authLine : ∀ {name : Str} {args : List Str} {number : Nat} {before : PendingBlock}
    {pending pending' : ForwardAuthBlock}, line (.simple (name :: args)) → block before →
      before.forwardAuth = some pending →
      forwardAuthSetting name args number pending = .ok pending' →
      block { before with forwardAuth := some pending' }
  proxyLine : ∀ {name : Str} {args : List Str} {number : Nat} {before after : PendingBlock},
    line (.simple (name :: args)) → block before →
      reverseProxySetting name args number before = .ok after → block after
  directiveLine : ∀ {name : Str} {args : List Str} {written : Directive},
    line (.simple (name :: args)) → Written name args written → directive written
  closes : ∀ {finished : List Directive} {number : Nat} {pending : PendingBlock}
    {completed : Directive}, block pending → (∀ inside ∈ finished, directive inside) →
      completeBlock parser pending finished number = .ok completed → directive completed

section Rule
variable {parser : UriParser} (rule : ParserRule parser)

structure ParserRule.Site (site : SiteConfig) : Prop where
  address : rule.address site.address
  tls : ∀ tls ∈ site.tls, rule.tls tls
  directives : ∀ directive ∈ site.directives, rule.directive directive

structure ParserRule.Holds (s : ParserState) : Prop where
  sites : ∀ entry ∈ s.sites.entries, rule.Site entry.2
  address : ∀ address ∈ s.currentSiteAddress, rule.address address
  tls : ∀ tls ∈ s.currentSiteTls, rule.tls tls
  directives : ∀ directives ∈ s.directiveStack, ∀ directive ∈ directives,
    rule.directive directive
  blocks : ∀ block ∈ s.blockStack, rule.block block

variable {rule} {s s' : ParserState} {number : Nat}

theorem ParserRule.holds_initial : rule.Holds .initial := by
  constructor
  · exact fun _ member => absurd member List.not_mem_nil
  · simp [ParserState.initial]
  · simp [ParserState.initial]
  · simp [ParserState.initial]
  · simp [ParserState.initial]

theorem ParserRule.Holds.push {directive : Directive} (holds : rule.Holds s)
    (isGood : rule.directive directive) (pushed : pushDirective directive s = .ok s') :
    rule.Holds s' := by
  unfold pushDirective at pushed
  split at pushed
  next => cases pushed
  next current outer stack =>
    obtain rfl := Except.ok.inj pushed
    have before := holds.directives
    rw [stack, List.forall_mem_cons] at before
    refine { holds with directives := List.forall_mem_cons.mpr ⟨?_, before.2⟩ }
    exact List.forall_mem_append.mpr ⟨before.1, List.forall_mem_singleton.mpr isGood⟩

theorem ParserRule.Holds.simple {name : Str} {args : List Str} (holds : rule.Holds s)
    (isLine : rule.line (.simple (name :: args)))
    (run : simpleLine name args number s = .ok s') : rule.Holds s' := by
  have regular : regularLine name args number s = .ok s' → rule.Holds s' := by
    intro run
    obtain ⟨directive, parsed, pushed⟩ := bind_ok run
    exact holds.push (rule.directiveLine isLine (written_of_parsed parsed)) pushed
  unfold simpleLine at run
  split at run
  next block blocks stack =>
    have before := holds.blocks
    rw [stack, List.forall_mem_cons] at before
    split at run
    · split at run
      next => cases run
      next pending held =>
        obtain ⟨pending', set, same⟩ := bind_ok run
        obtain rfl := Except.ok.inj same
        exact { holds with
          blocks := List.forall_mem_cons.mpr
            ⟨rule.authLine isLine before.1 held set, before.2⟩ }
    split at run
    · obtain ⟨block', set, same⟩ := bind_ok run
      obtain rfl := Except.ok.inj same
      exact { holds with
        blocks := List.forall_mem_cons.mpr ⟨rule.proxyLine isLine before.1 set, before.2⟩ }
    · exact regular run
  next =>
    split at run
    next isTls =>
      subst isTls
      obtain ⟨tls, set, same⟩ := bind_ok run
      obtain rfl := Except.ok.inj same
      have given := rule.tlsLine isLine set
      exact { holds with tls := by simpa using given }
    next => exact regular run

theorem ParserRule.Holds.opener {head : Str} {rest : List Str} (holds : rule.Holds s)
    (isLine : rule.line (.opener (head :: rest))) :
    rule.Holds (openBlock (head :: rest) s) := by
  obtain ⟨address, block⟩ := rule.opens isLine
  rw [openBlock]
  split
  · exact { holds with address := by simpa using address }
  · refine { holds with directives := ?_, blocks := ?_ }
    · exact List.forall_mem_cons.mpr ⟨by simp, holds.directives⟩
    · exact List.forall_mem_cons.mpr ⟨block, holds.blocks⟩

/-- A closing brace completes a block or a site. -/
theorem ParserRule.Holds.closer (holds : rule.Holds s)
    (run : closeBlock parser number s = .ok s') : rule.Holds s' := by
  unfold closeBlock at run
  split at run
  next finished parent outer stack =>
    split at run
    next => cases run
    next block blocks pending =>
      obtain ⟨directive, completed, same⟩ := bind_ok run
      obtain rfl := Except.ok.inj same
      have directives := holds.directives
      have before := holds.blocks
      rw [stack, List.forall_mem_cons, List.forall_mem_cons] at directives
      rw [pending, List.forall_mem_cons] at before
      have isGood := rule.closes before.1 directives.1 completed
      refine { holds with
        blocks := before.2
        directives := List.forall_mem_cons.mpr ⟨?_, directives.2.2⟩ }
      exact List.forall_mem_append.mpr
        ⟨directives.2.1, List.forall_mem_singleton.mpr isGood⟩
  next =>
    unfold closeSite at run
    split at run
    next =>
      obtain rfl := Except.ok.inj run
      exact holds
    next address here =>
      split at run
      next => cases run
      next directives outer stack =>
        split at run
        next => cases run
        next fresh =>
          obtain rfl := Except.ok.inj run
          have before := holds.directives
          rw [stack, List.forall_mem_cons] at before
          have site : rule.Site ⟨address, directives, s.currentSiteTls⟩ :=
            ⟨holds.address address here, holds.tls, before.1⟩
          constructor
          · rw [AList.entries_insert_of_notMem fresh]
            exact List.forall_mem_cons.mpr ⟨site, holds.sites⟩
          · simp
          · simp
          · exact List.forall_mem_cons.mpr ⟨by simp, before.2⟩
          · exact holds.blocks

theorem ParserRule.Holds.line {raw : Str} (holds : rule.Holds s)
    (isLine : rule.line (lineKind raw)) (run : parseLine parser number raw s = .ok s') :
    rule.Holds s' := by
  cases kind : lineKind raw with
  | skip =>
      rw [parseLine_skip kind run]
      exact holds
  | opener parts =>
      obtain ⟨head, rest, rfl⟩ := List.exists_cons_of_ne_nil (lineKind_opener_ne_nil kind)
      rw [parseLine_opener kind run]
      exact holds.opener (kind ▸ isLine)
  | closer => exact holds.closer (parseLine_closer kind run)
  | simple parts =>
      obtain ⟨name, args, rfl⟩ := List.exists_cons_of_ne_nil (lineKind_simple_ne_nil kind)
      exact holds.simple (kind ▸ isLine) (parseLine_simple kind run)

theorem ParserRule.Holds.lines {raws : List Str} : ∀ {number : Nat} {s : ParserState},
    rule.Holds s → (∀ raw ∈ raws, rule.line (lineKind raw)) →
      parseLines parser number raws s = .ok s' → rule.Holds s' := by
  induction raws with
  | nil =>
      intro number s holds _ run
      obtain rfl := Except.ok.inj run
      exact holds
  | cons raw rest ih =>
      intro number s holds isLine run
      obtain ⟨next, first, later⟩ := bind_ok run
      obtain ⟨isFirst, areLater⟩ := List.forall_mem_cons.mp isLine
      exact ih (holds.line isFirst first) areLater later

/-- All sites of an accepted text obey the rule. -/
theorem ParserRule.accepted {content : Str} {config : Config}
    (isLine : ∀ raw ∈ Rust.lines content, rule.line (lineKind raw))
    (accepted : Config.fromStr parser content = .ok config) :
    ∀ site ∈ config.values, rule.Site site := by
  obtain ⟨s, run, checked⟩ := bind_ok accepted
  obtain ⟨_, _, same⟩ := bind_ok checked
  obtain rfl := Except.ok.inj same
  have holds := ParserRule.holds_initial.lines isLine run
  intro site member
  obtain ⟨entry, found, rfl⟩ := List.mem_map.mp member
  exact holds.sites entry found

end Rule

end TinyProxy
