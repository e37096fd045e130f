import TinyProxy.Config.Independence
import TinyProxy.Config.RoundTrip

/-!
# The order of the sites in a text

A text of site blocks is read block by block.  What a block adds does not depend
on the blocks before it, except that its address must be new.
-/

set_option autoImplicit false

namespace TinyProxy

open Rust Http

/-- The lines of one site, with their statements. -/
structure SiteBlock where
  opening : Str
  inner : List Str
  closing : Str
  head : Str
  args : List Str
  body : List Stmt
  opens : lineKind opening = .opener (head :: args)
  closes : lineKind closing = .closer
  laid : Laid inner body

def SiteBlock.lines (block : SiteBlock) : List Str :=
  block.opening :: (block.inner ++ [block.closing])

/-- The text is the blocks one after the other, with blank lines and comments anywhere. -/
def Spells (content : Str) (blocks : List SiteBlock) : Prop :=
  kinds (lines content) = kinds (blocks.flatMap SiteBlock.lines)

/-- Between two sites, with nothing pending. -/
def ParserState.onRecord (sites : AList fun _ : Str => SiteConfig) : ParserState :=
  { ParserState.initial with sites := sites }

def ParserState.inSite (head : Str) (sites : AList fun _ : Str => SiteConfig) : ParserState :=
  { ParserState.onRecord sites with currentSiteAddress := some head }

section Blocks
variable {parser : UriParser} {s' : ParserState} {sites : AList fun _ : Str => SiteConfig}

/-- The site that the block is on its own. -/
def SiteBlock.Makes (parser : UriParser) (block : SiteBlock) (site : SiteConfig) : Prop :=
  ∃ inside directives, parseLines parser 2 block.inner (.inSite block.head ∅) = .ok inside ∧
    inside.directiveStack = [directives] ∧
    site = ⟨block.head, directives, inside.currentSiteTls⟩

theorem between_onRecord : Between (.onRecord sites) := ⟨⟨[], rfl⟩, rfl, rfl⟩

/-- The body of a site runs alike whatever sites are on record. -/
theorem inner_moves {block : SiteBlock} {inside : ParserState}
    {others : AList fun _ : Str => SiteConfig}
    (run : parseLines parser 2 block.inner (.inSite block.head sites) = .ok inside) :
    parseLines parser 2 block.inner (.inSite block.head others) =
      .ok (inside.onSite others (some block.head)) := by
  have moved := @laid_onSite parser others (some block.head) _ _ block.laid
    (Option.some_ne_none _) _ _ _ run (Option.some_ne_none _) (List.cons_ne_nil _ _)
  exact moved

/-- Where the body of a site ends. -/
theorem inner_ends {block : SiteBlock} {inside : ParserState}
    (run : parseLines parser 2 block.inner (.inSite block.head sites) = .ok inside) :
    (∃ directives, inside.directiveStack = [directives]) ∧
      inside.currentSiteAddress = some block.head ∧ inside.sites = sites ∧
      inside.blockStack = [] := by
  obtain ⟨produced, grown, _⟩ :=
    laid_run block.laid run (Option.some_ne_none _) (List.cons_ne_nil _ _)
  exact ⟨⟨produced, grown.stack [] [] rfl⟩, grown.site, grown.sites,
    List.map_eq_nil_iff.mp grown.headings⟩

theorem closeBlock_onRecord {block : SiteBlock} {inside : ParserState}
    {directives : List Directive} {line : Nat}
    (run : parseLines parser 2 block.inner (.inSite block.head sites) = .ok inside)
    (stack : inside.directiveStack = [directives]) :
    closeBlock parser line inside = .ok s' ↔ block.head ∉ sites ∧
      s' = .onRecord (sites.insert block.head
        ⟨block.head, directives, inside.currentSiteTls⟩) := by
  obtain ⟨_, site, recorded, noBlocks⟩ := inner_ends run
  rw [closeBlock, stack]
  dsimp only
  rw [closeSite, site, stack, recorded]
  dsimp only
  by_cases known : block.head ∈ sites
  · simp [known]
  · rw [if_neg known, noBlocks, Except.ok.injEq]
    exact ⟨fun same => ⟨known, same.symm⟩, fun both => both.2.symm⟩

/-- One block adds the site that it makes on its own. -/
theorem block_run_iff {block : SiteBlock} :
    readKinds parser (kinds block.lines) (.onRecord sites) = .ok s' ↔
      ∃ site, block.Makes parser site ∧ block.head ∉ sites ∧
        s' = .onRecord (sites.insert block.head site) := by
  have split : parseLines parser 1 block.lines (.onRecord sites) =
      (parseLines parser 2 block.inner (.inSite block.head sites) >>= fun inside =>
        closeBlock parser (2 + block.inner.length) inside >>=
          parseLines parser (2 + block.inner.length + 1) []) := by
    rw [SiteBlock.lines, parseLines_block_eq block.opens block.closes,
      openBlock_site between_onRecord]
    rfl
  rw [← @parseLines_iff parser s' block.lines 1, split]
  constructor
  · intro run
    obtain ⟨inside, bodyRun, later⟩ := bind_ok run
    obtain ⟨closed, close, rest⟩ := bind_ok later
    obtain rfl := Except.ok.inj rest
    obtain ⟨directives, stack⟩ := (inner_ends bodyRun).1
    obtain ⟨fresh, rfl⟩ := (closeBlock_onRecord bodyRun stack).mp close
    exact ⟨_, ⟨_, directives, inner_moves bodyRun, stack, rfl⟩, fresh, rfl⟩
  · rintro ⟨site, ⟨inside, directives, bodyRun, stack, rfl⟩, fresh, rfl⟩
    have moved := @inner_moves parser ∅ block inside sites bodyRun
    have movedStack : (inside.onSite sites (some block.head)).directiveStack = [directives] := stack
    rw [moved]
    change (closeBlock parser _ (inside.onSite sites (some block.head)) >>= _) = _
    rw [(closeBlock_onRecord moved movedStack).mpr ⟨fresh, rfl⟩]
    rfl

theorem SiteBlock.Makes.address {block : SiteBlock} {site : SiteConfig}
    (makes : block.Makes parser site) : site.address = block.head := by
  obtain ⟨_, _, _, _, rfl⟩ := makes
  rfl

theorem insertSites_cons (site : SiteConfig) (rest : List SiteConfig) :
    insertSites sites (site :: rest) = insertSites (sites.insert site.address site) rest := rfl

/-- The blocks are read exactly when each makes a site and no address comes twice. -/
theorem blocks_run_iff {blocks : List SiteBlock} : ∀ {sites : AList fun _ : Str => SiteConfig},
    readKinds parser (kinds (blocks.flatMap SiteBlock.lines)) (.onRecord sites) = .ok s' ↔
      ∃ made, List.Forall₂ (SiteBlock.Makes parser) blocks made ∧
        (made.map SiteConfig.address).Nodup ∧ (∀ site ∈ made, site.address ∉ sites) ∧
        s' = .onRecord (insertSites sites made) := by
  induction blocks with
  | nil =>
      intro sites
      constructor
      · intro run
        obtain rfl := Except.ok.inj run
        exact ⟨[], .nil, List.nodup_nil, by simp, rfl⟩
      · rintro ⟨made, each, _, _, rfl⟩
        cases each
        rfl
  | cons block rest ih =>
      intro sites
      rw [List.flatMap_cons, kinds_append, readKinds_append]
      constructor
      · rintro ⟨middle, first, later⟩
        obtain ⟨site, makes, fresh, rfl⟩ := block_run_iff.mp first
        obtain ⟨made, each, distinct, apart, rfl⟩ := ih.mp later
        have address := makes.address
        refine ⟨site :: made, .cons makes each, ?_, ?_, by rw [insertSites_cons, address]⟩
        · rw [List.map_cons, List.nodup_cons]
          refine ⟨fun member => ?_, distinct⟩
          obtain ⟨other, isMade, same⟩ := List.mem_map.mp member
          exact apart other isMade ((AList.mem_insert _).mpr (Or.inl (same.trans address)))
        · refine List.forall_mem_cons.mpr ⟨address ▸ fresh, fun other isMade known => ?_⟩
          exact apart other isMade ((AList.mem_insert _).mpr (Or.inr known))
      · rintro ⟨made, each, distinct, apart, rfl⟩
        cases each with
        | @cons _ site _ later makes each =>
            have address := makes.address
            obtain ⟨fresh, apart⟩ := List.forall_mem_cons.mp apart
            rw [List.map_cons, List.nodup_cons] at distinct
            refine ⟨_, block_run_iff.mpr ⟨site, makes, address ▸ fresh, rfl⟩,
              ih.mpr ⟨later, each, distinct.2, fun other isMade known => ?_, ?_⟩⟩
            · rcases (AList.mem_insert _).mp known with same | before
              · exact distinct.1 (List.mem_map.mpr ⟨other, isMade, same.trans address.symm⟩)
              · exact apart other isMade before
            · rw [insertSites_cons, address]

/-- New sites are put in front of the others. -/
theorem insertSites_entries : ∀ {made : List SiteConfig} {sites : AList fun _ : Str => SiteConfig},
    (made.map SiteConfig.address).Nodup → (∀ site ∈ made, site.address ∉ sites) →
    (insertSites sites made).entries.Perm
      (made.map (fun site => ⟨site.address, site⟩) ++ sites.entries) := by
  intro made
  induction made with
  | nil => exact fun _ _ => List.Perm.refl _
  | cons site rest ih =>
      intro sites distinct fresh
      obtain ⟨apart, others⟩ := List.nodup_cons.mp distinct
      obtain ⟨first, later⟩ := List.forall_mem_cons.mp fresh
      have entries := @ih (sites.insert site.address site) others fun other member known => by
        rcases (AList.mem_insert _).mp known with same | before
        · exact apart (List.mem_map.mpr ⟨other, member, same⟩)
        · exact later other member before
      rw [AList.entries_insert_of_notMem first] at entries
      exact entries.trans List.perm_middle

theorem fromStr_blocks_iff {content : Str} {blocks : List SiteBlock} {config : Config}
    (spells : Spells content blocks) :
    Config.fromStr parser content = .ok config ↔
      ∃ made, List.Forall₂ (SiteBlock.Makes parser) blocks made ∧
        (made.map SiteConfig.address).Nodup ∧ config = ⟨insertSites ∅ made⟩ ∧
        validateListenSockets config = .ok () := by
  have run : ∀ s, parseLines parser 1 (Rust.lines content) .initial = .ok s ↔
      readKinds parser (kinds (blocks.flatMap SiteBlock.lines)) (.onRecord ∅) = .ok s := by
    intro s
    rw [parseLines_iff, spells]
    rfl
  rw [fromStr_iff]
  constructor
  · rintro ⟨s, read, rfl, valid⟩
    obtain ⟨made, each, distinct, _, rfl⟩ := blocks_run_iff.mp ((run s).mp read)
    exact ⟨made, each, distinct, rfl, valid⟩
  · rintro ⟨made, each, distinct, rfl, valid⟩
    refine ⟨_, (run _).mpr (blocks_run_iff.mpr ⟨made, each, distinct, ?_, rfl⟩), rfl, valid⟩
    exact fun _ _ => AList.notMem_empty _

/-- A text is accepted in any order of its sites or in none, with the same sites. -/
theorem sites_in_any_order {content other : Str} {blocks others : List SiteBlock}
    {config : Config} (spells : Spells content blocks) (spellsOther : Spells other others)
    (same : others.Perm blocks) (accepted : Config.fromStr parser content = .ok config) :
    ∃ config', Config.fromStr parser other = .ok config' ∧
      config'.sites.entries.Perm config.sites.entries := by
  obtain ⟨made, each, distinct, rfl, valid⟩ := (fromStr_blocks_iff spells).mp accepted
  obtain ⟨made', each', sameMade⟩ := List.perm_comp_forall₂ same each
  have distinct' := (sameMade.map SiteConfig.address).nodup_iff.mpr distinct
  have fresh : ∀ made : List SiteConfig, ∀ site ∈ made,
      site.address ∉ (∅ : AList fun _ : Str => SiteConfig) := fun _ _ _ => AList.notMem_empty _
  have entries : (insertSites ∅ made').entries.Perm (insertSites ∅ made).entries := by
    refine (insertSites_entries distinct' (fresh made')).trans ?_
    refine List.Perm.trans ?_ (insertSites_entries distinct (fresh made)).symm
    exact (sameMade.map _).append_right _
  refine ⟨⟨insertSites ∅ made'⟩, (fromStr_blocks_iff spellsOther).mpr
    ⟨made', each', distinct', rfl, ?_⟩, entries⟩
  refine validateListenSockets_iff.mpr ((validateListenSockets_iff.mp valid).perm ?_)
  rw [Config.values, Config.values]
  exact entries.map _

end Blocks

/-! ## Two sites -/

def respondingBlock : SiteBlock where
  opening := "a:80 \x7b".toList
  inner := ["respond 200 ok".toList]
  closing := ['\x7d']
  head := "a:80".toList
  args := [['\x7b']]
  body := [.line "respond".toList ["200".toList, "ok".toList]]
  opens := rfl
  closes := rfl
  laid := .line rfl .nil

def securedBlock : SiteBlock where
  opening := "b:443 \x7b".toList
  inner := ["tls c k".toList]
  closing := ['\x7d']
  head := "b:443".toList
  args := [['\x7b']]
  body := [.line "tls".toList [['c'], ['k']]]
  opens := rfl
  closes := rfl
  laid := .line rfl .nil

def orderedText : Str :=
  "a:80 \x7b\n  respond 200 ok\n\x7d\n\n# secured\nb:443 \x7b\n  tls c k\n\x7d".toList

def reversedText : Str :=
  "b:443 \x7b\n  tls c k\n\x7d\na:80 \x7b\n  respond 200 ok\n\x7d".toList

def orderedConfig : Config :=
  ⟨insertSites ∅ [⟨"a:80".toList, [.respond 200 "ok".toList], none⟩,
    ⟨"b:443".toList, [], some ⟨['c'], ['k']⟩⟩]⟩

theorem sites_in_any_order_two :
    Config.fromStr plainUriParser orderedText = .ok orderedConfig ∧
      ∃ config', Config.fromStr plainUriParser reversedText = .ok config' ∧
        config'.sites.entries.Perm orderedConfig.sites.entries := by
  have accepted : Config.fromStr plainUriParser orderedText = .ok orderedConfig := rfl
  have spells : Spells orderedText [respondingBlock, securedBlock] := rfl
  have spellsOther : Spells reversedText [securedBlock, respondingBlock] := rfl
  exact ⟨accepted, sites_in_any_order spells spellsOther (List.Perm.swap ..) accepted⟩

end TinyProxy
