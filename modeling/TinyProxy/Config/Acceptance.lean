import TinyProxy.Config.Conservation
import TinyProxy.Rust.Words

/-!
# What an accepted text looks like

Between sites the parser takes any line.  A closing brace there closes nothing,
and nothing is asked of the parser's stacks when the text ends: a site block
that is still open then is not in the configuration.  Every text is scanned in
one way into lines outside the sites, closed site blocks and an open rest.
-/

set_option autoImplicit false

namespace TinyProxy

open Rust Http

/-! ## Scanning a text -/

/-- Inside a block that the lines do not close. -/
inductive Unclosed : List Str → Prop where
  | laid {raws : List Str} {stmts : List Stmt} (inside : Laid raws stmts) : Unclosed raws
  | nested {front inner : List Str} {stmts : List Stmt} {opening : Str} {parts : List Str}
      (before : Laid front stmts) (opens : lineKind opening = .opener parts)
      (within : Unclosed inner) : Unclosed (front ++ opening :: inner)

/-- The closed site blocks of a text, and the rest from a site block that stays open. -/
inductive Scanned : List Str → List Stmt → List Str → Prop where
  | nil : Scanned [] [] []
  | outside {raw : Str} {raws tail : List Str} {blocks : List Stmt}
      (kind : ∀ parts, lineKind raw ≠ .opener parts) (rest : Scanned raws blocks tail) :
      Scanned (raw :: raws) blocks tail
  | site {opening closing head : Str} {args inner raws tail : List Str} {body blocks : List Stmt}
      (opens : lineKind opening = .opener (head :: args)) (closes : lineKind closing = .closer)
      (inside : Laid inner body) (rest : Scanned raws blocks tail) :
      Scanned (opening :: (inner ++ closing :: raws)) (.block head args body :: blocks) tail
  | unclosed {opening : Str} {parts inner : List Str} (opens : lineKind opening = .opener parts)
      (within : Unclosed inner) : Scanned (opening :: inner) [] (opening :: inner)

theorem lineKind_opener_ne_nil {raw : Str} {parts : List Str}
    (kind : lineKind raw = .opener parts) : parts ≠ [] := by
  unfold lineKind at kind
  dsimp only at kind
  split at kind
  next => cases kind
  next content =>
    split at kind
    next =>
      obtain rfl := LineKind.opener.inj kind
      exact splitWhitespace_trim (not_or.mp content).1
    next => split at kind <;> cases kind

theorem lineKind_simple_ne_nil {raw : Str} {parts : List Str}
    (kind : lineKind raw = .simple parts) : parts ≠ [] := by
  unfold lineKind at kind
  dsimp only at kind
  split at kind
  next => cases kind
  next content =>
    split at kind
    next => cases kind
    next =>
      split at kind
      next => cases kind
      next =>
        obtain rfl := LineKind.simple.inj kind
        exact splitWhitespace_trim (not_or.mp content).1

theorem Laid.append {front back : List Str} {first second : List Stmt}
    (start : Laid front first) (finish : Laid back second) :
    Laid (front ++ back) (first ++ second) := by
  induction start with
  | nil => exact finish
  | skip kind _ ih => exact .skip kind ih
  | line kind _ ih => exact .line kind ih
  | block opens closes inside _ _ restIh =>
      rw [List.cons_append, List.append_assoc, List.cons_append]
      exact .block opens closes inside restIh

theorem Unclosed.append {front back : List Str} {stmts : List Stmt} (start : Laid front stmts)
    (finish : Unclosed back) : Unclosed (front ++ back) := by
  cases finish with
  | laid inside => exact .laid (start.append inside)
  | nested before opens within =>
      rw [← List.append_assoc]
      exact .nested (start.append before) opens within

/-- The lines up to the brace that closes the enclosing block, if one does. -/
theorem closed_or_unclosed : ∀ (count : Nat) (raws : List Str), raws.length ≤ count →
    (∃ inner stmts closing rest, raws = inner ++ closing :: rest ∧ Laid inner stmts ∧
      lineKind closing = .closer) ∨ Unclosed raws := by
  intro count
  induction count with
  | zero =>
      intro raws short
      obtain rfl := List.length_eq_zero_iff.mp (Nat.le_zero.mp short)
      exact Or.inr (.laid .nil)
  | succ count ih =>
      intro raws short
      cases raws with
      | nil => exact Or.inr (.laid .nil)
      | cons raw raws =>
          have shorter : raws.length ≤ count := Nat.le_of_succ_le_succ short
          -- One more statement in front of what follows changes neither outcome.
          have prepend : ∀ {first : List Str} {stmts : List Stmt} {back : List Str},
              Laid first stmts → back.length ≤ count →
              (∃ inner stmts closing rest, first ++ back = inner ++ closing :: rest ∧
                Laid inner stmts ∧ lineKind closing = .closer) ∨ Unclosed (first ++ back) := by
            intro first stmts back laid small
            rcases ih back small with ⟨inner, more, closing, rest, rfl, inside, closes⟩ | open_
            · exact Or.inl ⟨first ++ inner, stmts ++ more, closing, rest,
                (List.append_assoc ..).symm, laid.append inside, closes⟩
            · exact Or.inr (.append laid open_)
          cases kind : lineKind raw with
          | skip => exact prepend (.skip kind .nil) shorter
          | closer => exact Or.inl ⟨[], [], raw, raws, rfl, .nil, kind⟩
          | simple parts =>
              obtain ⟨name, args, rfl⟩ :=
                List.exists_cons_of_ne_nil (lineKind_simple_ne_nil kind)
              exact prepend (.line kind .nil) shorter
          | opener parts =>
              obtain ⟨head, args, rfl⟩ :=
                List.exists_cons_of_ne_nil (lineKind_opener_ne_nil kind)
              rcases ih raws shorter with ⟨inner, body, closing, rest, rfl, inside, closes⟩ | open_
              · have block : Laid (raw :: (inner ++ [closing])) [.block head args body] :=
                  .block kind closes inside .nil
                have small : rest.length ≤ count := by
                  rw [List.length_append, List.length_cons] at shorter
                  omega
                have whole := prepend block small
                rwa [List.cons_append, List.append_assoc, List.singleton_append] at whole
              · exact Or.inr (.nested .nil kind open_)

theorem scanned_exists : ∀ (count : Nat) (raws : List Str), raws.length ≤ count →
    ∃ blocks tail, Scanned raws blocks tail := by
  intro count
  induction count with
  | zero =>
      intro raws short
      obtain rfl := List.length_eq_zero_iff.mp (Nat.le_zero.mp short)
      exact ⟨[], [], .nil⟩
  | succ count ih =>
      intro raws short
      cases raws with
      | nil => exact ⟨[], [], .nil⟩
      | cons raw raws =>
          have shorter : raws.length ≤ count := Nat.le_of_succ_le_succ short
          by_cases opener : ∃ parts, lineKind raw = .opener parts
          · obtain ⟨parts, kind⟩ := opener
            obtain ⟨head, args, rfl⟩ := List.exists_cons_of_ne_nil (lineKind_opener_ne_nil kind)
            rcases closed_or_unclosed raws.length raws (Nat.le_refl _) with
              ⟨inner, body, closing, rest, rfl, inside, closes⟩ | open_
            · rw [List.length_append, List.length_cons] at shorter
              obtain ⟨blocks, tail, scanned⟩ := ih rest (by omega)
              exact ⟨_, tail, .site kind closes inside scanned⟩
            · exact ⟨[], _, .unclosed kind open_⟩
          · obtain ⟨blocks, tail, scanned⟩ := ih raws shorter
            exact ⟨blocks, tail, .outside (fun parts kind => opener ⟨parts, kind⟩) scanned⟩

/-! ## Runs over a scanned text -/

section Runs
variable {parser : UriParser} {line : Nat} {s s' : ParserState}

theorem Grown.between {produced : List Directive} (grown : Grown s s' produced)
    (between : Between s) : Between s' := by
  obtain ⟨pending, stack⟩ := between.stack
  refine ⟨⟨pending ++ produced, grown.stack pending [] stack⟩, ?_, grown.site.trans between.site⟩
  have headings := grown.headings
  rw [ParserState.headings, ParserState.headings, between.blocks] at headings
  exact List.map_eq_nil_iff.mp headings

/-- Between sites a closing brace closes nothing. -/
theorem closeBlock_between (between : Between s) : closeBlock parser line s = .ok s := by
  obtain ⟨pending, stack⟩ := between.stack
  rw [closeBlock, stack]
  dsimp only
  rw [closeSite, between.site]

theorem parseLine_outside {raw : Str} (kind : ∀ parts, lineKind raw ≠ .opener parts)
    (between : Between s) (run : parseLine parser line raw s = .ok s') :
    Between s' ∧ s'.sites = s.sites := by
  cases known : lineKind raw with
  | skip =>
      obtain rfl := parseLine_skip known run
      exact ⟨between, rfl⟩
  | opener parts => exact absurd known (kind parts)
  | closer =>
      have closed := parseLine_closer known run
      rw [closeBlock_between between] at closed
      obtain rfl := Except.ok.inj closed
      exact ⟨between, rfl⟩
  | simple parts =>
      obtain ⟨name, args, rfl⟩ := List.exists_cons_of_ne_nil (lineKind_simple_ne_nil known)
      rcases simpleLine_grown (parseLine_simple known run) with
        ⟨_, grown⟩ | ⟨_, directive, _, grown⟩
      · exact ⟨grown.between between, grown.sites⟩
      · exact ⟨grown.between between, grown.sites⟩

/-- What stays open adds no site. -/
theorem unclosed_run {raws : List Str} (unclosed : Unclosed raws) :
    ∀ {line : Nat} {s s' : ParserState}, parseLines parser line raws s = .ok s' →
      s.currentSiteAddress ≠ none → s.directiveStack ≠ [] → s'.sites = s.sites := by
  induction unclosed with
  | laid inside =>
      intro line s s' run inSite nonempty
      obtain ⟨_, grown, _⟩ := laid_run inside run inSite nonempty
      exact grown.sites
  | nested before opens _ ih =>
      intro line s s' run inSite nonempty
      obtain ⟨middle, front, back⟩ := parseLines_append run
      obtain ⟨_, grown, _⟩ := laid_run before front inSite nonempty
      obtain ⟨opened, first, later⟩ := bind_ok back
      obtain rfl := parseLine_opener opens first
      obtain ⟨head, args, rfl⟩ := List.exists_cons_of_ne_nil (lineKind_opener_ne_nil opens)
      have middleSite : middle.currentSiteAddress ≠ none := grown.site ▸ inSite
      obtain ⟨stack, sites, site, _, _⟩ := openBlock_nested head args middleSite
      have kept := ih later (site ▸ middleSite) (stack ▸ List.cons_ne_nil _ _)
      rw [kept, sites, grown.sites]

def Stmt.head : Stmt → Str
  | .line name _ => name
  | .block head _ _ => head

/-- The site holds one directive for each directive statement of its block, after
those that were written before the block. -/
def Holds (site : SiteConfig) (body : List Stmt) : Prop :=
  ∃ pending produced, site.directives = pending ++ produced ∧
    produced.length = (directiveStmts none body).length ∧
    (KeepsBlocks body → List.Forall₂ Represents (directiveStmts none body) produced)

structure SitesAdded (blocks : List Stmt) (before after : AList fun _ : Str => SiteConfig) :
    Prop where
  kept : ∀ key site, before.lookup key = some site → after.lookup key = some site
  made : ∀ head args body, .block head args body ∈ blocks → ∃ site,
    after.lookup head = some site ∧ Holds site body
  only : ∀ key, key ∈ after → key ∈ before ∨ key ∈ blocks.map Stmt.head
  fresh : ∀ head ∈ blocks.map Stmt.head, head ∉ before
  once : (blocks.map Stmt.head).Nodup

theorem SitesAdded.refl (sites : AList fun _ : Str => SiteConfig) : SitesAdded [] sites sites :=
  ⟨fun _ _ => id, fun _ _ _ member => absurd member List.not_mem_nil, fun _ => Or.inl,
    fun _ member => absurd member List.not_mem_nil, List.nodup_nil⟩

theorem scanned_run {raws tail : List Str} {blocks : List Stmt}
    (scanned : Scanned raws blocks tail) : ∀ {line : Nat} {s s' : ParserState},
    parseLines parser line raws s = .ok s' → Between s →
      SitesAdded blocks s.sites s'.sites := by
  induction scanned with
  | nil =>
      intro line s s' run _
      obtain rfl := Except.ok.inj run
      exact .refl _
  | outside kind _ ih =>
      intro line s s' run between
      obtain ⟨next, first, later⟩ := bind_ok run
      obtain ⟨stillBetween, sites⟩ := parseLine_outside kind between first
      exact sites ▸ ih later stillBetween
  | unclosed opens within =>
      intro line s s' run between
      obtain ⟨opened, first, later⟩ := bind_ok run
      obtain rfl := parseLine_opener opens first
      obtain ⟨head, args, rfl⟩ := List.exists_cons_of_ne_nil (lineKind_opener_ne_nil opens)
      obtain ⟨pending, stack⟩ := between.stack
      rw [openBlock_site between] at later
      have sites := unclosed_run within later (Option.some_ne_none head)
        (stack ▸ List.cons_ne_nil pending [])
      rw [sites]
      exact .refl _
  | @site opening closing head args inner raws tail body blocks opens closes inside _ ih =>
      intro line s s' run between
      obtain ⟨pending, stack⟩ := between.stack
      obtain ⟨number, middle, produced, tls, later, fresh, rfl, count, _, represented⟩ :=
        siteBlock_run opens closes inside between stack run
      obtain ⟨kept, made, only, others, once⟩ := ih later ⟨⟨[], rfl⟩, rfl, rfl⟩
      have here := kept head _ (AList.lookup_insert s.sites)
      refine ⟨fun key site known => kept key site ?_, fun head' args' body' member => ?_,
        fun key found => ?_, fun key member => ?_, List.nodup_cons.mpr ⟨fun later => ?_, once⟩⟩
      · have other : key ≠ head := by
          rintro rfl
          exact fresh (AList.lookup_isSome.mp (by rw [known]; rfl))
        rw [AList.lookup_insert_ne other]
        exact known
      · rcases List.mem_cons.mp member with same | later
        · obtain ⟨rfl, rfl, rfl⟩ := Stmt.block.inj same
          exact ⟨_, here, pending, produced, rfl, count, represented⟩
        · exact made head' args' body' later
      · rcases only key found with known | among
        · rcases (AList.mem_insert _).mp known with rfl | before
          · exact Or.inr (List.mem_cons_self ..)
          · exact Or.inl before
        · exact Or.inr (List.mem_cons_of_mem _ among)
      · rcases List.mem_cons.mp member with rfl | later
        · exact fresh
        · exact fun before => others key later ((AList.mem_insert _).mpr (Or.inr before))
      · exact others head later ((AList.mem_insert _).mpr (Or.inl rfl))

end Runs

/-! ## Accepted texts -/

/-- The sites are the closed site blocks, one for one, with everything inside them. -/
structure ClosedSites (blocks : List Stmt) (config : Config) : Prop where
  made : ∀ head args body, .block head args body ∈ blocks → ∃ site,
    config.sites.lookup head = some site ∧ Holds site body
  only : ∀ key, key ∈ config.sites → ∃ args body, .block key args body ∈ blocks
  once : (blocks.map Stmt.head).Nodup

theorem Scanned.isBlock {raws tail : List Str} {blocks : List Stmt}
    (scanned : Scanned raws blocks tail) :
    ∀ stmt ∈ blocks, ∃ head args body, stmt = .block head args body := by
  induction scanned with
  | nil => exact fun _ member => absurd member List.not_mem_nil
  | outside _ _ ih => exact ih
  | unclosed _ _ => exact fun _ member => absurd member List.not_mem_nil
  | site _ _ _ _ ih => exact List.forall_mem_cons.mpr ⟨⟨_, _, _, rfl⟩, ih⟩

/-- An accepted text scans into lines outside the sites, closed site blocks and an open
rest; the configuration has the sites of the closed blocks and no other. -/
theorem accepted_closed_sites {parser : UriParser} {content : Str} {config : Config}
    (accepted : Config.fromStr parser content = .ok config) :
    (∃ blocks tail, Scanned (lines content) blocks tail) ∧
      ∀ blocks tail, Scanned (lines content) blocks tail → ClosedSites blocks config := by
  refine ⟨scanned_exists _ _ (Nat.le_refl _), fun blocks tail scanned => ?_⟩
  obtain ⟨s, run, checked⟩ := bind_ok accepted
  obtain ⟨_, _, same⟩ := bind_ok checked
  obtain rfl := Except.ok.inj same
  obtain ⟨_, made, only, _, once⟩ := scanned_run scanned run between_initial
  refine ⟨made, fun key found => ?_, once⟩
  rcases only key found with before | among
  · exact absurd before (AList.notMem_empty key)
  · obtain ⟨stmt, member, rfl⟩ := List.mem_map.mp among
    obtain ⟨head, args, body, rfl⟩ := scanned.isBlock stmt member
    exact ⟨args, body, member⟩

/-! ## Sites under their own address -/

def Keyed (sites : AList fun _ : Str => SiteConfig) : Prop :=
  ∀ key site, sites.lookup key = some site → site.address = key

section Keys
variable {parser : UriParser} {s s' : ParserState}

theorem openBlock_sites (parts : List Str) (s : ParserState) :
    (openBlock parts s).sites = s.sites := by
  cases parts with
  | nil => rfl
  | cons head args =>
      rw [openBlock]
      split <;> rfl

/-- A closing brace adds at most one site, under its address. -/
theorem closeBlock_adds {line : Nat} (run : closeBlock parser line s = .ok s') :
    s'.sites = s.sites ∨ ∃ site : SiteConfig, site.address ∉ s.sites ∧
      s'.sites = s.sites.insert site.address site := by
  unfold closeBlock at run
  split at run
  next =>
    split at run
    next => cases run
    next =>
      obtain ⟨directive, _, done⟩ := bind_ok run
      obtain rfl := Except.ok.inj done
      exact Or.inl rfl
  next =>
    unfold closeSite at run
    split at run
    next =>
      obtain rfl := Except.ok.inj run
      exact Or.inl rfl
    next =>
      split at run
      next => cases run
      next =>
        split at run
        next => cases run
        next fresh =>
          obtain rfl := Except.ok.inj run
          exact Or.inr ⟨⟨_, _, _⟩, fresh, rfl⟩

theorem parseLine_adds {line : Nat} {raw : Str} (run : parseLine parser line raw s = .ok s') :
    s'.sites = s.sites ∨ ∃ site : SiteConfig, site.address ∉ s.sites ∧
      s'.sites = s.sites.insert site.address site := by
  cases kind : lineKind raw with
  | skip => exact Or.inl (by rw [parseLine_skip kind run])
  | opener parts =>
      rw [parseLine_opener kind run]
      exact Or.inl (openBlock_sites parts s)
  | closer => exact closeBlock_adds (parseLine_closer kind run)
  | simple parts =>
      obtain ⟨name, args, rfl⟩ := List.exists_cons_of_ne_nil (lineKind_simple_ne_nil kind)
      rcases simpleLine_grown (parseLine_simple kind run) with
        ⟨_, grown⟩ | ⟨_, directive, _, grown⟩
      · exact Or.inl grown.sites
      · exact Or.inl grown.sites

theorem parseLines_keyed {raws : List Str} : ∀ {line : Nat} {s : ParserState},
    parseLines parser line raws s = .ok s' → Keyed s.sites → Keyed s'.sites := by
  induction raws with
  | nil =>
      intro line s run keyed
      obtain rfl := Except.ok.inj run
      exact keyed
  | cons raw rest ih =>
      intro line s run keyed
      obtain ⟨next, first, later⟩ := bind_ok run
      refine ih later fun key site found => ?_
      rcases parseLine_adds first with same | ⟨added, _, inserted⟩
      · exact keyed key site (same ▸ found)
      · rw [inserted] at found
        by_cases here : key = added.address
        · rw [here, AList.lookup_insert] at found
          rw [here, Option.some.inj found]
        · rw [AList.lookup_insert_ne here] at found
          exact keyed key site found

end Keys

theorem keyed_of_accepted {parser : UriParser} {content : Str} {config : Config}
    (accepted : Config.fromStr parser content = .ok config) : Keyed config.sites := by
  obtain ⟨s, run, checked⟩ := bind_ok accepted
  obtain ⟨_, _, same⟩ := bind_ok checked
  obtain rfl := Except.ok.inj same
  exact parseLines_keyed run fun _ _ found => nomatch found

/-! ## A text that is cut off -/

def opensBlock (raw : Str) : Bool :=
  match lineKind raw with
  | .opener _ => true
  | _ => false

def closesBlock (raw : Str) : Bool := lineKind raw = .closer

/-- Balanced lines open as many blocks as they close. -/
theorem Laid.count_eq {raws : List Str} {stmts : List Stmt} (laid : Laid raws stmts) :
    raws.countP opensBlock = raws.countP closesBlock := by
  induction laid with
  | nil => rfl
  | skip kind _ ih => simp [opensBlock, closesBlock, kind, ih]
  | line kind _ ih => simp [opensBlock, closesBlock, kind, ih]
  | block opens closes _ _ insideIh restIh =>
      simp [opensBlock, closesBlock, opens, closes, insideIh, restIh]
      omega

def truncatedLines : List Str :=
  ["a:80 \x7b".toList, "respond 200".toList, ['\x7d'], "b:80 \x7b".toList, "respond 200".toList]

def truncatedText : Str := join ['\n'] truncatedLines

/-- Only the first of the two sites. -/
def truncatedConfig : Config :=
  ⟨(∅ : AList fun _ : Str => SiteConfig).insert "a:80".toList
    ⟨"a:80".toList, [.respond 200 []], none⟩⟩

theorem truncatedText_read :
    Config.fromStr plainUriParser truncatedText = .ok truncatedConfig := rfl

theorem truncatedText_lines : lines truncatedText = truncatedLines := rfl

/-- The second site is lost, and a surplus closing brace is accepted. -/
theorem unbalanced_accepted :
    (Config.fromStr plainUriParser truncatedText = .ok truncatedConfig ∧
      ¬ ∃ stmts, Laid (lines truncatedText) stmts) ∧
    Config.fromStr plainUriParser ['\x7d'] = .ok ⟨∅⟩ ∧ ¬ ∃ stmts, Laid (lines ['\x7d']) stmts := by
  refine ⟨⟨truncatedText_read, ?_⟩, rfl, ?_⟩
  · rintro ⟨stmts, laid⟩
    rw [truncatedText_lines] at laid
    exact absurd laid.count_eq (by decide)
  · rintro ⟨stmts, laid⟩
    exact absurd laid.count_eq (by decide)

theorem accepted_closed_sites_truncated :
    ClosedSites [.block "a:80".toList [['\x7b']] [.line "respond".toList ["200".toList]]]
      truncatedConfig := by
  have body : Laid ["respond 200".toList] [.line "respond".toList ["200".toList]] :=
    .line rfl .nil
  have rest : Scanned ["b:80 \x7b".toList, "respond 200".toList] []
      ["b:80 \x7b".toList, "respond 200".toList] := .unclosed rfl (.laid body)
  have scanned : Scanned truncatedLines _ _ := .site rfl rfl body rest
  exact (accepted_closed_sites truncatedText_read).2 _ _ (truncatedText_lines ▸ scanned)

end TinyProxy
