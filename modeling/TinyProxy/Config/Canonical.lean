import TinyProxy.Config.Loaded

/-!
# What the parser accepts is well formed

The configuration of an accepted text can be written in canonical form again.
A text may use a brace at the end of other words than the one that opens a
block, and may leave out the argument of a block; such texts are set apart.
-/

set_option autoImplicit false

namespace TinyProxy

open Rust Http

/-! ## Tidy lines -/

def LineKind.words : LineKind → List Str
  | .opener parts => parts
  | .simple parts => parts
  | _ => []

/-- Only the word that opens the block ends in a brace, and a path or a backend is given. -/
def LineKind.Tidy : LineKind → Prop
  | .opener (head :: rest) =>
      (∀ word ∈ head :: blockArgs rest, word.getLast? ≠ some '\x7b') ∧
        (head = "handle_path".toList ∨ head = "reverse_proxy".toList → blockArgs rest ≠ [])
  | .simple parts => ∀ word ∈ parts, word.getLast? ≠ some '\x7b'
  | _ => True

instance : DecidablePred LineKind.Tidy
  | .opener (_ :: _) => inferInstanceAs (Decidable (_ ∧ _))
  | .simple parts => inferInstanceAs (Decidable (∀ word ∈ parts, word.getLast? ≠ some '\x7b'))
  | .opener [] => inferInstanceAs (Decidable True)
  | .skip => inferInstanceAs (Decidable True)
  | .closer => inferInstanceAs (Decidable True)

/-- The words of a line of text. -/
structure LineKind.FromText (kind : LineKind) : Prop where
  words : ∀ word ∈ kind.words, IsWord word
  noComment : ∀ parts, kind = .opener parts → ∀ head ∈ parts.head?, head.head? ≠ some '#'

theorem lineKind_fromText (raw : Str) : (lineKind raw).FromText := by
  unfold lineKind
  dsimp only
  split
  next => exact ⟨by simp [LineKind.words], by simp⟩
  next content =>
    split
    next =>
      refine ⟨splitWhitespace_isWord, fun parts same head isHead => ?_⟩
      obtain rfl := LineKind.opener.inj same
      obtain ⟨rest, split⟩ := List.head?_eq_some_iff.mp isHead
      rw [splitWhitespace_trim_head split, ne_eq, ← startsWith_singleton]
      exact (not_or.mp content).2
    next =>
      split
      next => exact ⟨by simp [LineKind.words], by simp⟩
      next => exact ⟨splitWhitespace_isWord, by simp⟩

/-! ## Fields and phrases -/

theorem IsField.undash {name : Str} (isField : IsField ('-' :: name)) (nonempty : name ≠ []) :
    IsField name := by
  obtain ⟨⟨_, solid⟩, noBrace⟩ := isField
  obtain ⟨c, rest, rfl⟩ := List.exists_cons_of_ne_nil nonempty
  refine ⟨⟨nonempty, (List.forall_mem_cons.mp solid).2⟩, ?_⟩
  rwa [List.getLast?_cons_cons] at noBrace

theorem isPhrase_join {words : List Str} (nonempty : words ≠ [])
    (areFields : ∀ word ∈ words, IsField word) : IsPhrase (join [' '] words) := by
  have last := List.getLast?_eq_some_getLast nonempty
  have isLast := areFields _ (List.mem_of_getLast? last)
  refine ⟨words, nonempty, fun word member => (areFields word member).isWord, rfl, ?_⟩
  rw [getLast?_join _ last isLast.isWord.nonempty]
  exact isLast.noBrace

theorem stripPrefix_none_head {c : Char} {s : Str} (kept : stripPrefix [c] s = none) :
    s.head? ≠ some c := by
  intro head
  rw [stripPrefix, if_pos (startsWith_singleton.mpr head)] at kept
  cases kept

theorem headerUpSetting_wellFormed {args : List Str} {number : Nat} {directive : HeaderDirective}
    (areFields : ∀ word ∈ args, IsField word)
    (run : headerUpSetting args number = .ok directive) : directive.WellFormed := by
  unfold headerUpSetting at run
  split at run
  next => cases run
  next rawName values =>
    obtain ⟨isName, areValues⟩ := List.forall_mem_cons.mp areFields
    split at run
    next name removal =>
      split at run
      next => cases run
      next nonempty =>
        obtain rfl := Except.ok.inj run
        rw [stripPrefix_eq_some_iff.mp removal] at isName
        exact isName.undash nonempty
    next sets =>
      dsimp only at run
      split at run
      next => cases run
      next nonempty =>
        obtain rfl := Except.ok.inj run
        refine ⟨⟨isName, stripPrefix_none_head sets⟩, isPhrase_join ?_ areValues⟩
        rintro rfl
        exact nonempty rfl

/-! ## Pending blocks -/

structure PendingBlock.WellFormed (block : PendingBlock) : Prop where
  args : ∀ word ∈ block.args, IsField word
  given : block.directiveType = "handle_path".toList ∨
    block.directiveType = "reverse_proxy".toList → block.args ≠ []
  headerUp : ∀ directive ∈ block.headerUp, directive.WellFormed
  requestHeaders : ∀ pending ∈ block.forwardAuth, pending.requestHeaders ≠ some []

theorem forwardAuthSetting_requestHeaders {name : Str} {args : List Str} {number : Nat}
    {pending pending' : ForwardAuthBlock} (before : pending.requestHeaders ≠ some [])
    (run : forwardAuthSetting name args number pending = .ok pending') :
    pending'.requestHeaders ≠ some [] := by
  unfold forwardAuthSetting at run
  split at run
  · split at run
    · cases run
    · obtain rfl := Except.ok.inj run
      exact before
  split at run
  · split at run
    next => cases run
    next nonempty =>
      split at run
      · obtain rfl := Except.ok.inj run
        simpa using nonempty
      · obtain rfl := Except.ok.inj run
        exact before
  split at run
  · split at run
    · cases run
    · obtain ⟨_, _, same⟩ := bind_ok run
      obtain rfl := Except.ok.inj same
      exact before
  split at run
  · split at run
    · cases run
    · obtain ⟨_, _, same⟩ := bind_ok run
      obtain rfl := Except.ok.inj same
      exact before
  · cases run

theorem reverseProxySetting_wellFormed {name : Str} {args : List Str} {number : Nat}
    {before after : PendingBlock} (areFields : ∀ word ∈ args, IsField word)
    (wellFormed : before.WellFormed)
    (run : reverseProxySetting name args number before = .ok after) : after.WellFormed := by
  unfold reverseProxySetting at run
  split at run
  · obtain ⟨_, _, same⟩ := bind_ok run
    obtain rfl := Except.ok.inj same
    exact { wellFormed with }
  split at run
  · obtain ⟨_, _, same⟩ := bind_ok run
    obtain rfl := Except.ok.inj same
    exact { wellFormed with }
  split at run
  · obtain ⟨directive, read, same⟩ := bind_ok run
    obtain rfl := Except.ok.inj same
    have isGood := headerUpSetting_wellFormed areFields read
    exact { wellFormed with
      headerUp := List.forall_mem_append.mpr
        ⟨wellFormed.headerUp, List.forall_mem_singleton.mpr isGood⟩ }
  · cases run

theorem pendingBlock_wellFormed {head : Str} {rest : List Str}
    (tidy : (LineKind.opener (head :: rest)).Tidy)
    (words : ∀ word ∈ head :: rest, IsWord word) :
    (pendingBlock head (blockArgs rest)).WellFormed := by
  obtain ⟨noBrace, given⟩ := tidy
  constructor
  · intro word member
    exact ⟨words word (List.mem_cons_of_mem _ (List.mem_of_mem_filter member)),
      noBrace word (List.mem_cons_of_mem _ member)⟩
  · exact given
  · exact fun _ member => absurd member List.not_mem_nil
  · intro pending held
    unfold pendingBlock at held
    dsimp only at held
    split at held
    · obtain rfl := Option.some.inj held
      exact (Option.some_ne_none []).symm
    · cases held

/-! ## Directives -/

/-- The endpoint has a text of one word that the parser reads back. -/
structure ForwardAuthConfig.Writable (parser : UriParser) (display : Uri → Str)
    (cfg : ForwardAuthConfig) : Prop where
  endpoint : ∃ uri, parser.parseUri (display cfg.endpoint) = .ok uri ∧
    normalizeAuthEndpoint parser uri = .ok cfg.endpoint
  isField : IsField (display cfg.endpoint)

section Directives
variable {parser : UriParser} {display : Uri → Str}

theorem Written.wellFormed {name : Str} {args : List Str} {directive : Directive}
    (areFields : ∀ word ∈ args, IsField word) (written : Written name args directive) :
    directive.WellFormed parser display := by
  cases written with
  | reverseProxy to_ rest =>
      exact .reverseProxy (areFields _ (List.mem_cons_self ..)) (by simp)
  | uriReplace find replacement rest =>
      obtain ⟨isFind, areLater⟩ := List.forall_mem_cons.mp areFields
      exact .uriReplace isFind (areLater _ (List.mem_cons_self ..))
  | removeHeader nonempty rest =>
      exact .removeHeader ((areFields _ (List.mem_cons_self ..)).undash nonempty)
  | setHeader sets value rest =>
      obtain ⟨isName, areLater⟩ := List.forall_mem_cons.mp areFields
      exact .setHeader ⟨isName, stripPrefix_none_head sets⟩ (areLater _ (List.mem_cons_self ..))
  | respond parsed => exact .respond (Or.inl rfl)
  | respondWith parsed body rest =>
      obtain ⟨_, areLater⟩ := List.forall_mem_cons.mp areFields
      exact .respond (Or.inr (areLater _ (List.mem_cons_self ..)))
  | stripPrefix pattern rest => exact .stripPrefix (areFields _ (List.mem_cons_self ..))
  | redirect url =>
      have isPhrase := isPhrase_join (List.cons_ne_nil url []) areFields
      rw [join_singleton] at isPhrase
      exact .redirect isPhrase
  | redirectWith parsed word words =>
      exact .redirect (isPhrase_join (List.cons_ne_nil _ _) (List.forall_mem_cons.mp areFields).2)

theorem completeBlock_wellFormed {pending : PendingBlock} {finished : List Directive}
    {number : Nat} {completed : Directive} (wellFormed : pending.WellFormed)
    (inside : ∀ child ∈ finished, (∀ cfg, child.HasAuth cfg → cfg.Writable parser display) →
      child.WellFormed parser display)
    (run : completeBlock parser pending finished number = .ok completed)
    (writable : ∀ cfg, completed.HasAuth cfg → cfg.Writable parser display) :
    completed.WellFormed parser display := by
  have first : pending.args ≠ [] → IsField (pending.args.head?.getD []) := by
    intro nonempty
    obtain ⟨word, rest, same⟩ := List.exists_cons_of_ne_nil nonempty
    rw [same]
    exact wellFormed.args word (same ▸ List.mem_cons_self ..)
  unfold completeBlock at run
  split at run
  next isPath =>
    obtain rfl := Except.ok.inj run
    exact .handlePath (first (wellFormed.given (Or.inl isPath))) fun child member =>
      inside child member fun cfg has => writable cfg (.inside member has)
  split at run
  next =>
    obtain rfl := Except.ok.inj run
    exact .method wellFormed.args fun child member =>
      inside child member fun cfg has => writable cfg (.inside member has)
  split at run
  next isProxy =>
    obtain rfl := Except.ok.inj run
    exact .reverseProxy (first (wellFormed.given (Or.inr isProxy))) wellFormed.headerUp
  split at run
  next =>
    split at run
    next =>
      split at run
      next => cases run
      next auth held =>
        obtain ⟨cfg, rfl, _, requestHeaders⟩ := buildForwardAuth_loaded run
        obtain ⟨endpoint, isField⟩ := writable cfg .here
        exact .forwardAuth
          ⟨endpoint, isField, requestHeaders (wellFormed.requestHeaders auth held)⟩
    next => cases run
  next => cases run

/-- The parser builds well-formed pieces from tidy lines. -/
def canonicalRule (parser : UriParser) (display : Uri → Str) : ParserRule parser where
  line kind := kind.Tidy ∧ kind.FromText
  address address := IsField address ∧ address.head? ≠ some '#'
  tls tls := IsField tls.certPath ∧ IsField tls.keyPath
  block := PendingBlock.WellFormed
  directive directive := (∀ cfg, directive.HasAuth cfg → cfg.Writable parser display) →
    directive.WellFormed parser display
  opens := by
    intro head rest ⟨tidy, words, noComment⟩
    refine ⟨⟨⟨words head (List.mem_cons_self ..), ?_⟩, noComment _ rfl head rfl⟩,
      pendingBlock_wellFormed tidy words⟩
    exact tidy.1 head (List.mem_cons_self ..)
  tlsLine := by
    intro args number current given ⟨tidy, words, _⟩ run
    have areFields : ∀ word ∈ args, IsField word := fun word member =>
      ⟨words word (List.mem_cons_of_mem _ member), tidy word (List.mem_cons_of_mem _ member)⟩
    unfold tlsSetting at run
    split at run
    · cases run
    · cases run
    · split at run
      · cases run
      · obtain rfl := Except.ok.inj run
        exact ⟨areFields _ (List.mem_cons_self ..),
          areFields _ (List.mem_cons_of_mem _ (List.mem_cons_self ..))⟩
  authLine := by
    intro name args number before pending pending' _ wellFormed held run
    refine { wellFormed with requestHeaders := fun other same => ?_ }
    obtain rfl := Option.some.inj same
    exact forwardAuthSetting_requestHeaders (wellFormed.requestHeaders pending held) run
  proxyLine := by
    intro name args number before after ⟨tidy, words, _⟩ wellFormed run
    refine reverseProxySetting_wellFormed (fun word member => ?_) wellFormed run
    exact ⟨words word (List.mem_cons_of_mem _ member), tidy word (List.mem_cons_of_mem _ member)⟩
  directiveLine := by
    intro name args written ⟨tidy, words, _⟩ isWritten _
    refine isWritten.wellFormed fun word member => ?_
    exact ⟨words word (List.mem_cons_of_mem _ member), tidy word (List.mem_cons_of_mem _ member)⟩
  closes wellFormed inside run := completeBlock_wellFormed wellFormed inside run

/-- What is accepted from tidy lines is well formed, so that its canonical text is read back
as the same sites. -/
theorem accepted_wellFormed {content : Str} {config : Config}
    (tidy : ∀ raw ∈ lines content, (lineKind raw).Tidy)
    (writable : ∀ cfg, config.HasAuth cfg → cfg.Writable parser display)
    (accepted : Config.fromStr parser content = .ok config) :
    config.WellFormed parser display := by
  have sites := (canonicalRule parser display).accepted
    (fun raw member => ⟨tidy raw member, lineKind_fromText raw⟩) accepted
  refine ⟨keyed_of_accepted accepted, fun site member => ?_,
    validated_of_accepted accepted⟩
  obtain ⟨⟨isField, noComment⟩, tls, directives⟩ := sites site member
  refine ⟨isField, noComment, tls, fun directive inside => ?_⟩
  exact directives directive inside fun cfg has =>
    writable cfg ⟨site, member, directive, inside, has⟩

end Directives

/-- An authorization inside a `handle_path`. -/
theorem accepted_wellFormed_nested :
    (nestedAuthConfig (.handlePath "/*".toList [.forwardAuth nestedAuthEndpoint])).WellFormed
      plainUriParser plainDisplay := by
  have accepted : Config.fromStr plainUriParser (nestedAuthText "handle_path /*".toList) =
      .ok (nestedAuthConfig (.handlePath "/*".toList [.forwardAuth nestedAuthEndpoint])) := rfl
  refine accepted_wellFormed (by decide) (fun cfg has => ?_) accepted
  obtain ⟨site, isSite, directive, member, deeper⟩ := has
  obtain rfl := List.mem_singleton.mp isSite
  have only : cfg = nestedAuthEndpoint := by
    rcases List.mem_cons.mp member with rfl | last
    · rcases Directive.hasAuth_cases deeper with same | ⟨child, inside, found⟩
      · cases same
      · obtain rfl := List.mem_singleton.mp inside
        rcases Directive.hasAuth_cases found with same | ⟨_, nothing, _⟩
        · exact (Directive.forwardAuth.inj same).symm
        · cases nothing
    · obtain rfl := List.mem_singleton.mp last
      rcases Directive.hasAuth_cases deeper with same | ⟨_, nothing, _⟩
      · cases same
      · cases nothing
  rw [only]
  exact ⟨⟨_, rfl, rfl⟩, isField_of_all rfl⟩

end TinyProxy
