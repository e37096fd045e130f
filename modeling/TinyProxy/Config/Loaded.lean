import TinyProxy.Config.Rule
import TinyProxy.Config.Serde

/-!
# Where authorization endpoints come from

Both formats of a configuration put every `forward_auth` endpoint through
`normalize_auth_endpoint`, however deep the directive is nested.
-/

set_option autoImplicit false

namespace TinyProxy

open Rust Http

/-- The endpoint was read from a text and normalized. -/
def ForwardAuthConfig.Loaded (parser : UriParser) (cfg : ForwardAuthConfig) : Prop :=
  ∃ raw uri, parser.parseUri raw = .ok uri ∧ normalizeAuthEndpoint parser uri = .ok cfg.endpoint

def Directive.AllLoaded (parser : UriParser) (directive : Directive) : Prop :=
  ∀ cfg, directive.HasAuth cfg → cfg.Loaded parser

def Config.AllLoaded (parser : UriParser) (config : Config) : Prop :=
  ∀ cfg, config.HasAuth cfg → cfg.Loaded parser

theorem Directive.hasAuth_cases {cfg : ForwardAuthConfig} {directive : Directive}
    (has : directive.HasAuth cfg) :
    directive = .forwardAuth cfg ∨ ∃ child ∈ directive.block, child.HasAuth cfg := by
  cases has with
  | here => exact Or.inl rfl
  | inside member deeper => exact Or.inr ⟨_, member, deeper⟩

theorem Directive.AllLoaded.of_block {parser : UriParser} {directive : Directive}
    (own : ∀ cfg, directive = .forwardAuth cfg → cfg.Loaded parser)
    (inside : ∀ child ∈ directive.block, child.AllLoaded parser) :
    directive.AllLoaded parser := by
  intro cfg has
  rcases Directive.hasAuth_cases has with same | ⟨child, member, deeper⟩
  · exact own cfg same
  · exact inside child member cfg deeper

/-! ## From the text -/

section Text
variable {parser : UriParser}

theorem parseHeaders_ne_nil {what : Str} {number : Nat} {names : List Str}
    {headers : List HeaderName} (parsed : parseHeaders what number names = .ok headers)
    (nonempty : names ≠ []) : headers ≠ [] := by
  obtain ⟨name, rest, rfl⟩ := List.exists_cons_of_ne_nil nonempty
  rw [parseHeaders, List.mapM_cons] at parsed
  obtain ⟨header, _, later⟩ := bind_ok parsed
  obtain ⟨others, _, same⟩ := bind_ok later
  cases same
  exact List.cons_ne_nil _ _

/-- The endpoint of the directive that a block makes, and its request headers. -/
theorem buildForwardAuth_loaded {pending : ForwardAuthBlock} {number : Nat}
    {directive : Directive} (built : buildForwardAuth parser pending number = .ok directive) :
    ∃ cfg, directive = .forwardAuth cfg ∧ cfg.Loaded parser ∧
      (pending.requestHeaders ≠ some [] → cfg.requestHeaders ≠ []) := by
  unfold buildForwardAuth at built
  split at built
  next => cases built
  next rawTo _ =>
    split at built
    next => cases built
    next uri parsed =>
      split at built
      next => cases built
      next endpoint normalized =>
        have loaded : ∀ cfg : ForwardAuthConfig, cfg.endpoint = endpoint → cfg.Loaded parser :=
          fun cfg same => ⟨rawTo, uri, parsed, same ▸ normalized⟩
        cases requests : pending.requestHeaders with
        | none =>
            cases responses : pending.responseHeaders <;>
              · rw [requests, responses] at built
                obtain ⟨_, isDefault, rest⟩ := bind_ok built
                obtain ⟨_, _, same⟩ := bind_ok rest
                obtain rfl := Except.ok.inj isDefault
                obtain rfl := Except.ok.inj same
                exact ⟨_, rfl, loaded _ rfl, fun _ => List.cons_ne_nil _ _⟩
        | some names =>
            cases responses : pending.responseHeaders <;>
              · rw [requests, responses] at built
                obtain ⟨_, read, rest⟩ := bind_ok built
                obtain ⟨_, _, same⟩ := bind_ok rest
                obtain rfl := Except.ok.inj same
                exact ⟨_, rfl, loaded _ rfl, fun given =>
                  parseHeaders_ne_nil read fun empty => given (congrArg some empty)⟩

theorem completeBlock_loaded {pending : PendingBlock} {finished : List Directive} {number : Nat}
    {completed : Directive} (inside : ∀ child ∈ finished, child.AllLoaded parser)
    (run : completeBlock parser pending finished number = .ok completed) :
    completed.AllLoaded parser := by
  unfold completeBlock at run
  split at run
  · obtain rfl := Except.ok.inj run
    exact .of_block (by simp) inside
  split at run
  · obtain rfl := Except.ok.inj run
    exact .of_block (by simp) inside
  split at run
  · obtain rfl := Except.ok.inj run
    exact .of_block (by simp) (by simp [Directive.block])
  split at run
  · split at run
    · split at run
      · cases run
      · obtain ⟨cfg, rfl, loaded, _⟩ := buildForwardAuth_loaded run
        refine .of_block (fun other same => ?_) (by simp [Directive.block])
        exact Directive.forwardAuth.inj same ▸ loaded
    · cases run
  · cases run

theorem Written.loaded {name : Str} {args : List Str} {directive : Directive}
    (written : Written name args directive) : directive.AllLoaded parser := by
  cases written <;> exact .of_block (by simp) (by simp [Directive.block])

def loadedRule (parser : UriParser) : ParserRule parser where
  line _ := True
  address _ := True
  tls _ := True
  block _ := True
  directive := Directive.AllLoaded parser
  opens _ := ⟨trivial, trivial⟩
  tlsLine _ _ := trivial
  authLine _ _ _ _ := trivial
  proxyLine _ _ _ := trivial
  directiveLine _ written := written.loaded
  closes _ inside run := completeBlock_loaded inside run

theorem loaded_of_text {content : Str} {config : Config}
    (accepted : Config.fromStr parser content = .ok config) : config.AllLoaded parser := by
  intro cfg has
  obtain ⟨site, isSite, directive, member, deeper⟩ := has
  have sites := (loadedRule parser).accepted (fun _ _ => trivial) accepted
  exact (sites site isSite).directives directive member cfg deeper

end Text

/-! ## From JSON -/

section Json
variable {parser : UriParser}

theorem ForwardAuthConfig.loaded_of_json {value : Serde.Value} {cfg : ForwardAuthConfig}
    (read : ForwardAuthConfig.deserialize parser value = .ok cfg) : cfg.Loaded parser := by
  obtain ⟨fields, _, rest⟩ := bind_ok read
  obtain ⟨endpoint, found, rest⟩ := bind_ok rest
  obtain ⟨_, _, rest⟩ := bind_ok rest
  obtain ⟨_, _, rest⟩ := bind_ok rest
  obtain ⟨_, _, rest⟩ := bind_ok rest
  obtain ⟨_, _, same⟩ := bind_ok rest
  obtain rfl := Except.ok.inj same
  obtain ⟨document, isEndpoint⟩ := Serde.field_ok found
  obtain ⟨raw, _, later⟩ := bind_ok isEndpoint
  obtain ⟨uri, parsed, normalized⟩ := bind_ok later
  exact ⟨raw, uri, parsed, normalized⟩

/-- The directives inside a variant come from its `nested` reader. -/
theorem Directive.ofVariant_ok {nested : Serde.Value → Except Str (List Directive)} {name : Str}
    {content : Serde.Value} {directive : Directive}
    (read : Directive.ofVariant parser nested name content = .ok directive) :
    (directive.block = [] ∨ ∃ document, nested document = .ok directive.block) ∧
      ∀ cfg, directive = .forwardAuth cfg → cfg.Loaded parser := by
  unfold Directive.ofVariant at read
  split at read
  · obtain ⟨_, _, rest⟩ := bind_ok read
    obtain ⟨_, _, rest⟩ := bind_ok rest
    obtain ⟨_, _, rest⟩ := bind_ok rest
    obtain ⟨_, _, rest⟩ := bind_ok rest
    obtain ⟨_, _, same⟩ := bind_ok rest
    obtain rfl := Except.ok.inj same
    exact ⟨Or.inl rfl, by simp⟩
  split at read
  · obtain ⟨_, _, rest⟩ := bind_ok read
    obtain ⟨_, _, rest⟩ := bind_ok rest
    obtain ⟨directives, found, same⟩ := bind_ok rest
    obtain rfl := Except.ok.inj same
    exact ⟨Or.inr (Serde.field_ok found), by simp⟩
  split at read
  · obtain ⟨_, _, rest⟩ := bind_ok read
    obtain ⟨_, _, rest⟩ := bind_ok rest
    obtain ⟨_, _, same⟩ := bind_ok rest
    obtain rfl := Except.ok.inj same
    exact ⟨Or.inl rfl, by simp⟩
  split at read
  · obtain ⟨_, _, rest⟩ := bind_ok read
    obtain ⟨_, _, rest⟩ := bind_ok rest
    obtain ⟨_, _, same⟩ := bind_ok rest
    obtain rfl := Except.ok.inj same
    exact ⟨Or.inl rfl, by simp⟩
  split at read
  · obtain ⟨_, _, rest⟩ := bind_ok read
    obtain ⟨_, _, rest⟩ := bind_ok rest
    obtain ⟨directives, found, same⟩ := bind_ok rest
    obtain rfl := Except.ok.inj same
    exact ⟨Or.inr (Serde.field_ok found), by simp⟩
  split at read
  · obtain ⟨_, _, rest⟩ := bind_ok read
    obtain ⟨_, _, same⟩ := bind_ok rest
    obtain rfl := Except.ok.inj same
    exact ⟨Or.inl rfl, by simp⟩
  split at read
  · obtain ⟨_, _, rest⟩ := bind_ok read
    obtain ⟨_, _, rest⟩ := bind_ok rest
    obtain ⟨_, _, same⟩ := bind_ok rest
    obtain rfl := Except.ok.inj same
    exact ⟨Or.inl rfl, by simp⟩
  split at read
  · obtain ⟨_, _, rest⟩ := bind_ok read
    obtain ⟨_, _, rest⟩ := bind_ok rest
    obtain ⟨_, _, same⟩ := bind_ok rest
    obtain rfl := Except.ok.inj same
    exact ⟨Or.inl rfl, by simp⟩
  split at read
  · obtain ⟨cfg, isAuth, same⟩ := bind_ok read
    obtain rfl := Except.ok.inj same
    refine ⟨Or.inl rfl, fun other sameAuth => ?_⟩
    exact Directive.forwardAuth.inj sameAuth ▸ ForwardAuthConfig.loaded_of_json isAuth
  · cases read

/-- By induction on the budget for nesting. -/
theorem Directive.loaded_of_json : ∀ {depth : Nat} {value : Serde.Value} {directive : Directive},
    Directive.deserialize parser depth value = .ok directive → directive.AllLoaded parser := by
  intro depth
  induction depth with
  | zero =>
      intro value directive read
      cases read
  | succ depth ih =>
      intro value directive read
      obtain ⟨⟨name, content⟩, _, isVariant⟩ := bind_ok read
      obtain ⟨inside, own⟩ := Directive.ofVariant_ok isVariant
      refine .of_block own fun child member => ?_
      rcases inside with none_ | ⟨document, found⟩
      · rw [none_] at member
        cases member
      · obtain ⟨item, isItem⟩ := Serde.readList_ok found child member
        exact ih isItem

theorem deserializeSites_loaded : ∀ {entries : List (Str × Serde.Value)}
    {sites final : AList fun _ : Str => SiteConfig},
    deserializeSites parser entries sites = .ok final →
    (∀ entry ∈ sites.entries, ∀ directive ∈ entry.2.directives, directive.AllLoaded parser) →
    ∀ entry ∈ final.entries, ∀ directive ∈ entry.2.directives, directive.AllLoaded parser := by
  intro entries
  induction entries with
  | nil =>
      intro sites final read before
      obtain rfl := Except.ok.inj read
      exact before
  | cons entry rest ih =>
      intro sites final read before
      obtain ⟨site, isSite, later⟩ := bind_ok read
      refine ih later fun other member => ?_
      rw [AList.entries_insert, List.mem_cons] at member
      rcases member with rfl | kept
      · obtain ⟨_, _, rest⟩ := bind_ok isSite
        obtain ⟨_, _, rest⟩ := bind_ok rest
        obtain ⟨directives, found, rest⟩ := bind_ok rest
        obtain ⟨_, _, same⟩ := bind_ok rest
        obtain rfl := Except.ok.inj same
        obtain ⟨document, isList⟩ := Serde.field_ok found
        intro directive inside
        obtain ⟨item, isItem⟩ := Serde.readList_ok isList directive inside
        exact Directive.loaded_of_json isItem
      · exact before other ((List.kerase_sublist _ _).subset kept)

theorem Config.loaded_of_json {value : Serde.Value} {config : Config}
    (read : Config.deserialize parser value = .ok config) : config.AllLoaded parser := by
  obtain ⟨fields, _, rest⟩ := bind_ok read
  obtain ⟨sites, found, same⟩ := bind_ok rest
  obtain rfl := Except.ok.inj same
  obtain ⟨document, isSites⟩ := Serde.field_ok found
  intro cfg has
  obtain ⟨site, isSite, directive, member, deeper⟩ := has
  obtain ⟨entry, among, rfl⟩ := List.mem_map.mp isSite
  unfold readSites at isSites
  split at isSites
  · exact deserializeSites_loaded isSites (by simp) entry among directive member cfg deeper
  · cases isSites

end Json

/-! ## What normalizing achieves -/

/-- Putting three given parts together gives a URI of these parts. -/
def KeepsParts (parser : UriParser) : Prop :=
  ∀ parts uri, parts.scheme ≠ none → parts.authority ≠ none → parts.pathAndQuery ≠ none →
    parser.fromParts parts = .ok uri → uri = parts

/-- An `http` or `https` URI with a host and a path. -/
structure Uri.IsEndpoint (uri : Uri) : Prop where
  scheme : uri.scheme = some "http".toList ∨ uri.scheme = some "https".toList
  authority : uri.authority ≠ none
  pathAndQuery : uri.pathAndQuery ≠ none

section Endpoint
variable {parser : UriParser}

theorem normalizeAuthEndpoint_endpoint (keeps : KeepsParts parser) {uri endpoint : Uri}
    (normalized : normalizeAuthEndpoint parser uri = .ok endpoint) :
    Uri.IsEndpoint endpoint := by
  unfold normalizeAuthEndpoint at normalized
  split at normalized
  next => cases normalized
  next scheme given =>
    split at normalized
    next => cases normalized
    next isHttp =>
      have named : uri.scheme = some "http".toList ∨ uri.scheme = some "https".toList := by
        rw [given, Option.some.injEq, Option.some.injEq]
        by_cases http : scheme = "http".toList
        · exact Or.inl http
        · exact Or.inr (not_not.mp fun other => isHttp ⟨http, other⟩)
      split at normalized
      next => cases normalized
      next authority =>
        split at normalized
        next noPath =>
          split at normalized
          next => cases normalized
          next path _ =>
            have present : uri.scheme ≠ none := by simp [given]
            have kept := keeps { uri with pathAndQuery := some path } endpoint present authority
              (Option.some_ne_none path) normalized
            rw [kept]
            exact ⟨named, authority, Option.some_ne_none path⟩
        next path =>
          obtain rfl := Except.ok.inj normalized
          exact ⟨named, authority, path⟩

theorem normalizeAuthEndpoint_of_endpoint {uri : Uri} (isEndpoint : Uri.IsEndpoint uri) :
    normalizeAuthEndpoint parser uri = .ok uri := by
  obtain ⟨scheme, authority, path⟩ := isEndpoint
  rw [normalizeAuthEndpoint]
  rcases scheme with http | https
  · rw [http]
    simp [authority, path]
  · rw [https]
    simp [authority, path]

end Endpoint

end TinyProxy
