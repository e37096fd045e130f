import TinyProxy.Config.Layout
import TinyProxy.Rust.Words

/-!
# The canonical text of a configuration

One line for each simple directive and setting, one block for each directive
that has a body, and a site block around them.  `display` writes an endpoint.
The parser reads such a text back when the parts of the configuration are
`WellFormed`: fields are single words, and no line but an opening one ends in
a brace.
-/

set_option autoImplicit false

namespace TinyProxy

open Rust Http

/-! ## Rendering -/

def openingLine (heading : List Str) : Str := join [' '] (heading ++ [['\x7b']])

def closingLine : Str := ['\x7d']

def renderBlock (heading : List Str) (body : List Str) : List Str :=
  openingLine heading :: (body ++ [closingLine])

/-- A duration in plain seconds, if there is one. -/
def renderSeconds (name : Str) (value : Option UInt64) : List Str :=
  (value.map fun seconds => join [' '] [name, decimal seconds.toNat]).toList

def HeaderDirective.render (directive : HeaderDirective) : Str :=
  match directive.value with
  | some value => join [' '] ["header_up".toList, directive.name, value]
  | none => join [' '] ["header_up".toList, '-' :: directive.name]

def FailureMode.render : FailureMode → Str
  | .closed => "closed".toList
  | .open => "open".toList

/-- Without response headers there is no line for them. -/
def ForwardAuthConfig.render (display : Uri → Str) (cfg : ForwardAuthConfig) : List Str :=
  [join [' '] ["to".toList, display cfg.endpoint],
    join [' '] ("request_headers".toList :: cfg.requestHeaders.map HeaderName.text)] ++
  ((if cfg.responseHeaders = [] then []
    else [join [' '] ("response_headers".toList :: cfg.responseHeaders.map HeaderName.text)]) ++
  [join [' '] ["failure_mode".toList, cfg.failureMode.render],
    join [' '] ["timeout".toList, decimal cfg.timeoutSecs.toNat]])

/-- The settings of a backend; when there are none, it is written on one line. -/
def renderBackend (connectTimeout readTimeout : Option UInt64)
    (headerUp : List HeaderDirective) : List Str :=
  renderSeconds "connect_timeout".toList connectTimeout ++
    (renderSeconds "read_timeout".toList readTimeout ++ headerUp.map HeaderDirective.render)

mutual

def Directive.render (display : Uri → Str) : Directive → List Str
  | .reverseProxy to_ connectTimeout readTimeout headerUp =>
      let settings := renderBackend connectTimeout readTimeout headerUp
      if settings = [] then [join [' '] ["reverse_proxy".toList, to_]]
      else renderBlock ["reverse_proxy".toList, to_] settings
  | .handlePath pattern directives =>
      renderBlock ["handle_path".toList, pattern] (renderDirectives display directives)
  | .uriReplace find replacement => [join [' '] ["uri_replace".toList, find, replacement]]
  | .header name (some value) => [join [' '] ["header".toList, name, value]]
  | .header name none => [join [' '] ["header".toList, '-' :: name]]
  | .method methods directives =>
      renderBlock ("method".toList :: methods) (renderDirectives display directives)
  | .stripPrefix pattern => [join [' '] ["strip_prefix".toList, pattern]]
  | .redirect status url => [join [' '] ["redirect".toList, decimal status.toNat, url]]
  | .respond status body =>
      if body = [] then [join [' '] ["respond".toList, decimal status.toNat]]
      else [join [' '] ["respond".toList, decimal status.toNat, body]]
  | .forwardAuth cfg => renderBlock ["forward_auth".toList] (cfg.render display)

def renderDirectives (display : Uri → Str) : List Directive → List Str
  | [] => []
  | directive :: rest => directive.render display ++ renderDirectives display rest

end

def TlsConfig.render (tls : TlsConfig) : Str :=
  join [' '] ["tls".toList, tls.certPath, tls.keyPath]

def SiteConfig.render (display : Uri → Str) (site : SiteConfig) : List Str :=
  renderBlock [site.address]
    ((site.tls.map TlsConfig.render).toList ++ renderDirectives display site.directives)

/-- The blocks of the sites, in the order they are given. -/
def canonicalText (display : Uri → Str) (sites : List SiteConfig) : Str :=
  unlines (sites.flatMap (SiteConfig.render display))

/-! ## Well-formed configurations -/

/-- A word that opens no block at the end of a line. -/
structure IsField (word : Str) : Prop where
  isWord : IsWord word
  noBrace : word.getLast? ≠ some '\x7b'

/-- Words joined by single spaces. -/
def IsPhrase (text : Str) : Prop :=
  ∃ words, words ≠ [] ∧ (∀ word ∈ words, IsWord word) ∧ text = join [' '] words ∧
    text.getLast? ≠ some '\x7b'

/-- A header is set under a name that does not ask for its removal. -/
def IsSetName (name : Str) : Prop := IsField name ∧ name.head? ≠ some '-'

def HeaderDirective.WellFormed (directive : HeaderDirective) : Prop :=
  match directive.value with
  | some value => IsSetName directive.name ∧ IsPhrase value
  | none => IsField directive.name

/-- At least one request header, and an endpoint that is read back from its text. -/
structure ForwardAuthConfig.WellFormed (parser : UriParser) (display : Uri → Str)
    (cfg : ForwardAuthConfig) : Prop where
  endpoint : ∃ uri, parser.parseUri (display cfg.endpoint) = .ok uri ∧
    normalizeAuthEndpoint parser uri = .ok cfg.endpoint
  isField : IsField (display cfg.endpoint)
  requestHeaders : cfg.requestHeaders ≠ []

inductive Directive.WellFormed (parser : UriParser) (display : Uri → Str) : Directive → Prop where
  | reverseProxy {to_ : Str} {connectTimeout readTimeout : Option UInt64}
      {headerUp : List HeaderDirective} (backend : IsField to_)
      (headers : ∀ directive ∈ headerUp, directive.WellFormed) :
      Directive.WellFormed parser display (.reverseProxy to_ connectTimeout readTimeout headerUp)
  | handlePath {pattern : Str} {directives : List Directive} (isField : IsField pattern)
      (inside : ∀ directive ∈ directives, Directive.WellFormed parser display directive) :
      Directive.WellFormed parser display (.handlePath pattern directives)
  | uriReplace {find replacement : Str} (isFind : IsField find)
      (isReplacement : IsField replacement) :
      Directive.WellFormed parser display (.uriReplace find replacement)
  | setHeader {name value : Str} (isName : IsSetName name) (isValue : IsField value) :
      Directive.WellFormed parser display (.header name (some value))
  | removeHeader {name : Str} (isName : IsField name) :
      Directive.WellFormed parser display (.header name none)
  | method {methods : List Str} {directives : List Directive}
      (areFields : ∀ name ∈ methods, IsField name)
      (inside : ∀ directive ∈ directives, Directive.WellFormed parser display directive) :
      Directive.WellFormed parser display (.method methods directives)
  | stripPrefix {pattern : Str} (isField : IsField pattern) :
      Directive.WellFormed parser display (.stripPrefix pattern)
  | redirect {status : UInt16} {url : Str} (isPhrase : IsPhrase url) :
      Directive.WellFormed parser display (.redirect status url)
  | respond {status : UInt16} {body : Str} (isBody : body = [] ∨ IsField body) :
      Directive.WellFormed parser display (.respond status body)
  | forwardAuth {cfg : ForwardAuthConfig} (wellFormed : cfg.WellFormed parser display) :
      Directive.WellFormed parser display (.forwardAuth cfg)

structure SiteConfig.WellFormed (parser : UriParser) (display : Uri → Str) (site : SiteConfig) :
    Prop where
  address : IsField site.address
  noComment : site.address.head? ≠ some '#'
  tls : ∀ tls ∈ site.tls, IsField tls.certPath ∧ IsField tls.keyPath
  directives : ∀ directive ∈ site.directives, directive.WellFormed parser display

structure Config.WellFormed (parser : UriParser) (display : Uri → Str) (config : Config) :
    Prop where
  keyed : ∀ key site, config.sites.lookup key = some site → site.address = key
  sites : ∀ site ∈ config.values, site.WellFormed parser display
  sockets : validateListenSockets config = .ok ()

/-! ## The lines of a canonical text -/

/-- The first word of a line that is neither a comment nor a closing brace. -/
def Plain (word : Str) : Prop := word.head? ≠ some '#' ∧ word.head? ≠ some '\x7d'

instance (word : Str) : Decidable (Plain word) := by
  unfold Plain
  infer_instance

/-- A text that stays one line when a line feed follows it. -/
structure IsWhole (raw : Str) : Prop where
  noFeed : '\n' ∉ raw
  noReturn : raw.getLast? ≠ some '\r'

structure IsLine (raw : Str) (kind : LineKind) : Prop where
  whole : IsWhole raw
  kind : lineKind raw = kind

theorem whole_join {words : List Str} (areWords : ∀ word ∈ words, IsWord word) :
    IsWhole (join [' '] words) := by
  have noBreak : ∀ c, isWhitespace c = true → c ≠ ' ' → c ∉ join [' '] words := by
    intro c blank notSpace member
    rcases mem_join member with space | ⟨word, among, inside⟩
    · exact notSpace (List.mem_singleton.mp space)
    · exact (areWords word among).not_mem blank inside
  exact ⟨noBreak '\n' rfl (by decide),
    fun last => noBreak '\r' rfl (by decide) (List.mem_of_getLast? last)⟩

section Lines
variable {first : Str} {rest : List Str}

theorem join_startsWith {c : Char} (isWord : IsWord first) (other : first.head? ≠ some c) :
    startsWith [c] (join [' '] (first :: rest)) = false := by
  rw [Bool.eq_false_iff, ne_eq, startsWith_singleton, head?_join _ _ isWord.nonempty]
  exact other

theorem join_ne_nil (isWord : IsWord first) : join [' '] (first :: rest) ≠ [] := by
  intro empty
  have head := head?_join [' '] rest isWord.nonempty
  rw [empty] at head
  exact isWord.nonempty (List.head?_eq_none_iff.mp head.symm)

theorem isLine_simple (areWords : ∀ word ∈ first :: rest, IsWord word) (plain : Plain first)
    (noBrace : (join [' '] (first :: rest)).getLast? ≠ some '\x7b') :
    IsLine (join [' '] (first :: rest)) (.simple (first :: rest)) := by
  have isFirst := areWords first (List.mem_cons_self ..)
  have content : ¬ (join [' '] (first :: rest) = [] ∨
      startsWith ['#'] (join [' '] (first :: rest)) = true) := by
    rw [join_startsWith isFirst plain.1]
    exact fun blank => blank.elim (join_ne_nil isFirst) Bool.false_ne_true
  have notCloser : join [' '] (first :: rest) ≠ ['\x7d'] := by
    intro closer
    have head := head?_join [' '] rest isFirst.nonempty
    rw [closer] at head
    exact plain.2 head.symm
  have notOpener : ¬ endsWith ['\x7b'] (join [' '] (first :: rest)) = true := by
    rw [endsWith_singleton]
    exact noBrace
  refine ⟨whole_join areWords, ?_⟩
  unfold lineKind
  dsimp only
  rw [trim_join areWords, if_neg content, if_neg notOpener, if_neg notCloser,
    splitWhitespace_join areWords]

theorem isWord_brace : IsWord ['\x7b'] := isWord_of_all rfl

theorem isLine_opening (areWords : ∀ word ∈ first :: rest, IsWord word)
    (noComment : first.head? ≠ some '#') :
    IsLine (openingLine (first :: rest)) (.opener (first :: (rest ++ [['\x7b']]))) := by
  have isFirst := areWords first (List.mem_cons_self ..)
  have allWords : ∀ word ∈ first :: (rest ++ [['\x7b']]), IsWord word := by
    intro word member
    rw [← List.cons_append, List.mem_append] at member
    rcases member with member | brace
    · exact areWords word member
    · obtain rfl := List.mem_singleton.mp brace
      exact isWord_brace
  have content : ¬ (join [' '] (first :: (rest ++ [['\x7b']])) = [] ∨
      startsWith ['#'] (join [' '] (first :: (rest ++ [['\x7b']]))) = true) := by
    rw [join_startsWith isFirst noComment]
    exact fun blank => blank.elim (join_ne_nil isFirst) Bool.false_ne_true
  have opener : endsWith ['\x7b'] (join [' '] (first :: (rest ++ [['\x7b']]))) = true := by
    have last : (first :: (rest ++ [['\x7b']])).getLast? = some ['\x7b'] := by
      rw [← List.cons_append, List.getLast?_concat]
    rw [endsWith_singleton, getLast?_join _ last isWord_brace.nonempty]
    rfl
  rw [openingLine, List.cons_append]
  refine ⟨whole_join allWords, ?_⟩
  unfold lineKind
  dsimp only
  rw [trim_join allWords, if_neg content, if_pos opener,
    splitWhitespace_join allWords]

theorem isLine_closing : IsLine closingLine .closer := ⟨⟨by decide, by decide⟩, rfl⟩

theorem blockArgs_fields (areFields : ∀ word ∈ rest, IsField word) :
    blockArgs (rest ++ [['\x7b']]) = rest := by
  have kept : ∀ word ∈ rest, decide (word ≠ ['\x7b']) = true := by
    intro word member
    apply decide_eq_true
    rintro rfl
    exact (areFields _ member).noBrace List.getLast?_singleton
  rw [blockArgs, List.filter_append, List.filter_eq_self.mpr kept]
  exact List.append_nil rest

end Lines

end TinyProxy
