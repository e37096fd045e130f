import TinyProxy.Config.Render
import TinyProxy.Config.Conservation
import TinyProxy.Config.Sockets

/-!
# Parsing undoes rendering

Each piece of a canonical text takes the parser from one state to another at
any line number; pieces compose.  A rendered directive pushes itself on the
innermost list of directives, whatever encloses it.
-/

set_option autoImplicit false

namespace TinyProxy

open Rust Http

/-! ## Runs of pieces -/

/-- The lines take the first state to the second, wherever they stand in a text. -/
structure Runs (parser : UriParser) (raws : List Str) (s s' : ParserState) : Prop where
  reads : ∀ line, parseLines parser line raws s = .ok s'
  whole : ∀ raw ∈ raws, IsWhole raw

section Pieces
variable {parser : UriParser} {s middle s' : ParserState}

theorem Runs.nil (s : ParserState) : Runs parser [] s s :=
  ⟨fun _ => rfl, fun _ member => absurd member List.not_mem_nil⟩

theorem Runs.append {front back : List Str} (start : Runs parser front s middle)
    (finish : Runs parser back middle s') : Runs parser (front ++ back) s s' := by
  refine ⟨fun line => ?_, List.forall_mem_append.mpr ⟨start.whole, finish.whole⟩⟩
  rw [parseLines_bind, start.reads line]
  exact finish.reads _

theorem Runs.line {raw name : Str} {args : List Str}
    (isLine : IsLine raw (.simple (name :: args)))
    (step : ∀ line, simpleLine name args line s = .ok s') : Runs parser [raw] s s' := by
  refine ⟨fun line => ?_, List.forall_mem_singleton.mpr isLine.whole⟩
  rw [parseLines, parseLine_eq, isLine.kind]
  dsimp only
  rw [step line]
  rfl

theorem Runs.block {opening : Str} {parts body : List Str} {inside : ParserState}
    (opens : IsLine opening (.opener parts)) (runs : Runs parser body (openBlock parts s) inside)
    (closes : ∀ line, closeBlock parser line inside = .ok s') :
    Runs parser (opening :: (body ++ [closingLine])) s s' := by
  refine ⟨fun line => ?_, List.forall_mem_cons.mpr ⟨opens.whole, List.forall_mem_append.mpr
    ⟨runs.whole, List.forall_mem_singleton.mpr isLine_closing.whole⟩⟩⟩
  have opened : parseLine parser line opening s = .ok (openBlock parts s) := by
    rw [parseLine_eq, opens.kind]
  have closed : parseLine parser (line + 1 + body.length) closingLine inside = .ok s' := by
    rw [parseLine_eq, isLine_closing.kind]
    exact closes _
  rw [parseLines, opened]
  change parseLines parser (line + 1) (body ++ [closingLine]) (openBlock parts s) = _
  rw [parseLines_bind, runs.reads (line + 1)]
  change parseLines parser (line + 1 + body.length) [closingLine] inside = _
  rw [parseLines, closed]
  rfl

end Pieces

/-! ## Fields -/

theorem isField_of_all {c : Char} {rest : Str}
    (plain : ((c :: rest).all fun d => !isWhitespace d && (d != '\x7b')) = true) :
    IsField (c :: rest) := by
  have checked : ∀ d ∈ c :: rest, isWhitespace d = false ∧ d ≠ '\x7b' := by
    intro d member
    have both := List.all_eq_true.mp plain d member
    rwa [Bool.and_eq_true, Bool.not_eq_true', bne_iff_ne] at both
  refine ⟨⟨List.cons_ne_nil _ _, fun d member => (checked d member).1⟩, fun last => ?_⟩
  exact (checked _ (List.mem_of_getLast? last)).2 rfl

theorem HeaderName.isField (name : HeaderName) : IsField name.text := by
  have nonempty : name.text ≠ [] := by
    have valid := name.valid
    simp only [isHeaderName, Bool.and_eq_true, decide_eq_true_eq] at valid
    exact List.ne_nil_of_length_pos valid.1.1
  refine ⟨⟨nonempty, fun c member => (token_plain (name.token c member)).1⟩, fun last => ?_⟩
  exact (token_plain (name.token _ (List.mem_of_getLast? last))).2.1 rfl

theorem decimal_isField (n : Nat) : IsField (decimal n) := by
  refine ⟨decimal_isWord n, fun last => ?_⟩
  exact absurd (decimal_isDigit (List.mem_of_getLast? last)) (by decide)

theorem isField_dash {name : Str} (isField : IsField name) : IsField ('-' :: name) := by
  obtain ⟨⟨nonempty, solid⟩, noBrace⟩ := isField
  refine ⟨⟨List.cons_ne_nil _ _, ?_⟩, ?_⟩
  · exact List.forall_mem_cons.mpr ⟨rfl, solid⟩
  · obtain ⟨c, rest, rfl⟩ := List.exists_cons_of_ne_nil nonempty
    rwa [List.getLast?_cons_cons]

theorem areFields_names (names : List HeaderName) :
    ∀ word ∈ names.map HeaderName.text, IsField word := by
  intro word member
  obtain ⟨name, _, rfl⟩ := List.mem_map.mp member
  exact HeaderName.isField name

section Kinds
variable {first : Str} {rest : List Str}

theorem isLine_fields (areFields : ∀ word ∈ first :: rest, IsField word) (plain : Plain first) :
    IsLine (join [' '] (first :: rest)) (.simple (first :: rest)) := by
  refine isLine_simple (fun word member => (areFields word member).isWord) plain ?_
  have last := List.getLast?_eq_some_getLast (List.cons_ne_nil first rest)
  have isField := areFields _ (List.mem_of_getLast? last)
  rw [getLast?_join _ last isField.isWord.nonempty]
  exact isField.noBrace

theorem join_phrase (first : Str) {words : List Str} (nonempty : words ≠ []) :
    join [' '] [first, join [' '] words] = join [' '] (first :: words) := by
  obtain ⟨word, others, rfl⟩ := List.exists_cons_of_ne_nil nonempty
  rw [join_cons_cons, join_singleton, join_cons_cons]

theorem IsPhrase.nonempty {text : Str} (isPhrase : IsPhrase text) : text ≠ [] := by
  obtain ⟨words, nonempty, areWords, rfl, _⟩ := isPhrase
  obtain ⟨word, others, rfl⟩ := List.exists_cons_of_ne_nil nonempty
  exact join_ne_nil (areWords word (List.mem_cons_self ..))

/-- A line of two fields and a phrase has the words of the phrase as further arguments. -/
theorem isLine_phrase {name text : Str} (isFirst : IsField first) (isName : IsField name)
    (plain : Plain first) (isPhrase : IsPhrase text) :
    ∃ words, words ≠ [] ∧ text = join [' '] words ∧
      IsLine (join [' '] [first, name, text]) (.simple (first :: name :: words)) := by
  obtain ⟨words, nonempty, areWords, rfl, noBrace⟩ := isPhrase
  obtain ⟨word, others, rfl⟩ := List.exists_cons_of_ne_nil nonempty
  have flat : join [' '] [first, name, join [' '] (word :: others)] =
      join [' '] (first :: name :: word :: others) := by
    rw [join_cons_cons, join_phrase name nonempty, ← join_cons_cons]
  refine ⟨_, nonempty, rfl, ?_⟩
  rw [flat]
  refine isLine_simple ?_ plain ?_
  · exact List.forall_mem_cons.mpr
      ⟨isFirst.isWord, List.forall_mem_cons.mpr ⟨isName.isWord, areWords⟩⟩
  · have last := List.getLast?_eq_some_getLast (List.cons_ne_nil word others)
    have filled := (areWords _ (List.mem_of_getLast? last)).nonempty
    rw [getLast?_join _ last filled] at noBrace
    rw [getLast?_join _ (by rw [List.getLast?_cons_cons, List.getLast?_cons_cons, last]) filled]
    exact noBrace

end Kinds

/-! ## Directives and settings -/

/-- Lines directly inside are directives, not settings. -/
def TakesDirectives (blocks : List PendingBlock) : Prop :=
  ∀ block ∈ blocks.head?, block.directiveType ≠ "forward_auth".toList ∧
    block.directiveType ≠ "reverse_proxy".toList

section States
variable {parser : UriParser} {sites : AList fun _ : Str => SiteConfig} {site : Option Str}
variable {tls : Option TlsConfig} {top : List Directive} {outer : List (List Directive)}
variable {blocks : List PendingBlock}

theorem simpleLine_directive {name : Str} {args : List Str} {line : Nat} {s : ParserState}
    (takes : TakesDirectives s.blockStack) (notTls : name ≠ "tls".toList) :
    simpleLine name args line s = regularLine name args line s := by
  unfold simpleLine
  cases stack : s.blockStack with
  | nil => exact if_neg notTls
  | cons block blocks =>
      obtain ⟨notAuth, notProxy⟩ := takes block (by rw [stack]; rfl)
      dsimp only
      rw [if_neg notAuth, if_neg notProxy]

theorem directive_runs {raw name : Str} {args : List Str} {directive : Directive}
    (isLine : IsLine raw (.simple (name :: args))) (takes : TakesDirectives blocks)
    (notTls : name ≠ "tls".toList)
    (parsed : ∀ line, parseDirective name args line = .ok directive) :
    Runs parser [raw] ⟨sites, site, tls, top :: outer, blocks⟩
      ⟨sites, site, tls, (top ++ [directive]) :: outer, blocks⟩ := by
  refine Runs.line isLine fun line => ?_
  rw [simpleLine_directive takes notTls, regularLine, parsed line]
  rfl

theorem proxySetting_runs {raw name : Str} {args : List Str} {block block' : PendingBlock}
    {stack : List (List Directive)} (isLine : IsLine raw (.simple (name :: args)))
    (isProxy : block.directiveType = "reverse_proxy".toList)
    (set : ∀ line, reverseProxySetting name args line block = .ok block') :
    Runs parser [raw] ⟨sites, site, tls, stack, block :: blocks⟩
      ⟨sites, site, tls, stack, block' :: blocks⟩ := by
  have notAuth : block.directiveType ≠ "forward_auth".toList := by
    rw [isProxy]
    decide
  refine Runs.line isLine fun line => ?_
  rw [simpleLine]
  dsimp only
  rw [if_neg notAuth, if_pos isProxy, set line]
  rfl

/-- A `forward_auth` block with what has been set so far. -/
def authBlock (pending : ForwardAuthBlock) : PendingBlock :=
  ⟨"forward_auth".toList, [], none, none, [], some pending⟩

theorem authSetting_runs {raw name : Str} {args : List Str} {pending pending' : ForwardAuthBlock}
    {stack : List (List Directive)} (isLine : IsLine raw (.simple (name :: args)))
    (set : ∀ line, forwardAuthSetting name args line pending = .ok pending') :
    Runs parser [raw] ⟨sites, site, tls, stack, authBlock pending :: blocks⟩
      ⟨sites, site, tls, stack, authBlock pending' :: blocks⟩ := by
  have isAuth : (authBlock pending).directiveType = "forward_auth".toList := rfl
  have held : (authBlock pending).forwardAuth = some pending := rfl
  refine Runs.line isLine fun line => ?_
  rw [simpleLine]
  dsimp only
  rw [if_pos isAuth, held]
  dsimp only
  rw [set line]
  rfl

/-- The block a heading opens. -/
def pendingBlock (head : Str) (args : List Str) : PendingBlock :=
  ⟨head, args, none, none, [], if head = "forward_auth".toList then some .default else none⟩

theorem pendingBlock_other {head : Str} (args : List Str)
    (notAuth : head ≠ "forward_auth".toList) :
    pendingBlock head args = ⟨head, args, none, none, [], none⟩ := by
  rw [pendingBlock, if_neg notAuth]

/-- A block whose body runs to `block`, which then completes to a directive. -/
theorem renderBlock_runs {address head : Str} {args body : List Str} {finished : List Directive}
    {block : PendingBlock} {directive : Directive}
    (areFields : ∀ word ∈ head :: args, IsField word) (noComment : head.head? ≠ some '#')
    (inside : Runs parser body
      ⟨sites, some address, tls, [] :: top :: outer, pendingBlock head args :: blocks⟩
      ⟨sites, some address, tls, finished :: top :: outer, block :: blocks⟩)
    (completes : ∀ line, completeBlock parser block finished line = .ok directive) :
    Runs parser (renderBlock (head :: args) body)
      ⟨sites, some address, tls, top :: outer, blocks⟩
      ⟨sites, some address, tls, (top ++ [directive]) :: outer, blocks⟩ := by
  have opens := isLine_opening (fun word member => (areFields word member).isWord) noComment
  have opened : openBlock (head :: (args ++ [['\x7b']]))
      ⟨sites, some address, tls, top :: outer, blocks⟩ =
      ⟨sites, some address, tls, [] :: top :: outer, pendingBlock head args :: blocks⟩ := by
    have nested : ¬ ((top :: outer).length = 1 ∧ some address = none) := fun site => nomatch site.2
    rw [openBlock]
    dsimp only
    rw [if_neg nested, ← blockArgs,
      blockArgs_fields fun word member => areFields word (List.mem_cons_of_mem _ member)]
    rfl
  refine Runs.block opens (opened ▸ inside) fun line => ?_
  rw [closeBlock]
  dsimp only
  rw [completes line]
  rfl

/-! ## Backends -/

theorem parseDuration_decimal (n : UInt64) : parseDuration (decimal n.toNat) = .ok n := by
  have isWord := decimal_isWord n.toNat
  have trimmed : trim (decimal n.toNat) = decimal n.toNat := by
    have alone : trim (join [' '] [decimal n.toNat]) = join [' '] [decimal n.toNat] :=
      trim_join (List.forall_mem_singleton.mpr isWord)
    rwa [join_singleton] at alone
  unfold parseDuration
  dsimp only
  rw [trimmed, if_neg isWord.nonempty, parseU64_decimal]

/-- The backend block, with what has been set so far. -/
def proxyBlock (to_ : Str) (connectTimeout readTimeout : Option UInt64)
    (headerUp : List HeaderDirective) : PendingBlock :=
  ⟨"reverse_proxy".toList, [to_], connectTimeout, readTimeout, headerUp, none⟩

variable {to_ : Str} {stack : List (List Directive)}

theorem pendingBlock_proxy (to_ : Str) :
    pendingBlock "reverse_proxy".toList [to_] = proxyBlock to_ none none [] :=
  pendingBlock_other [to_] (by decide)

theorem connectTimeout_runs (value : Option UInt64) :
    Runs parser (renderSeconds "connect_timeout".toList value)
      ⟨sites, site, tls, stack, proxyBlock to_ none none [] :: blocks⟩
      ⟨sites, site, tls, stack, proxyBlock to_ value none [] :: blocks⟩ := by
  cases value with
  | none => exact Runs.nil _
  | some seconds =>
      have areFields : ∀ word ∈ ["connect_timeout".toList, decimal seconds.toNat], IsField word :=
        List.forall_iff_forall_mem.mp ⟨isField_of_all rfl, decimal_isField _⟩
      have isLine := isLine_fields areFields (by decide)
      refine proxySetting_runs isLine rfl fun line => ?_
      rw [reverseProxySetting, if_pos rfl, timeoutSetting]
      dsimp only [List.head?]
      rw [parseDuration_decimal]
      rfl

theorem readTimeout_runs (connectTimeout value : Option UInt64) :
    Runs parser (renderSeconds "read_timeout".toList value)
      ⟨sites, site, tls, stack, proxyBlock to_ connectTimeout none [] :: blocks⟩
      ⟨sites, site, tls, stack, proxyBlock to_ connectTimeout value [] :: blocks⟩ := by
  cases value with
  | none => exact Runs.nil _
  | some seconds =>
      have areFields : ∀ word ∈ ["read_timeout".toList, decimal seconds.toNat], IsField word :=
        List.forall_iff_forall_mem.mp ⟨isField_of_all rfl, decimal_isField _⟩
      have isLine := isLine_fields areFields (by decide)
      have other : "read_timeout".toList ≠ "connect_timeout".toList := by decide
      refine proxySetting_runs isLine rfl fun line => ?_
      rw [reverseProxySetting, if_neg other, if_pos rfl, timeoutSetting]
      dsimp only [List.head?]
      rw [parseDuration_decimal]
      rfl

theorem stripPrefix_dash {name : Str} (noDash : name.head? ≠ some '-') :
    stripPrefix ['-'] name = none := by
  cases stripped : stripPrefix ['-'] name with
  | none => rfl
  | some rest =>
      rw [stripPrefix_eq_some_iff.mp stripped] at noDash
      exact absurd rfl noDash

theorem headerUpSetting_words {directive : HeaderDirective} (wellFormed : directive.WellFormed) :
    ∃ args, IsLine directive.render (.simple ("header_up".toList :: args)) ∧
      ∀ line, headerUpSetting args line = .ok directive := by
  have isKeyword : IsField "header_up".toList := isField_of_all rfl
  obtain ⟨name, value⟩ := directive
  cases value with
  | none =>
      have isName : IsField name := wellFormed
      refine ⟨['-' :: name], isLine_fields (List.forall_iff_forall_mem.mp
        ⟨isKeyword, isField_dash isName⟩) (by decide), fun line => ?_⟩
      have removal : stripPrefix ['-'] ('-' :: name) = some name := stripPrefix_eq_some_iff.mpr rfl
      rw [headerUpSetting, removal]
      dsimp only
      rw [if_neg isName.isWord.nonempty]
  | some value =>
      obtain ⟨⟨isName, noDash⟩, isPhrase⟩ := wellFormed
      obtain ⟨words, nonempty, rfl, isLine⟩ :=
        isLine_phrase isKeyword isName (by decide) isPhrase
      refine ⟨name :: words, isLine, fun line => ?_⟩
      rw [headerUpSetting, stripPrefix_dash noDash]
      dsimp only
      rw [if_neg isPhrase.nonempty]

theorem headerUp_runs (connectTimeout readTimeout : Option UInt64) :
    ∀ {directives : List HeaderDirective}, (∀ directive ∈ directives, directive.WellFormed) →
      ∀ before, Runs parser (directives.map HeaderDirective.render)
        ⟨sites, site, tls, stack, proxyBlock to_ connectTimeout readTimeout before :: blocks⟩
        ⟨sites, site, tls, stack,
          proxyBlock to_ connectTimeout readTimeout (before ++ directives) :: blocks⟩ := by
  intro directives
  induction directives with
  | nil =>
      intro _ before
      rw [List.append_nil]
      exact Runs.nil _
  | cons first rest ih =>
      intro wellFormed before
      obtain ⟨args, isLine, set⟩ := headerUpSetting_words (wellFormed first (List.mem_cons_self ..))
      have later := ih (fun directive member => wellFormed directive (List.mem_cons_of_mem _ member))
        (before ++ [first])
      rw [List.append_assoc, List.singleton_append] at later
      change Runs parser ([first.render] ++ rest.map HeaderDirective.render) _ _
      refine Runs.append (proxySetting_runs isLine rfl fun line => ?_) later
      have notConnect : "header_up".toList ≠ "connect_timeout".toList := by decide
      have notRead : "header_up".toList ≠ "read_timeout".toList := by decide
      rw [reverseProxySetting, if_neg notConnect, if_neg notRead, if_pos rfl, set line]
      rfl

theorem renderSeconds_eq_nil {name : Str} {value : Option UInt64}
    (empty : renderSeconds name value = []) : value = none := by
  cases value with
  | none => rfl
  | some seconds => cases empty

theorem completeBlock_proxy {block : PendingBlock} {finished : List Directive} {line : Nat}
    (isProxy : block.directiveType = "reverse_proxy".toList) :
    completeBlock parser block finished line =
      .ok (.reverseProxy (block.args.head?.getD []) block.connectTimeout block.readTimeout
        block.headerUp) := by
  have notPath : block.directiveType ≠ "handle_path".toList := by
    rw [isProxy]
    decide
  have notMethod : block.directiveType ≠ "method".toList := by
    rw [isProxy]
    decide
  rw [completeBlock, if_neg notPath, if_neg notMethod, if_pos isProxy]

theorem reverseProxy_runs {address : Str} {connectTimeout readTimeout : Option UInt64}
    {headerUp : List HeaderDirective} (display : Uri → Str) (takes : TakesDirectives blocks)
    (backend : IsField to_) (headers : ∀ directive ∈ headerUp, directive.WellFormed) :
    Runs parser ((Directive.reverseProxy to_ connectTimeout readTimeout headerUp).render display)
      ⟨sites, some address, tls, top :: outer, blocks⟩
      ⟨sites, some address, tls,
        (top ++ [.reverseProxy to_ connectTimeout readTimeout headerUp]) :: outer, blocks⟩ := by
  have areFields : ∀ word ∈ ["reverse_proxy".toList, to_], IsField word :=
    List.forall_iff_forall_mem.mp ⟨isField_of_all rfl, backend⟩
  rw [Directive.render]
  split
  next empty =>
    obtain ⟨noConnect, others⟩ := List.append_eq_nil_iff.mp empty
    obtain ⟨noRead, noHeaders⟩ := List.append_eq_nil_iff.mp others
    obtain rfl := renderSeconds_eq_nil noConnect
    obtain rfl := renderSeconds_eq_nil noRead
    obtain rfl := List.map_eq_nil_iff.mp noHeaders
    refine directive_runs (isLine_fields areFields (by decide)) takes (by decide) fun line => ?_
    rw [parseDirective, if_pos rfl]
  next =>
    have settings : Runs parser (renderBackend connectTimeout readTimeout headerUp)
        ⟨sites, some address, tls, [] :: top :: outer,
          pendingBlock "reverse_proxy".toList [to_] :: blocks⟩
        ⟨sites, some address, tls, [] :: top :: outer,
          proxyBlock to_ connectTimeout readTimeout headerUp :: blocks⟩ := by
      rw [pendingBlock_proxy]
      exact Runs.append (connectTimeout_runs connectTimeout)
        (Runs.append (readTimeout_runs connectTimeout readTimeout)
          (headerUp_runs connectTimeout readTimeout headers []))
    exact renderBlock_runs areFields (by decide) settings fun line => completeBlock_proxy rfl

/-! ## Authorizations -/

theorem parseHeaders_text (what : Str) (line : Nat) (names : List HeaderName) :
    parseHeaders what line (names.map HeaderName.text) = .ok names := by
  rw [parseHeaders]
  induction names with
  | nil => rfl
  | cons name rest ih =>
      rw [List.map_cons, List.mapM_cons, HeaderName.fromBytes_text, ih]
      rfl

theorem authTo_runs (url : Str) (pending : ForwardAuthBlock) (isField : IsField url) :
    Runs parser [join [' '] ["to".toList, url]]
      ⟨sites, site, tls, stack, authBlock pending :: blocks⟩
      ⟨sites, site, tls, stack, authBlock { pending with to_ := some url } :: blocks⟩ := by
  refine authSetting_runs (isLine_fields (List.forall_iff_forall_mem.mp
    ⟨isField_of_all rfl, isField⟩) (by decide)) fun line => ?_
  rw [forwardAuthSetting, if_pos rfl]
  rfl

theorem authRequestHeaders_runs {names : List HeaderName} (pending : ForwardAuthBlock)
    (nonempty : names ≠ []) :
    Runs parser [join [' '] ("request_headers".toList :: names.map HeaderName.text)]
      ⟨sites, site, tls, stack, authBlock pending :: blocks⟩
      ⟨sites, site, tls, stack,
        authBlock { pending with requestHeaders := some (names.map HeaderName.text) } ::
          blocks⟩ := by
  refine authSetting_runs (isLine_fields (List.forall_mem_cons.mpr
    ⟨isField_of_all rfl, areFields_names names⟩) (by decide)) fun line => ?_
  have notTo : "request_headers".toList ≠ "to".toList := by decide
  have filled : names.map HeaderName.text ≠ [] := List.map_eq_nil_iff.not.mpr nonempty
  rw [forwardAuthSetting, if_neg notTo, if_pos (Or.inl rfl), if_neg filled, if_pos rfl]

theorem authResponseHeaders_runs {names : List HeaderName} (pending : ForwardAuthBlock)
    (nonempty : names ≠ []) :
    Runs parser [join [' '] ("response_headers".toList :: names.map HeaderName.text)]
      ⟨sites, site, tls, stack, authBlock pending :: blocks⟩
      ⟨sites, site, tls, stack,
        authBlock { pending with responseHeaders := some (names.map HeaderName.text) } ::
          blocks⟩ := by
  refine authSetting_runs (isLine_fields (List.forall_mem_cons.mpr
    ⟨isField_of_all rfl, areFields_names names⟩) (by decide)) fun line => ?_
  have notTo : "response_headers".toList ≠ "to".toList := by decide
  have notRequest : "response_headers".toList ≠ "request_headers".toList := by decide
  have filled : names.map HeaderName.text ≠ [] := List.map_eq_nil_iff.not.mpr nonempty
  rw [forwardAuthSetting, if_neg notTo, if_pos (Or.inr rfl), if_neg filled, if_neg notRequest]

theorem failureMode_isField (mode : FailureMode) : IsField mode.render := by
  cases mode with
  | closed => exact isField_of_all rfl
  | «open» => exact isField_of_all rfl

theorem parseFailureMode_render (mode : FailureMode) (line : Nat) :
    parseFailureMode mode.render line = .ok mode := by
  cases mode with
  | closed => rfl
  | «open» => rfl

theorem authFailureMode_runs (mode : FailureMode) (pending : ForwardAuthBlock) :
    Runs parser [join [' '] ["failure_mode".toList, mode.render]]
      ⟨sites, site, tls, stack, authBlock pending :: blocks⟩
      ⟨sites, site, tls, stack, authBlock { pending with failureMode := some mode } :: blocks⟩ := by
  refine authSetting_runs (isLine_fields (List.forall_iff_forall_mem.mp
    ⟨isField_of_all rfl, failureMode_isField mode⟩) (by decide)) fun line => ?_
  have notTo : "failure_mode".toList ≠ "to".toList := by decide
  have notHeaders : ¬ ("failure_mode".toList = "request_headers".toList ∨
      "failure_mode".toList = "response_headers".toList) := by decide
  rw [forwardAuthSetting, if_neg notTo, if_neg notHeaders, if_pos rfl]
  dsimp only [List.head?]
  rw [parseFailureMode_render]
  rfl

theorem authTimeout_runs (seconds : UInt64) (pending : ForwardAuthBlock) :
    Runs parser [join [' '] ["timeout".toList, decimal seconds.toNat]]
      ⟨sites, site, tls, stack, authBlock pending :: blocks⟩
      ⟨sites, site, tls, stack, authBlock { pending with timeout := some seconds } :: blocks⟩ := by
  refine authSetting_runs (isLine_fields (List.forall_iff_forall_mem.mp
    ⟨isField_of_all rfl, decimal_isField _⟩) (by decide)) fun line => ?_
  have notTo : "timeout".toList ≠ "to".toList := by decide
  have notHeaders : ¬ ("timeout".toList = "request_headers".toList ∨
      "timeout".toList = "response_headers".toList) := by decide
  have notMode : "timeout".toList ≠ "failure_mode".toList := by decide
  rw [forwardAuthSetting, if_neg notTo, if_neg notHeaders, if_neg notMode, if_pos rfl]
  dsimp only [List.head?]
  rw [parseDuration_decimal]
  rfl

theorem completeBlock_auth {block : PendingBlock} {pending : ForwardAuthBlock} {line : Nat}
    (isAuth : block.directiveType = "forward_auth".toList)
    (held : block.forwardAuth = some pending) :
    completeBlock parser block [] line = buildForwardAuth parser pending line := by
  have notPath : block.directiveType ≠ "handle_path".toList := by
    rw [isAuth]
    decide
  have notMethod : block.directiveType ≠ "method".toList := by
    rw [isAuth]
    decide
  have notProxy : block.directiveType ≠ "reverse_proxy".toList := by
    rw [isAuth]
    decide
  rw [completeBlock, if_neg notPath, if_neg notMethod, if_neg notProxy, if_pos isAuth, held]
  rfl

/-- What the settings of a rendered authorization add up to. -/
def settledAuth (display : Uri → Str) (cfg : ForwardAuthConfig) : ForwardAuthBlock :=
  ⟨some (display cfg.endpoint), some (cfg.requestHeaders.map HeaderName.text),
    if cfg.responseHeaders = [] then none
    else some (cfg.responseHeaders.map HeaderName.text),
    some cfg.failureMode, some cfg.timeoutSecs⟩

theorem authSettings_runs {display : Uri → Str} {cfg : ForwardAuthConfig}
    (wellFormed : cfg.WellFormed parser display) :
    Runs parser (cfg.render display)
      ⟨sites, site, tls, stack, authBlock .default :: blocks⟩
      ⟨sites, site, tls, stack, authBlock (settledAuth display cfg) :: blocks⟩ := by
  have first : Runs parser
      [join [' '] ["to".toList, display cfg.endpoint],
        join [' '] ("request_headers".toList :: cfg.requestHeaders.map HeaderName.text)]
      ⟨sites, site, tls, stack, authBlock .default :: blocks⟩
      ⟨sites, site, tls, stack, authBlock ⟨some (display cfg.endpoint),
        some (cfg.requestHeaders.map HeaderName.text), none, none, none⟩ :: blocks⟩ :=
    Runs.append (authTo_runs _ _ wellFormed.isField)
      (authRequestHeaders_runs _ wellFormed.requestHeaders)
  have last : ∀ responseHeaders, Runs parser
      [join [' '] ["failure_mode".toList, cfg.failureMode.render],
        join [' '] ["timeout".toList, decimal cfg.timeoutSecs.toNat]]
      ⟨sites, site, tls, stack, authBlock ⟨some (display cfg.endpoint),
        some (cfg.requestHeaders.map HeaderName.text), responseHeaders, none, none⟩ :: blocks⟩
      ⟨sites, site, tls, stack, authBlock ⟨some (display cfg.endpoint),
        some (cfg.requestHeaders.map HeaderName.text), responseHeaders, some cfg.failureMode,
        some cfg.timeoutSecs⟩ :: blocks⟩ := fun _ =>
    Runs.append (authFailureMode_runs _ _) (authTimeout_runs _ _)
  rw [ForwardAuthConfig.render, settledAuth]
  refine Runs.append first ?_
  split
  next => exact last none
  next some_ => exact Runs.append (authResponseHeaders_runs _ some_) (last _)

theorem buildForwardAuth_settled {display : Uri → Str} {cfg : ForwardAuthConfig} (line : Nat)
    (wellFormed : cfg.WellFormed parser display) :
    buildForwardAuth parser (settledAuth display cfg) line = .ok (.forwardAuth cfg) := by
  obtain ⟨uri, parsed, normalized⟩ := wellFormed.endpoint
  rw [buildForwardAuth, settledAuth]
  dsimp only
  rw [parsed]
  dsimp only
  rw [normalized]
  dsimp only
  rw [parseHeaders_text]
  by_cases none_ : cfg.responseHeaders = []
  · rw [if_pos none_]
    obtain ⟨endpoint, requestHeaders, responseHeaders, failureMode, timeoutSecs⟩ := cfg
    obtain rfl : responseHeaders = [] := none_
    rfl
  · rw [if_neg none_]
    dsimp only
    rw [parseHeaders_text]
    rfl

theorem pendingBlock_auth {head : Str} (args : List Str) (isAuth : head = "forward_auth".toList) :
    pendingBlock head args = ⟨head, args, none, none, [], some .default⟩ := by
  rw [pendingBlock, if_pos isAuth]

theorem completeBlock_settled {display : Uri → Str} {cfg : ForwardAuthConfig} (line : Nat)
    (wellFormed : cfg.WellFormed parser display) :
    completeBlock parser (authBlock (settledAuth display cfg)) [] line =
      .ok (.forwardAuth cfg) := by
  have isAuth : (authBlock (settledAuth display cfg)).directiveType = "forward_auth".toList := rfl
  rw [completeBlock_auth isAuth rfl]
  exact buildForwardAuth_settled line wellFormed

theorem forwardAuth_runs {address : Str} {display : Uri → Str} {cfg : ForwardAuthConfig}
    (wellFormed : cfg.WellFormed parser display) :
    Runs parser ((Directive.forwardAuth cfg).render display)
      ⟨sites, some address, tls, top :: outer, blocks⟩
      ⟨sites, some address, tls, (top ++ [.forwardAuth cfg]) :: outer, blocks⟩ := by
  have areFields : ∀ word ∈ ["forward_auth".toList], IsField word :=
    List.forall_mem_singleton.mpr (isField_of_all rfl)
  have settings : Runs parser (cfg.render display)
      ⟨sites, some address, tls, [] :: top :: outer,
        pendingBlock "forward_auth".toList [] :: blocks⟩
      ⟨sites, some address, tls, [] :: top :: outer,
        authBlock (settledAuth display cfg) :: blocks⟩ := by
    rw [pendingBlock_auth [] rfl]
    exact authSettings_runs wellFormed
  rw [Directive.render]
  exact renderBlock_runs areFields (by decide) settings
    fun line => completeBlock_settled line wellFormed

/-! ## Directive trees -/

theorem completeBlock_handlePath {block : PendingBlock} {finished : List Directive} {line : Nat}
    (isPath : block.directiveType = "handle_path".toList) :
    completeBlock parser block finished line =
      .ok (.handlePath (block.args.head?.getD []) finished) := by
  rw [completeBlock, if_pos isPath]

theorem completeBlock_method {block : PendingBlock} {finished : List Directive} {line : Nat}
    (isMethod : block.directiveType = "method".toList) :
    completeBlock parser block finished line = .ok (.method block.args finished) := by
  have notPath : block.directiveType ≠ "handle_path".toList := by
    rw [isMethod]
    decide
  rw [completeBlock, if_neg notPath, if_pos isMethod]

theorem takesDirectives_cons {head : Str} {args : List Str}
    (notAuth : head ≠ "forward_auth".toList) (notProxy : head ≠ "reverse_proxy".toList) :
    TakesDirectives (pendingBlock head args :: blocks) := by
  intro block isHead
  obtain rfl := Option.some.inj isHead
  exact ⟨notAuth, notProxy⟩

theorem renderDirectives_runs {display : Uri → Str} : ∀ {directives : List Directive},
    (∀ directive ∈ directives, ∀ top, Runs parser (directive.render display)
      ⟨sites, site, tls, top :: outer, blocks⟩
      ⟨sites, site, tls, (top ++ [directive]) :: outer, blocks⟩) →
    ∀ top, Runs parser (renderDirectives display directives)
      ⟨sites, site, tls, top :: outer, blocks⟩
      ⟨sites, site, tls, (top ++ directives) :: outer, blocks⟩ := by
  intro directives
  induction directives with
  | nil =>
      intro _ top
      rw [renderDirectives, List.append_nil]
      exact Runs.nil _
  | cons first rest ih =>
      intro each top
      have later := ih (fun directive member => each directive (List.mem_cons_of_mem _ member))
        (top ++ [first])
      rw [List.append_assoc, List.singleton_append] at later
      rw [renderDirectives]
      exact Runs.append (each first (List.mem_cons_self ..) top) later

theorem headerLine_set {name value : Str} (isName : IsSetName name) :
    headerLine [name, value] = .ok (.header name (some value)) := by
  rw [headerLine, stripPrefix_dash isName.2]

theorem headerLine_remove {name : Str} (isName : IsField name) :
    headerLine ['-' :: name] = .ok (.header name none) := by
  have removal : stripPrefix ['-'] ('-' :: name) = some name := stripPrefix_eq_some_iff.mpr rfl
  rw [headerLine, removal]
  dsimp only
  rw [if_neg isName.isWord.nonempty]

theorem redirectLine_words {words : List Str} (status : UInt16) (nonempty : words ≠ []) :
    redirectLine (decimal status.toNat :: words) = .ok (.redirect status (join [' '] words)) := by
  obtain ⟨word, others, rfl⟩ := List.exists_cons_of_ne_nil nonempty
  rw [redirectLine]
  · rw [parseU16_decimal]
  · exact fun same => nomatch same

theorem parseDirective_respond {name : Str} {args : List Str} {line : Nat} {status : UInt16}
    (isRespond : name = "respond".toList) (parsed : args.head?.bind parseU16 = some status) :
    parseDirective name args line = .ok (.respond status (args[1]?.getD [])) := by
  have notProxy : name ≠ "reverse_proxy".toList := by
    rw [isRespond]
    decide
  have notReplace : name ≠ "uri_replace".toList := by
    rw [isRespond]
    decide
  have notHeader : name ≠ "header".toList := by
    rw [isRespond]
    decide
  unfold parseDirective
  rw [if_neg notProxy, if_neg notReplace, if_neg notHeader, if_pos isRespond, parsed]

theorem respond_parsed {line : Nat} (status : UInt16) (body : List Str) :
    parseDirective "respond".toList (decimal status.toNat :: body) line =
      .ok (.respond status (body.head?.getD [])) := by
  rw [List.head?_eq_getElem?]
  exact parseDirective_respond rfl (parseU16_decimal status)

/-- A rendered directive pushes itself, in whatever block takes directives. -/
theorem Directive.WellFormed.runs {address : Str} {display : Uri → Str} {directive : Directive}
    (wellFormed : directive.WellFormed parser display) :
    ∀ {outer : List (List Directive)} {blocks : List PendingBlock}, TakesDirectives blocks →
      ∀ top, Runs parser (directive.render display)
        ⟨sites, some address, tls, top :: outer, blocks⟩
        ⟨sites, some address, tls, (top ++ [directive]) :: outer, blocks⟩ := by
  induction wellFormed with
  | reverseProxy backend headers =>
      intro outer blocks takes top
      exact reverseProxy_runs display takes backend headers
  | @handlePath pattern directives isField _ ih =>
      intro outer blocks takes top
      have areFields : ∀ word ∈ ["handle_path".toList, pattern], IsField word :=
        List.forall_iff_forall_mem.mp ⟨isField_of_all rfl, isField⟩
      have takesInside : TakesDirectives (pendingBlock "handle_path".toList [pattern] :: blocks) :=
        takesDirectives_cons (by decide) (by decide)
      have inside := renderDirectives_runs fun directive member =>
        @ih directive member (top :: outer) _ takesInside
      rw [Directive.render]
      exact renderBlock_runs areFields (by decide) (inside [])
        fun line => completeBlock_handlePath rfl
  | @method methods directives areMethods _ ih =>
      intro outer blocks takes top
      have areFields : ∀ word ∈ "method".toList :: methods, IsField word :=
        List.forall_mem_cons.mpr ⟨isField_of_all rfl, areMethods⟩
      have takesInside : TakesDirectives (pendingBlock "method".toList methods :: blocks) :=
        takesDirectives_cons (by decide) (by decide)
      have inside := renderDirectives_runs fun directive member =>
        @ih directive member (top :: outer) _ takesInside
      rw [Directive.render]
      exact renderBlock_runs areFields (by decide) (inside [])
        fun line => completeBlock_method rfl
  | forwardAuth authWellFormed =>
      intro outer blocks takes top
      exact forwardAuth_runs authWellFormed
  | @uriReplace find replacement isFind isReplacement =>
      intro outer blocks takes top
      have areFields : ∀ word ∈ ["uri_replace".toList, find, replacement], IsField word :=
        List.forall_iff_forall_mem.mp ⟨isField_of_all rfl, isFind, isReplacement⟩
      rw [Directive.render]
      exact directive_runs (isLine_fields areFields (by decide)) takes (by decide) fun _ => rfl
  | @setHeader name value isName isValue =>
      intro outer blocks takes top
      have areFields : ∀ word ∈ ["header".toList, name, value], IsField word :=
        List.forall_iff_forall_mem.mp ⟨isField_of_all rfl, isName.1, isValue⟩
      rw [Directive.render]
      exact directive_runs (isLine_fields areFields (by decide)) takes (by decide)
        fun line => headerLine_set isName
  | @removeHeader name isName =>
      intro outer blocks takes top
      have areFields : ∀ word ∈ ["header".toList, '-' :: name], IsField word :=
        List.forall_iff_forall_mem.mp ⟨isField_of_all rfl, isField_dash isName⟩
      rw [Directive.render]
      exact directive_runs (isLine_fields areFields (by decide)) takes (by decide)
        fun line => headerLine_remove isName
  | @stripPrefix pattern isField =>
      intro outer blocks takes top
      have areFields : ∀ word ∈ ["strip_prefix".toList, pattern], IsField word :=
        List.forall_iff_forall_mem.mp ⟨isField_of_all rfl, isField⟩
      rw [Directive.render]
      exact directive_runs (isLine_fields areFields (by decide)) takes (by decide) fun _ => rfl
  | @redirect status url isPhrase =>
      intro outer blocks takes top
      have isKeyword : IsField "redirect".toList := isField_of_all rfl
      obtain ⟨words, nonempty, rfl, isLine⟩ :=
        isLine_phrase isKeyword (decimal_isField status.toNat) (by decide) isPhrase
      rw [Directive.render]
      exact directive_runs isLine takes (by decide) fun line => redirectLine_words status nonempty
  | @respond status body isBody =>
      intro outer blocks takes top
      rw [Directive.render]
      split
      next empty =>
        have areFields : ∀ word ∈ ["respond".toList, decimal status.toNat], IsField word :=
          List.forall_iff_forall_mem.mp ⟨isField_of_all rfl, decimal_isField _⟩
        subst empty
        exact directive_runs (isLine_fields areFields (by decide)) takes (by decide)
          fun line => respond_parsed status []
      next filled =>
        have isField := isBody.resolve_left filled
        have areFields : ∀ word ∈ ["respond".toList, decimal status.toNat, body], IsField word :=
          List.forall_iff_forall_mem.mp ⟨isField_of_all rfl, decimal_isField _, isField⟩
        exact directive_runs (isLine_fields areFields (by decide)) takes (by decide)
          fun line => respond_parsed status [body]

/-! ## Sites -/

theorem tlsLine_runs {address : Str} {stack : List (List Directive)} {value : TlsConfig}
    (areFields : IsField value.certPath ∧ IsField value.keyPath) :
    Runs parser [value.render] ⟨sites, some address, none, stack, []⟩
      ⟨sites, some address, some value, stack, []⟩ := by
  have areWords : ∀ word ∈ ["tls".toList, value.certPath, value.keyPath], IsField word :=
    List.forall_iff_forall_mem.mp ⟨isField_of_all rfl, areFields.1, areFields.2⟩
  exact Runs.line (isLine_fields areWords (by decide)) fun _ => rfl

/-- A site block adds its site to the map. -/
theorem site_runs {display : Uri → Str} {value : SiteConfig}
    (wellFormed : value.WellFormed parser display) (fresh : value.address ∉ sites) :
    Runs parser (value.render display) ⟨sites, none, none, [[]], []⟩
      ⟨sites.insert value.address value, none, none, [[]], []⟩ := by
  have areFields : ∀ word ∈ [value.address], IsWord word :=
    List.forall_mem_singleton.mpr wellFormed.address.isWord
  have settings : Runs parser (value.tls.map TlsConfig.render).toList
      ⟨sites, some value.address, none, [[]], []⟩
      ⟨sites, some value.address, value.tls, [[]], []⟩ := by
    cases setting : value.tls with
    | none => exact Runs.nil _
    | some given => exact tlsLine_runs (wellFormed.tls given setting)
  have noBlocks : TakesDirectives [] := fun _ isHead => nomatch isHead
  have body := settings.append (renderDirectives_runs
    (fun directive member top => (wellFormed.directives directive member).runs noBlocks top) [])
  refine Runs.block (isLine_opening areFields wellFormed.noComment) body fun line => ?_
  rw [closeBlock, closeSite]
  exact if_neg fresh

def insertSites (sites : AList fun _ : Str => SiteConfig) (values : List SiteConfig) :
    AList fun _ : Str => SiteConfig :=
  values.foldl (fun sites site => sites.insert site.address site) sites

theorem sites_runs {display : Uri → Str} : ∀ {values : List SiteConfig}
    {sites : AList fun _ : Str => SiteConfig},
    (∀ site ∈ values, site.WellFormed parser display) →
    (values.map SiteConfig.address).Nodup → (∀ site ∈ values, site.address ∉ sites) →
    Runs parser (values.flatMap (SiteConfig.render display)) ⟨sites, none, none, [[]], []⟩
      ⟨insertSites sites values, none, none, [[]], []⟩ ∧
    (insertSites sites values).entries.Perm
      (values.map (fun site => ⟨site.address, site⟩) ++ sites.entries) := by
  intro values
  induction values with
  | nil =>
      intro sites _ _ _
      exact ⟨Runs.nil _, List.Perm.refl _⟩
  | cons site rest ih =>
      intro sites wellFormed distinct fresh
      obtain ⟨apart, others⟩ := List.nodup_cons.mp distinct
      have first := fresh site (List.mem_cons_self ..)
      have stillFresh : ∀ other ∈ rest, other.address ∉ sites.insert site.address site := by
        intro other member present
        rcases AList.mem_insert _ |>.mp present with same | before
        · exact apart (List.mem_map.mpr ⟨other, member, same⟩)
        · exact fresh other (List.mem_cons_of_mem _ member) before
      obtain ⟨later, entries⟩ := ih
        (fun other member => wellFormed other (List.mem_cons_of_mem _ member)) others stillFresh
      refine ⟨(site_runs (wellFormed site (List.mem_cons_self ..)) first).append later, ?_⟩
      rw [AList.entries_insert_of_notMem first] at entries
      exact entries.trans List.perm_middle

end States

/-! ## Whole texts -/

/-- A configuration keyed by address is what its sites say. -/
theorem entries_of_keyed {config : Config}
    (keyed : ∀ key site, config.sites.lookup key = some site → site.address = key) :
    config.values.map (fun site => (⟨site.address, site⟩ : Sigma fun _ : Str => SiteConfig)) =
      config.sites.entries := by
  rw [Config.values, List.map_map]
  refine (List.map_congr_left fun entry member => ?_).trans config.sites.entries.map_id
  obtain ⟨key, site⟩ := entry
  have same := keyed key site (AList.mem_lookup_iff.mpr member)
  obtain rfl : site.address = key := same
  rfl

theorem parse_render {parser : UriParser} {display : Uri → Str} {config : Config}
    (wellFormed : config.WellFormed parser display) {order : List SiteConfig}
    (ordered : order.Perm config.values) :
    ∃ parsed, Config.fromStr parser (canonicalText display order) = .ok parsed ∧
      parsed.sites.entries.Perm config.sites.entries := by
  have entries := entries_of_keyed wellFormed.keyed
  have keys : config.values.map SiteConfig.address = config.sites.keys := by
    have mapped := congrArg (List.map Sigma.fst) entries
    rwa [List.map_map] at mapped
  have distinct : (order.map SiteConfig.address).Nodup := by
    refine ((ordered.map SiteConfig.address).nodup_iff).mpr ?_
    rw [keys]
    exact config.sites.keys_nodup
  have each : ∀ site ∈ order, site.WellFormed parser display :=
    fun site member => wellFormed.sites site (ordered.mem_iff.mp member)
  have fresh : ∀ site ∈ order, site.address ∉ (∅ : AList fun _ : Str => SiteConfig) :=
    fun _ _ => AList.notMem_empty _
  obtain ⟨runs, inserted⟩ := sites_runs each distinct fresh
  have same : (insertSites ∅ order).entries.Perm config.sites.entries := by
    rw [AList.empty_entries, List.append_nil] at inserted
    rw [← entries]
    exact inserted.trans (ordered.map _)
  have sameValues : (Config.values ⟨insertSites ∅ order⟩).Perm config.values := by
    rw [Config.values, Config.values]
    exact same.map _
  have valid := (validateListenSockets_iff.mp wellFormed.sockets).perm sameValues
  refine ⟨⟨insertSites ∅ order⟩, ?_, same⟩
  have read : parseLines parser 1 (lines (canonicalText display order)) .initial =
      .ok ⟨insertSites ∅ order, none, none, [[]], []⟩ := by
    rw [canonicalText, lines_unlines (fun line member => (runs.whole line member).noFeed)
      fun line member => (runs.whole line member).noReturn]
    exact runs.reads 1
  rw [Config.fromStr, read]
  change (validateListenSockets ⟨insertSites ∅ order⟩ >>= _) = _
  rw [validateListenSockets_iff.mpr valid]
  rfl

/-! ## A text of two sites -/

def plainDisplay (uri : Uri) : Str :=
  uri.scheme.getD [] ++ "://".toList ++ uri.authority.getD [] ++ uri.pathAndQuery.getD []

def nestedSite : SiteConfig :=
  ⟨"a:80".toList, [.handlePath "/*".toList [.method ["GET".toList]
    [.forwardAuth nestedAuthEndpoint, .reverseProxy ['b'] (some 3) none
      [⟨"X-Note".toList, some "two words".toList⟩, ⟨"Cookie".toList, none⟩]]]], none⟩

def redirectSite : SiteConfig :=
  ⟨"b:443".toList, [.redirect 302 "http://c".toList, .respond 200 []],
    some ⟨"cert".toList, "key".toList⟩⟩

def twoSites : Config :=
  ⟨((∅ : AList fun _ : Str => SiteConfig).insert "b:443".toList redirectSite).insert
    "a:80".toList nestedSite⟩

theorem nestedAuthEndpoint_wellFormed :
    nestedAuthEndpoint.WellFormed plainUriParser plainDisplay :=
  ⟨⟨_, rfl, rfl⟩, isField_of_all rfl, by decide⟩

theorem nestedSite_wellFormed : nestedSite.WellFormed plainUriParser plainDisplay := by
  have words : IsPhrase "two words".toList :=
    ⟨["two".toList, "words".toList], by decide,
      List.forall_iff_forall_mem.mp ⟨isWord_of_all rfl, isWord_of_all rfl⟩, rfl, by decide⟩
  have headers : ∀ directive ∈ ([⟨"X-Note".toList, some "two words".toList⟩,
      ⟨"Cookie".toList, none⟩] : List HeaderDirective), directive.WellFormed :=
    List.forall_iff_forall_mem.mp
      ⟨⟨⟨isField_of_all rfl, by decide⟩, words⟩, (isField_of_all rfl : IsField "Cookie".toList)⟩
  have inside : ∀ directive ∈ nestedSite.directives.flatMap fun outer =>
      outer.block.flatMap Directive.block, directive.WellFormed plainUriParser plainDisplay :=
    List.forall_iff_forall_mem.mp
      ⟨.forwardAuth nestedAuthEndpoint_wellFormed, .reverseProxy (isField_of_all rfl) headers⟩
  have method := Directive.WellFormed.method
    (List.forall_mem_singleton.mpr (isField_of_all rfl : IsField "GET".toList)) inside
  have path := Directive.WellFormed.handlePath (isField_of_all rfl : IsField "/*".toList)
    (List.forall_mem_singleton.mpr method)
  exact ⟨isField_of_all rfl, by decide, fun _ none_ => (nomatch none_),
    List.forall_mem_singleton.mpr path⟩

theorem redirectSite_wellFormed : redirectSite.WellFormed plainUriParser plainDisplay := by
  have url : IsPhrase "http://c".toList :=
    ⟨["http://c".toList], by decide, List.forall_mem_singleton.mpr (isWord_of_all rfl), rfl,
      by decide⟩
  refine ⟨isField_of_all rfl, by decide, fun tls given => ?_,
    List.forall_iff_forall_mem.mp ⟨.redirect url, .respond (Or.inl rfl)⟩⟩
  obtain rfl := Option.some.inj given
  exact ⟨isField_of_all rfl, isField_of_all rfl⟩

theorem parse_render_two_sites :
    ∃ parsed, Config.fromStr plainUriParser
        (canonicalText plainDisplay [redirectSite, nestedSite]) = .ok parsed ∧
      parsed.sites.entries.Perm twoSites.sites.entries := by
  have wellFormed : twoSites.WellFormed plainUriParser plainDisplay := by
    refine ⟨fun key site found => ?_, List.forall_iff_forall_mem.mp
      ⟨nestedSite_wellFormed, redirectSite_wellFormed⟩, rfl⟩
    have entries : twoSites.sites.entries =
        [⟨"a:80".toList, nestedSite⟩, ⟨"b:443".toList, redirectSite⟩] := rfl
    have member := AList.mem_lookup_iff.mp found
    rw [entries, List.mem_cons, List.mem_singleton] at member
    rcases member with same | same <;> (cases same; rfl)
  exact parse_render wellFormed (List.Perm.swap ..)

end TinyProxy
