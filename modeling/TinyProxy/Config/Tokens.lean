import TinyProxy.Config.RoundTrip

/-!
# The tokens of a directive line

A line is cut at white space and nowhere else: a quotation mark is a character of
its token.  Each directive reads so many tokens and leaves the others.
-/

set_option autoImplicit false

namespace TinyProxy

open Rust Http

/-! ## Quoted text -/

/-- A directive with one plain argument and one in quotation marks. -/
def quotedLine (head arg text : Str) : Str :=
  head ++ ' ' :: (arg ++ ' ' :: '"' :: (text ++ ['"']))

/-- The line is cut into its words; the text in quotation marks gives more than one if
there is white space in it. -/
theorem lineKind_quoted {head arg : Str} (isHead : IsWord head) (plain : Plain head)
    (isArg : IsWord arg) (text : Str) :
    lineKind (quotedLine head arg text) =
      .simple (head :: arg :: splitWhitespace ('"' :: (text ++ ['"']))) := by
  obtain ⟨c, tail, rfl⟩ := List.exists_cons_of_ne_nil isHead.nonempty
  have front : (quotedLine (c :: tail) arg text).head? = some c := rfl
  have back : (quotedLine (c :: tail) arg text).getLast? = some '"' := by
    have shape : quotedLine (c :: tail) arg text =
        (c :: tail ++ ' ' :: (arg ++ ' ' :: '"' :: text)) ++ ['"'] := by
      simp [quotedLine]
    rw [shape, List.getLast?_concat]
  have trimmed : trim (quotedLine (c :: tail) arg text) = quotedLine (c :: tail) arg text := by
    apply trim_eq_self
    · rw [front]
      exact fun d same => Option.some.inj same ▸ isHead.solid c (List.mem_cons_self ..)
    · rw [back]
      exact fun d same => Option.some.inj same ▸ rfl
  have content : ¬ (quotedLine (c :: tail) arg text = [] ∨
      startsWith ['#'] (quotedLine (c :: tail) arg text) = true) := by
    rw [startsWith_singleton, front]
    exact fun blank => blank.elim (List.cons_ne_nil _ _) plain.1
  have notOpener : ¬ endsWith ['\x7b'] (quotedLine (c :: tail) arg text) = true := by
    rw [endsWith_singleton, back]
    decide
  have notCloser : quotedLine (c :: tail) arg text ≠ ['\x7d'] := by
    intro closer
    rw [closer] at front
    exact plain.2 front.symm
  unfold lineKind
  dsimp only
  rw [trimmed, if_neg content, if_neg notOpener, if_neg notCloser, quotedLine,
    (splitWhitespace_word isHead).2, (splitWhitespace_word isArg).2]

theorem parseLine_quoted {parser : UriParser} {line : Nat} {head arg : Str} {s : ParserState}
    (isHead : IsWord head) (plain : Plain head) (isArg : IsWord arg) (text : Str) :
    ∃ tail words, parseLine parser line (quotedLine head arg text) s =
      simpleLine head (arg :: ('"' :: tail) :: words) line s := by
  have quote : isWhitespace '"' = false := rfl
  obtain ⟨tail, words, split⟩ := splitWhitespace_head quote (text ++ ['"'])
  refine ⟨tail, words, ?_⟩
  rw [parseLine_eq, lineKind_quoted isHead plain isArg, split]

/-! ## The grammar of directive lines -/

/-- The tokens of a directive on one line; `rest` is read by nobody. -/
inductive Written : Str → List Str → Directive → Prop where
  | reverseProxy (to_ : Str) (rest : List Str) :
      Written "reverse_proxy".toList (to_ :: rest) (.reverseProxy to_ none none [])
  | uriReplace (find replacement : Str) (rest : List Str) :
      Written "uri_replace".toList (find :: replacement :: rest) (.uriReplace find replacement)
  | removeHeader {name : Str} (nonempty : name ≠ []) (rest : List Str) :
      Written "header".toList (('-' :: name) :: rest) (.header name none)
  | setHeader {name : Str} (sets : stripPrefix ['-'] name = none) (value : Str)
      (rest : List Str) : Written "header".toList (name :: value :: rest) (.header name (some value))
  | respond {rawStatus : Str} {status : UInt16} (parsed : parseU16 rawStatus = some status) :
      Written "respond".toList [rawStatus] (.respond status [])
  | respondWith {rawStatus : Str} {status : UInt16} (parsed : parseU16 rawStatus = some status)
      (body : Str) (rest : List Str) :
      Written "respond".toList (rawStatus :: body :: rest) (.respond status body)
  | stripPrefix (pattern : Str) (rest : List Str) :
      Written "strip_prefix".toList (pattern :: rest) (.stripPrefix pattern)
  | redirect (url : Str) : Written "redirect".toList [url] (.redirect 301 url)
  | redirectWith {rawStatus : Str} {status : UInt16} (parsed : parseU16 rawStatus = some status)
      (word : Str) (words : List Str) :
      Written "redirect".toList (rawStatus :: word :: words)
        (.redirect status (join [' '] (word :: words)))

theorem Written.parsed {name : Str} {args : List Str} {directive : Directive} (line : Nat)
    (written : Written name args directive) : parseDirective name args line = .ok directive := by
  cases written with
  | reverseProxy to_ rest => rfl
  | uriReplace find replacement rest => rfl
  | @removeHeader name nonempty rest =>
      have removal : Rust.stripPrefix ['-'] ('-' :: name) = some name :=
        stripPrefix_eq_some_iff.mpr rfl
      have shape : parseDirective "header".toList (('-' :: name) :: rest) line =
          headerLine (('-' :: name) :: rest) := rfl
      rw [shape, headerLine.eq_def]
      dsimp only
      rw [removal]
      exact if_neg nonempty
  | @setHeader name sets value rest =>
      have shape : parseDirective "header".toList (name :: value :: rest) line =
          headerLine (name :: value :: rest) := rfl
      rw [shape, headerLine.eq_def]
      dsimp only
      rw [sets]
  | respond parsed => exact parseDirective_respond rfl parsed
  | respondWith parsed body rest => exact parseDirective_respond rfl parsed
  | stripPrefix pattern rest => rfl
  | redirect url => rfl
  | @redirectWith rawStatus status parsed word words =>
      have shape : parseDirective "redirect".toList (rawStatus :: word :: words) line =
          redirectLine (rawStatus :: word :: words) := rfl
      rw [shape, redirectLine]
      · rw [parsed]
      · exact fun same => List.cons_ne_nil _ _ same

theorem written_of_parsed {name : Str} {args : List Str} {directive : Directive} {line : Nat}
    (parsed : parseDirective name args line = .ok directive) : Written name args directive := by
  unfold parseDirective at parsed
  split at parsed
  · subst name
    split at parsed
    · cases parsed
    · obtain rfl := Except.ok.inj parsed
      exact .reverseProxy _ _
  split at parsed
  · subst name
    split at parsed
    · cases parsed
    · cases parsed
    · obtain rfl := Except.ok.inj parsed
      exact .uriReplace _ _ _
  split at parsed
  · subst name
    unfold headerLine at parsed
    split at parsed
    · cases parsed
    split at parsed
    next removal =>
      obtain rfl := stripPrefix_eq_some_iff.mp removal
      split at parsed
      next => cases parsed
      next nonempty =>
        obtain rfl := Except.ok.inj parsed
        exact .removeHeader nonempty _
    next sets =>
      split at parsed
      · cases parsed
      · obtain rfl := Except.ok.inj parsed
        exact .setHeader sets _ _
  split at parsed
  · subst name
    split at parsed
    next => cases parsed
    next status known =>
      obtain rfl := Except.ok.inj parsed
      obtain ⟨rawStatus, first, read⟩ := Option.bind_eq_some_iff.mp known
      cases args with
      | nil => cases first
      | cons word rest =>
          obtain rfl := Option.some.inj first
          cases rest with
          | nil => exact .respond read
          | cons body rest => exact .respondWith read body rest
  split at parsed
  · subst name
    split at parsed
    · cases parsed
    · obtain rfl := Except.ok.inj parsed
      exact .stripPrefix _ _
  split at parsed
  · subst name
    unfold redirectLine at parsed
    split at parsed
    next => cases parsed
    next url =>
      obtain rfl := Except.ok.inj parsed
      exact .redirect url
    next rawStatus words several =>
      split at parsed
      next => cases parsed
      next status known =>
        obtain rfl := Except.ok.inj parsed
        cases words with
        | nil => exact absurd rfl several
        | cons word words => exact .redirectWith known word words
  · cases parsed

theorem Written.unique {name : Str} {args : List Str} {first second : Directive}
    (one : Written name args first) (two : Written name args second) : first = second :=
  Except.ok.inj ((one.parsed 0).symm.trans (two.parsed 0))

/-! ## Tokens that nobody reads -/

/-- Some token can be any other without a difference. -/
def Discards {β : Type} (parse : List Str → Except Failure β) (args : List Str) : Prop :=
  ∃ i < args.length, ∀ word, parse (args.set i word) = parse args

theorem discards_iff {β : Type} {parse : List Str → Except Failure β} {args : List Str} {n : Nat}
    (unread : ∀ i word, n ≤ i → parse (args.set i word) = parse args)
    (read : ∀ i, i < args.length → i < n → ∃ word, parse (args.set i word) ≠ parse args) :
    Discards parse args ↔ n < args.length := by
  constructor
  · rintro ⟨i, inside, same⟩
    by_contra notLess
    obtain ⟨word, differs⟩ := read i inside (by omega)
    exact differs (same word)
  · intro less
    exact ⟨n, less, fun word => unread n word (le_refl n)⟩

/-- How many tokens the directive reads; `redirect` reads them all. -/
def argsRead (name : Str) (args : List Str) : Nat :=
  if name = "redirect".toList then args.length
  else if name = "uri_replace".toList ∨ name = "respond".toList ∨ name = "tls".toList then 2
  else if name = "header".toList then
    if (args.head?.bind (stripPrefix ['-'])).isSome then 1 else 2
  else 1

theorem argsRead_removeHeader (name : Str) (rest : List Str) :
    argsRead "header".toList (('-' :: name) :: rest) = 1 := by
  have removal : stripPrefix ['-'] ('-' :: name) = some name := stripPrefix_eq_some_iff.mpr rfl
  have shape : argsRead "header".toList (('-' :: name) :: rest) =
      if (stripPrefix ['-'] ('-' :: name)).isSome then 1 else 2 := rfl
  rw [shape, removal]
  rfl

theorem argsRead_setHeader {name : Str} (sets : stripPrefix ['-'] name = none)
    (rest : List Str) : argsRead "header".toList (name :: rest) = 2 := by
  have shape : argsRead "header".toList (name :: rest) =
      if (stripPrefix ['-'] name).isSome then 1 else 2 := rfl
  rw [shape, sets]
  rfl

theorem Written.unread {name : Str} {args : List Str} {directive : Directive}
    (written : Written name args directive) {i : Nat} (later : argsRead name args ≤ i)
    (word : Str) : Written name (args.set i word) directive := by
  cases written with
  | reverseProxy to_ rest =>
      obtain ⟨j, rfl⟩ : ∃ j, i = j + 1 := Nat.exists_eq_add_of_le' later
      exact .reverseProxy to_ _
  | uriReplace find replacement rest =>
      obtain ⟨j, rfl⟩ : ∃ j, i = j + 2 := Nat.exists_eq_add_of_le' later
      exact .uriReplace find replacement _
  | removeHeader nonempty rest =>
      rw [argsRead_removeHeader] at later
      obtain ⟨j, rfl⟩ : ∃ j, i = j + 1 := Nat.exists_eq_add_of_le' later
      exact .removeHeader nonempty _
  | setHeader sets value rest =>
      rw [argsRead_setHeader sets] at later
      obtain ⟨j, rfl⟩ : ∃ j, i = j + 2 := Nat.exists_eq_add_of_le' later
      exact .setHeader sets value _
  | respond parsed =>
      obtain ⟨j, rfl⟩ : ∃ j, i = j + 2 := Nat.exists_eq_add_of_le' later
      exact .respond parsed
  | respondWith parsed body rest =>
      obtain ⟨j, rfl⟩ : ∃ j, i = j + 2 := Nat.exists_eq_add_of_le' later
      exact .respondWith parsed body _
  | stripPrefix pattern rest =>
      obtain ⟨j, rfl⟩ : ∃ j, i = j + 1 := Nat.exists_eq_add_of_le' later
      exact .stripPrefix pattern _
  | redirect url =>
      rw [List.set_eq_of_length_le later]
      exact .redirect url
  | redirectWith parsed first words =>
      rw [List.set_eq_of_length_le later]
      exact .redirectWith parsed first words

/-- Every token that the directive reads makes a difference. -/
theorem Written.read {name : Str} {args : List Str} {directive : Directive}
    (written : Written name args directive) {i : Nat} (inside : i < args.length)
    (early : i < argsRead name args) : ∃ word, ¬ Written name (args.set i word) directive := by
  cases written with
  | reverseProxy to_ rest =>
      obtain rfl : i = 0 := Nat.lt_one_iff.mp early
      refine ⟨'x' :: to_, fun other => ?_⟩
      have same := other.unique (.reverseProxy ('x' :: to_) rest)
      exact List.cons_ne_self _ _ (Directive.reverseProxy.inj same).1.symm
  | uriReplace find replacement rest =>
      have early : i < 2 := early
      interval_cases i
      · refine ⟨'x' :: find, fun other => ?_⟩
        have same := other.unique (.uriReplace ('x' :: find) replacement rest)
        exact List.cons_ne_self _ _ (Directive.uriReplace.inj same).1.symm
      · refine ⟨'x' :: replacement, fun other => ?_⟩
        have same := other.unique (.uriReplace find ('x' :: replacement) rest)
        exact List.cons_ne_self _ _ (Directive.uriReplace.inj same).2.symm
  | removeHeader nonempty rest =>
      rw [argsRead_removeHeader] at early
      obtain rfl : i = 0 := Nat.lt_one_iff.mp early
      exact ⟨['-'], fun other => by cases other.parsed 0⟩
  | @setHeader name sets value rest =>
      rw [argsRead_setHeader sets] at early
      interval_cases i
      · exact ⟨['-'], fun other => by cases other.parsed 0⟩
      · refine ⟨'x' :: value, fun other => ?_⟩
        have same := other.unique (.setHeader sets ('x' :: value) rest)
        exact List.cons_ne_self _ _ (Option.some.inj (Directive.header.inj same).2).symm
  | respond parsed =>
      obtain rfl : i = 0 := Nat.lt_one_iff.mp inside
      exact ⟨[], fun other => by cases other.parsed 0⟩
  | respondWith parsed body rest =>
      have early : i < 2 := early
      interval_cases i
      · exact ⟨[], fun other => by cases other.parsed 0⟩
      · refine ⟨'x' :: body, fun other => ?_⟩
        have same := other.unique (.respondWith parsed ('x' :: body) rest)
        exact List.cons_ne_self _ _ (Directive.respond.inj same).2.symm
  | stripPrefix pattern rest =>
      obtain rfl : i = 0 := Nat.lt_one_iff.mp early
      refine ⟨'x' :: pattern, fun other => ?_⟩
      have same := other.unique (.stripPrefix ('x' :: pattern) rest)
      exact List.cons_ne_self _ _ (Directive.stripPrefix.inj same).symm
  | redirect url =>
      obtain rfl : i = 0 := Nat.lt_one_iff.mp inside
      refine ⟨'x' :: url, fun other => ?_⟩
      have same := other.unique (.redirect ('x' :: url))
      exact List.cons_ne_self _ _ (Directive.redirect.inj same).2.symm
  | @redirectWith rawStatus status parsed first words =>
      cases i with
      | zero => exact ⟨[], fun other => by cases other.parsed 0⟩
      | succ j =>
          obtain ⟨word, known⟩ : ∃ word, (first :: words)[j]? = some word :=
            ⟨_, List.getElem?_eq_getElem (Nat.lt_of_succ_lt_succ inside)⟩
          refine ⟨'x' :: word, fun other => ?_⟩
          obtain ⟨next, others, shape⟩ : ∃ next others,
              (first :: words).set j ('x' :: word) = next :: others := by
            cases j <;> exact ⟨_, _, rfl⟩
          rw [List.set_cons_succ, shape] at other
          have same := other.unique (.redirectWith parsed next others)
          have longer := length_join_set [' '] 'x' known
          rw [shape, ← (Directive.redirect.inj same).2] at longer
          omega

section Lines
variable {name : Str} {args : List Str} {line : Nat} {s s' : ParserState}

theorem pushDirective_inj {first second : Directive}
    (one : pushDirective first s = .ok s') (two : pushDirective second s = .ok s') :
    first = second := by
  unfold pushDirective at one two
  cases stack : s.directiveStack with
  | nil =>
      rw [stack] at one
      cases one
  | cons current outer =>
      rw [stack] at one two
      have same := congrArg ParserState.directiveStack (Except.ok.inj (one.trans two.symm))
      have tops := (List.cons.inj same).1
      exact List.singleton_inj.mp (List.append_cancel_left tops)

/-- A line that pushes a directive spells it. -/
theorem written_of_regularLine (accepted : regularLine name args line s = .ok s') :
    ∃ directive, Written name args directive ∧ pushDirective directive s = .ok s' := by
  obtain ⟨directive, parsed, pushed⟩ := bind_ok accepted
  exact ⟨directive, written_of_parsed parsed, pushed⟩

theorem regularLine_discards_iff (accepted : regularLine name args line s = .ok s') :
    Discards (fun args => regularLine name args line s) args ↔ argsRead name args < args.length := by
  obtain ⟨directive, written, pushed⟩ := written_of_regularLine accepted
  refine discards_iff (fun i word later => ?_) fun i inside early => ?_
  · have parsed := (written.unread later word).parsed line
    rw [accepted, regularLine, parsed]
    exact pushed
  · obtain ⟨word, differs⟩ := written.read inside early
    refine ⟨word, fun same => ?_⟩
    rw [accepted] at same
    obtain ⟨other, rewritten, pushedOther⟩ := written_of_regularLine same
    obtain rfl := pushDirective_inj pushed pushedOther
    exact differs rewritten

/-- A site's certificate and key are two tokens. -/
theorem tlsSetting_discards_iff {current : Option TlsConfig} {tls : TlsConfig}
    (accepted : tlsSetting args line current = .ok tls) :
    Discards (fun args => tlsSetting args line current) args ↔ 2 < args.length := by
  have settled : ∀ {args : List Str} {tls : TlsConfig}, tlsSetting args line current = .ok tls ↔
      current = none ∧ ∃ rest, args = tls.certPath :: tls.keyPath :: rest := by
    intro args tls
    constructor
    · intro run
      unfold tlsSetting at run
      split at run
      next => cases run
      next => cases run
      next certPath keyPath rest =>
        cases current with
        | some before => cases run
        | none =>
            obtain rfl := Except.ok.inj run
            exact ⟨rfl, rest, rfl⟩
    · rintro ⟨rfl, rest, rfl⟩
      rfl
  obtain ⟨once, rest, rfl⟩ := settled.mp accepted
  refine discards_iff (fun i word later => ?_) fun i inside early => ?_
  · obtain ⟨j, rfl⟩ : ∃ j, i = j + 2 := Nat.exists_eq_add_of_le' later
    rw [accepted]
    exact settled.mpr ⟨once, _, rfl⟩
  · interval_cases i
    · refine ⟨'x' :: tls.certPath, fun same => ?_⟩
      rw [accepted, settled] at same
      obtain ⟨_, _, shape⟩ := same
      exact List.cons_ne_self _ _ (List.cons.inj shape).1
    · refine ⟨'x' :: tls.keyPath, fun same => ?_⟩
      rw [accepted, settled] at same
      obtain ⟨_, _, shape⟩ := same
      exact List.cons_ne_self _ _ (List.cons.inj (List.cons.inj shape).2).1

/-- An accepted directive line loses a token exactly when it has more than are read. -/
theorem simpleLine_discards_iff (takes : TakesDirectives s.blockStack)
    (accepted : simpleLine name args line s = .ok s') :
    Discards (fun args => simpleLine name args line s) args ↔
      argsRead name args < args.length := by
  by_cases isTls : name = "tls".toList
  · subst isTls
    cases stack : s.blockStack with
    | nil =>
        have setting : ∀ args : List Str, simpleLine "tls".toList args line s =
            (tlsSetting args line s.currentSiteTls).map fun tls =>
              { s with currentSiteTls := some tls } := by
          intro args
          rw [simpleLine, stack]
          dsimp only
          rw [if_pos rfl]
          cases tlsSetting args line s.currentSiteTls <;> rfl
        rw [setting] at accepted
        cases parsed : tlsSetting args line s.currentSiteTls with
        | error e =>
            rw [parsed] at accepted
            cases accepted
        | ok tls =>
            have same : ∀ other : List Str, simpleLine "tls".toList other line s =
                simpleLine "tls".toList args line s ↔
                tlsSetting other line s.currentSiteTls = tlsSetting args line s.currentSiteTls := by
              intro other
              rw [setting, setting, parsed]
              cases tlsSetting other line s.currentSiteTls with
              | error e => simp [Except.map]
              | ok found => simp [Except.map]
            have tokens := tlsSetting_discards_iff parsed
            simp only [Discards] at tokens ⊢
            simp only [same]
            exact tokens
    | cons block blocks =>
        have regular : simpleLine "tls".toList args line s =
            regularLine "tls".toList args line s := by
          obtain ⟨notAuth, notProxy⟩ := takes block (by rw [stack]; rfl)
          rw [simpleLine, stack]
          dsimp only
          rw [if_neg notAuth, if_neg notProxy]
        rw [regular] at accepted
        obtain ⟨directive, written, _⟩ := written_of_regularLine accepted
        cases written.parsed 0
  · simp only [simpleLine_directive takes isTls] at accepted ⊢
    exact regularLine_discards_iff accepted

theorem simpleLine_pushes {directive : Directive} (nonempty : s.directiveStack ≠ [])
    (pushes : simpleLine name args line s = pushDirective directive s) :
    Written name args directive := by
  obtain ⟨current, outer, stack⟩ := List.exists_cons_of_ne_nil nonempty
  obtain ⟨s', pushed⟩ : ∃ s', pushDirective directive s = .ok s' := by
    rw [pushDirective, stack]
    exact ⟨_, rfl⟩
  have grown := (pushDirective_grown pushed).stack current outer stack
  rw [pushed] at pushes
  rcases simpleLine_grown pushes with ⟨_, kept⟩ | ⟨_, other, parsed, pushedOther⟩
  · have same := kept.stack current outer stack
    rw [grown] at same
    have tops := List.append_cancel_left (List.cons.inj same).1
    cases tops
  · have same := pushedOther.stack current outer stack
    rw [grown] at same
    have tops := List.append_cancel_left (List.cons.inj same).1
    obtain rfl := List.singleton_inj.mp tops
    exact written_of_parsed parsed

end Lines

/-- What is kept of the quoted text is its first token, with the quotation mark. -/
theorem respond_quoted {head status tail body : Str} {words : List Str} {code : UInt16}
    (written : Written head (status :: ('"' :: tail) :: words) (.respond code body)) :
    body = '"' :: tail := by
  cases written with
  | respondWith parsed body rest => rfl

theorem header_quoted {head name field tail value : Str} {words : List Str}
    (written : Written head (name :: ('"' :: tail) :: words) (.header field (some value))) :
    value = '"' :: tail := by
  cases written with
  | setHeader sets value rest => rfl

/-- No quoted text is kept, and a directive line keeps its tokens exactly when it has no
more than its directive reads. -/
theorem quoted_arguments (parser : UriParser) :
    (∀ status name text : Str, IsWord status → IsWord name → '"' ∉ text →
      ∀ (line : Nat) (s : ParserState), s.directiveStack ≠ [] →
        (∀ code, parseLine parser line (quotedLine "respond".toList status text) s ≠
          pushDirective (.respond code text) s) ∧
        ∀ field, parseLine parser line (quotedLine "header".toList name text) s ≠
          pushDirective (.header field (some text)) s) ∧
    ∀ (name : Str) (args : List Str) (line : Nat) (s s' : ParserState),
      TakesDirectives s.blockStack → simpleLine name args line s = .ok s' →
        (¬ Discards (fun args => simpleLine name args line s) args ↔
          args.length ≤ argsRead name args) := by
  constructor
  · intro status name text isStatus isName plain line s nonempty
    constructor
    · intro code pushes
      obtain ⟨tail, words, read⟩ := @parseLine_quoted parser line "respond".toList status s
        (isWord_of_all rfl) (by decide) isStatus text
      rw [read] at pushes
      have same := respond_quoted (simpleLine_pushes nonempty pushes)
      exact plain (same ▸ List.mem_cons_self ..)
    · intro field pushes
      obtain ⟨tail, words, read⟩ := @parseLine_quoted parser line "header".toList name s
        (isWord_of_all rfl) (by decide) isName text
      rw [read] at pushes
      have same := header_quoted (simpleLine_pushes nonempty pushes)
      exact plain (same ▸ List.mem_cons_self ..)
  · intro name args line s s' takes accepted
    rw [simpleLine_discards_iff takes accepted, Nat.not_lt]

/-! ## A truncated body -/

def quotedText : Str := "a:80 \x7b\nrespond 200 \"All good\"\n\x7d".toList

/-- The response says `"All`. -/
theorem quoted_body_truncated :
    Config.fromStr plainUriParser quotedText =
        .ok ⟨(∅ : AList fun _ : Str => SiteConfig).insert "a:80".toList
          ⟨"a:80".toList, [.respond 200 "\"All".toList], none⟩⟩ ∧
      lines quotedText = ["a:80 \x7b".toList,
        quotedLine "respond".toList "200".toList "All good".toList, ['\x7d']] ∧
      "\"All".toList ≠ "All good".toList :=
  ⟨rfl, rfl, by decide⟩

end TinyProxy
