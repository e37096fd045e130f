import TinyProxy.Config.Parser
import TinyProxy.Data.Yields

/-!
# The parser's stacks in lockstep

The invariant of the loop over the lines, and that under it no `expect` fails and
no internal error is reported.
-/

set_option autoImplicit false

namespace TinyProxy

open Rust Http

/-- One list of directives for each open block, and one for the site. -/
structure Lockstep (s : ParserState) : Prop where
  depth : s.directiveStack.length = s.blockStack.length + 1
  auth : ∀ block ∈ s.blockStack,
    block.forwardAuth.isSome = true ↔ block.directiveType = "forward_auth".toList
  closed : s.currentSiteAddress = none → s.blockStack = []

/-- A failed `expect`, or an error that calls itself internal. -/
def Failure.isInternal : Failure → Bool
  | .parse message => startsWith "internal error".toList message
  | .panic _ => true

theorem lockstep_initial : Lockstep .initial := ⟨rfl, nofun, fun _ => rfl⟩

/-- An error for the author of the configuration; a value as `good` says. -/
abbrev External {β : Type} (good : β → Prop) (result : Except Failure β) : Prop :=
  Yields good (fun failure => failure.isInternal = false) result

/-! ## Settings -/

section Settings
variable {name : Str} {args : List Str} {line : Nat}

theorem withContext_external {β : Type} {context : Str} {result : Except Failure β}
    (external : External (fun _ => True) result)
    (plain : ∀ rest, startsWith "internal error".toList (context ++ rest) = false) :
    External (fun _ => True) (withContext context result) := by
  cases result with
  | ok value => trivial
  | error e =>
      cases e with
      | parse message => exact plain _
      | panic message => exact external

theorem parseDuration_external (s : Str) : External (fun _ => True) (parseDuration s) := by
  unfold parseDuration
  dsimp only
  split
  · rfl
  split
  · trivial
  split
  · rfl
  split
  · rfl
  · trivial

theorem parseHeaders_external (what : Str) (names : List Str) :
    External (fun _ => True) (parseHeaders what line names) := by
  apply Yields.mapM
  intro n _
  split
  · trivial
  · rfl

theorem buildForwardAuth_external (parser : UriParser) (pending : ForwardAuthBlock) :
    External (fun _ => True) (buildForwardAuth parser pending line) := by
  unfold buildForwardAuth
  split
  · rfl
  split
  · rfl
  split
  · rfl
  dsimp only
  cases pending.responseHeaders with
  | none =>
      split
      · exact (parseHeaders_external _ _).bind fun _ _ => trivial
      · trivial
  | some names =>
      split
      · refine (parseHeaders_external _ _).bind fun _ _ => ?_
        exact (parseHeaders_external _ _).bind fun _ _ => trivial
      · exact (parseHeaders_external _ _).bind fun _ _ => trivial

theorem parseFailureMode_external (raw : Str) :
    External (fun _ => True) (parseFailureMode raw line) := by
  unfold parseFailureMode
  split
  · trivial
  split
  · trivial
  · rfl

theorem forwardAuthSetting_external (pending : ForwardAuthBlock) :
    External (fun _ => True) (forwardAuthSetting name args line pending) := by
  unfold forwardAuthSetting
  split
  · split
    · rfl
    · trivial
  split
  · split
    · rfl
    split
    · trivial
    · trivial
  split
  · split
    · rfl
    · refine (parseFailureMode_external _).bind fun _ _ => ?_
      trivial
  split
  · split
    · rfl
    · refine (withContext_external (parseDuration_external _) fun _ => rfl).bind fun _ _ => ?_
      trivial
  · rfl

theorem timeoutSetting_external (args : List Str)
    (plain : ∀ rest, startsWith "internal error".toList (("Invalid ".toList ++ name ++
      onLine line ++ ": ".toList) ++ rest) = false) :
    External (fun _ => True) (timeoutSetting name args line) := by
  unfold timeoutSetting
  split
  · rfl
  · exact withContext_external (parseDuration_external _) plain

theorem headerUpSetting_external : External (fun _ => True) (headerUpSetting args line) := by
  unfold headerUpSetting
  split
  · rfl
  split
  · split
    · rfl
    · trivial
  · dsimp only
    split
    · rfl
    · trivial

/-- A setting keeps the block's heading and its `forward_auth` state. -/
theorem reverseProxySetting_external (block : PendingBlock) :
    External (fun block' => block'.directiveType = block.directiveType ∧
      block'.forwardAuth = block.forwardAuth) (reverseProxySetting name args line block) := by
  unfold reverseProxySetting
  split
  · exact (timeoutSetting_external args fun _ => rfl).bind fun _ _ => ⟨rfl, rfl⟩
  split
  · exact (timeoutSetting_external args fun _ => rfl).bind fun _ _ => ⟨rfl, rfl⟩
  split
  · exact headerUpSetting_external.bind fun _ _ => ⟨rfl, rfl⟩
  · rfl

theorem tlsSetting_external (current : Option TlsConfig) :
    External (fun _ => True) (tlsSetting args line current) := by
  unfold tlsSetting
  split
  · rfl
  · rfl
  · split
    · rfl
    · trivial

theorem parseDirective_external : External (fun _ => True) (parseDirective name args line) := by
  unfold parseDirective
  split
  · split
    · rfl
    · trivial
  split
  · split
    · rfl
    · rfl
    · trivial
  split
  · unfold headerLine
    split
    · rfl
    split
    · split
      · rfl
      · trivial
    · split
      · rfl
      · trivial
  split
  · split
    · rfl
    · trivial
  split
  · split
    · rfl
    · trivial
  split
  · unfold redirectLine
    split
    · rfl
    · trivial
    · split
      · rfl
      · trivial
  · rfl

end Settings

/-! ## Lines -/

section Lines
variable {parser : UriParser} {line : Nat} {s : ParserState}

/-- What pushes a directive leaves the invariant alone. -/
theorem regularLine_lockstep {name : Str} {args : List Str} (lockstep : Lockstep s) :
    External Lockstep (regularLine name args line s) := by
  refine parseDirective_external.bind fun directive _ => ?_
  have depth := lockstep.depth
  unfold pushDirective
  cases stack : s.directiveStack with
  | nil =>
      rw [stack] at depth
      cases depth
  | cons current outer =>
      rw [stack] at depth
      exact ⟨depth, lockstep.auth, lockstep.closed⟩

theorem simpleLine_lockstep {name : Str} {args : List Str} (lockstep : Lockstep s) :
    External Lockstep (simpleLine name args line s) := by
  have depth := lockstep.depth
  unfold simpleLine
  cases stack : s.blockStack with
  | nil =>
      rw [stack] at depth
      dsimp only
      split
      · refine (tlsSetting_external s.currentSiteTls).bind fun tls _ => ?_
        exact ⟨depth, nofun, fun _ => rfl⟩
      · exact regularLine_lockstep lockstep
  | cons block blocks =>
      rw [stack] at depth
      have auth := lockstep.auth
      rw [stack, List.forall_mem_cons] at auth
      have open_ : ∀ block', s.currentSiteAddress = none → block' :: blocks = [] := by
        intro block' noSite
        have empty := lockstep.closed noSite
        rw [stack] at empty
        cases empty
      dsimp only
      split
      next isAuth =>
        have present := auth.1.mpr isAuth
        obtain ⟨pending, known⟩ := Option.isSome_iff_exists.mp present
        rw [known]
        refine (forwardAuthSetting_external pending).bind fun pending' _ => ?_
        exact ⟨depth, List.forall_mem_cons.mpr ⟨⟨fun _ => isAuth, fun _ => rfl⟩, auth.2⟩, open_ _⟩
      split
      · refine (reverseProxySetting_external block).bind fun block' same => ?_
        refine ⟨depth, List.forall_mem_cons.mpr ⟨?_, auth.2⟩, open_ _⟩
        rw [same.1, same.2]
        exact auth.1
      · exact regularLine_lockstep lockstep

theorem openBlock_lockstep (parts : List Str) (lockstep : Lockstep s) :
    Lockstep (openBlock parts s) := by
  cases parts with
  | nil => exact lockstep
  | cons directiveType rest =>
      rw [openBlock]
      split
      next => exact ⟨lockstep.depth, lockstep.auth, nofun⟩
      next nested =>
        refine ⟨congrArg (· + 1) lockstep.depth, List.forall_mem_cons.mpr ⟨?_, lockstep.auth⟩, ?_⟩
        · dsimp only
          split
          next isAuth => exact ⟨fun _ => isAuth, fun _ => rfl⟩
          next notAuth => exact ⟨nofun, fun isAuth => absurd isAuth notAuth⟩
        · intro noSite
          have depth := lockstep.depth
          rw [lockstep.closed noSite] at depth
          exact absurd ⟨depth, noSite⟩ nested

/-- The block that a brace completes has the state it needs. -/
theorem completeBlock_external {block : PendingBlock} {finished : List Directive}
    (auth : block.forwardAuth.isSome = true ↔ block.directiveType = "forward_auth".toList) :
    External (fun _ => True) (completeBlock parser block finished line) := by
  unfold completeBlock
  split
  · trivial
  split
  · trivial
  split
  · trivial
  split
  next isAuth =>
    obtain ⟨pending, known⟩ := Option.isSome_iff_exists.mp (auth.mpr isAuth)
    rw [known]
    split
    · exact buildForwardAuth_external parser pending
    · rfl
  next => rfl

theorem closeSite_lockstep (lockstep : Lockstep s) (siteLevel : s.directiveStack.length ≤ 1) :
    External Lockstep (closeSite s) := by
  have depth := lockstep.depth
  have noBlocks : s.blockStack = [] := by
    apply List.eq_nil_of_length_eq_zero
    omega
  unfold closeSite
  split
  · exact lockstep
  · cases stack : s.directiveStack with
    | nil =>
        rw [stack] at depth
        cases depth
    | cons directives outer =>
        rw [stack] at depth
        dsimp only
        split
        · rfl
        · exact ⟨depth, lockstep.auth, fun _ => noBlocks⟩

theorem closeBlock_lockstep (lockstep : Lockstep s) :
    External Lockstep (closeBlock parser line s) := by
  have depth := lockstep.depth
  unfold closeBlock
  cases stack : s.directiveStack with
  | nil =>
      rw [stack] at depth
      cases depth
  | cons finished others =>
      cases others with
      | nil => exact closeSite_lockstep lockstep (by rw [stack]; exact le_refl 1)
      | cons parent outer =>
          rw [stack] at depth
          have auth := lockstep.auth
          dsimp only
          cases blocks : s.blockStack with
          | nil =>
              rw [blocks] at depth
              cases depth
          | cons block blocks' =>
              rw [blocks] at depth auth
              rw [List.forall_mem_cons] at auth
              refine (completeBlock_external auth.1).bind fun directive _ => ?_
              refine ⟨Nat.succ.inj depth, auth.2, fun noSite => ?_⟩
              have empty := lockstep.closed noSite
              rw [blocks] at empty
              cases empty

theorem parseLine_lockstep (raw : Str) (lockstep : Lockstep s) :
    External Lockstep (parseLine parser line raw s) := by
  unfold parseLine
  dsimp only
  split
  · exact lockstep
  split
  · exact openBlock_lockstep _ lockstep
  split
  · exact closeBlock_lockstep lockstep
  split
  · exact lockstep
  · exact simpleLine_lockstep lockstep

theorem parseLines_lockstep {raws : List Str} : ∀ {line : Nat} {s : ParserState}, Lockstep s →
    External Lockstep (parseLines parser line raws s) := by
  induction raws with
  | nil => exact fun lockstep => lockstep
  | cons raw rest ih =>
      intro line s lockstep
      exact (parseLine_lockstep raw lockstep).bind fun _ next => ih next

end Lines

/-! ## Sockets -/

theorem checkSites_external {sites : List SiteConfig} : ∀ seen : SocketTable,
    External (fun _ => True) (checkSites sites seen) := by
  induction sites with
  | nil => exact fun _ => trivial
  | cons site rest ih =>
      intro seen
      have sni : ∀ (listenAddr : SocketAddr) (isTls : Bool) (seen : SocketTable),
          External (fun _ => True) (checkSite.checkSni site listenAddr isTls seen) := by
        intro listenAddr isTls seen
        unfold checkSite.checkSni
        split
        · dsimp only
          split
          · rfl
          · trivial
        · trivial
      have first : External (fun _ => True) (checkSite site seen) := by
        unfold checkSite
        cases resolved : resolveListenAddr site.address with
        | error e =>
            unfold resolveListenAddr at resolved
            split at resolved
            · cases resolved
            split at resolved
            · cases resolved
            · obtain rfl := Except.error.inj resolved
              rfl
        | ok listenAddr =>
            dsimp only
            split
            · split
              · rfl
              · exact sni _ _ _
            · exact sni _ _ _
      exact first.bind fun seen' _ => ih seen'

/-! ## Partial operations

The loop once more, with every slice, index and `pop` of the source as an
operation that can panic.
-/

/-- `v[1..]`. -/
def sliceTail (v : List Str) : Except Failure (List Str) :=
  if 1 ≤ v.length then .ok (v.drop 1)
  else .error (.panic "range start index 1 out of range for slice".toList)

/-- `v[0]`. -/
def indexFirst : List Str → Except Failure Str
  | [] => .error (.panic "index out of bounds".toList)
  | first :: _ => .ok first

/-- `pop` with an `expect`; the top of the stack comes first. -/
def expectPop {β : Type} (message : Str) : List β → Except Failure (β × List β)
  | [] => .error (.panic message)
  | top :: rest => .ok (top, rest)

def headerUpChecked (args : List Str) (line : Nat) : Except Failure HeaderDirective :=
  match args.head? with
  | none => .error (.parse ("Missing header name for header_up".toList ++ onLine line))
  | some rawName =>
      match stripPrefix ['-'] rawName with
      | some name =>
          if name = [] then
            .error (.parse ("Missing header name after '-' in header_up".toList ++ onLine line))
          else .ok ⟨name, none⟩
      | none => do
          let values ← sliceTail args
          let value := join [' '] values
          if value = [] then
            .error (.parse ("Missing value for header_up ".toList ++ rawName ++ onLine line))
          else .ok ⟨rawName, some value⟩

def reverseProxySettingChecked (name : Str) (args : List Str) (line : Nat)
    (block : PendingBlock) : Except Failure PendingBlock :=
  if name = "header_up".toList then do
    let directive ← headerUpChecked args line
    .ok { block with headerUp := block.headerUp ++ [directive] }
  else reverseProxySetting name args line block

def redirectChecked (args : List Str) : Except Failure Directive :=
  if 2 ≤ args.length then do
    let rawStatus ← indexFirst args
    match parseU16 rawStatus with
    | none => .error (.parse ("Invalid status code for redirect: ".toList ++ rawStatus))
    | some status => do
        let url ← sliceTail args
        .ok (.redirect status (join [' '] url))
  else
    match args.head? with
    | none => .error (.parse "Missing 'url' arg for redirect".toList)
    | some url => .ok (.redirect 301 url)

def regularLineChecked (name : Str) (args : List Str) (line : Nat) (s : ParserState) :
    Except Failure ParserState :=
  if name = "redirect".toList then do
    let directive ← redirectChecked args
    pushDirective directive s
  else regularLine name args line s

/-- The line's name and arguments have been cut. -/
def cutLineChecked (name : Str) (args : List Str) (line : Nat) (s : ParserState) :
    Except Failure ParserState :=
  match s.blockStack with
  | block :: blocks =>
      if block.directiveType = "forward_auth".toList then simpleLine name args line s
      else if block.directiveType = "reverse_proxy".toList then do
        let block ← reverseProxySettingChecked name args line block
        .ok { s with blockStack := block :: blocks }
      else regularLineChecked name args line s
  | [] =>
      if name = "tls".toList then simpleLine name args line s
      else regularLineChecked name args line s

def simpleLineChecked (parts : List Str) (line : Nat) (s : ParserState) :
    Except Failure ParserState := do
  let name ← indexFirst parts
  let args ← sliceTail parts
  cutLineChecked name args line s

def openBlockChecked (parts : List Str) (s : ParserState) : Except Failure ParserState := do
  let directiveType ← indexFirst parts
  if s.directiveStack.length = 1 ∧ s.currentSiteAddress = none then
    .ok { s with currentSiteAddress := some directiveType }
  else do
    let rest ← sliceTail parts
    .ok { s with
      blockStack :=
        { directiveType
          args := rest.filter fun arg => arg ≠ ['\x7b']
          connectTimeout := none
          readTimeout := none
          headerUp := []
          forwardAuth :=
            if directiveType = "forward_auth".toList then some .default else none } ::
          s.blockStack
      directiveStack := [] :: s.directiveStack }

def closeBlockChecked (parser : UriParser) (line : Nat) (s : ParserState) :
    Except Failure ParserState :=
  if 1 < s.directiveStack.length then do
    let (finished, stack) ← expectPop "directive_stack has at least 2 elements".toList
      s.directiveStack
    let (block, blocks) ← expectPop "block_stack has matching entry".toList s.blockStack
    let directive ← completeBlock parser block finished line
    let (parent, outer) ← expectPop "directive_stack has parent after pop".toList stack
    .ok { s with
      directiveStack := (parent ++ [directive]) :: outer
      blockStack := blocks }
  else closeSite s

def parseLineChecked (parser : UriParser) (line : Nat) (raw : Str) (s : ParserState) :
    Except Failure ParserState :=
  let text := trim raw
  let parts := splitWhitespace text
  if text = [] ∨ startsWith ['#'] text then .ok s
  else if endsWith ['\x7b'] text then
    if parts = [] then .ok s else openBlockChecked parts s
  else if text = ['\x7d'] then closeBlockChecked parser line s
  else if parts = [] then .ok s
  else simpleLineChecked parts line s

def parseLinesChecked (parser : UriParser) :
    Nat → List Str → ParserState → Except Failure ParserState
  | _, [], s => .ok s
  | line, raw :: rest, s => do
      let s ← parseLineChecked parser line raw s
      parseLinesChecked parser (line + 1) rest s

def Config.fromStrChecked (parser : UriParser) (content : Str) : Except Failure Config := do
  let s ← parseLinesChecked parser 1 (lines content) .initial
  validateListenSockets ⟨s.sites⟩
  .ok ⟨s.sites⟩

section Checked
variable {parser : UriParser} {line : Nat} {name : Str} {args : List Str} {s : ParserState}

theorem headerUpChecked_eq : headerUpChecked args line = headerUpSetting args line := by
  cases args <;> rfl

theorem reverseProxySettingChecked_eq (block : PendingBlock) :
    reverseProxySettingChecked name args line block =
      reverseProxySetting name args line block := by
  unfold reverseProxySettingChecked
  split
  next isHeaderUp =>
    subst isHeaderUp
    rw [headerUpChecked_eq]
    rfl
  next => rfl

theorem redirectChecked_eq : redirectChecked args = redirectLine args := by
  cases args with
  | nil => rfl
  | cons first rest => cases rest <;> rfl

theorem regularLineChecked_eq : regularLineChecked name args line s =
    regularLine name args line s := by
  unfold regularLineChecked
  split
  next isRedirect =>
    subst isRedirect
    rw [redirectChecked_eq]
    rfl
  next => rfl

theorem cutLineChecked_eq : cutLineChecked name args line s = simpleLine name args line s := by
  unfold cutLineChecked
  cases stack : s.blockStack with
  | nil =>
      dsimp only
      split
      next => rfl
      next notTls =>
        rw [regularLineChecked_eq, simpleLine, stack]
        exact (if_neg notTls).symm
  | cons block blocks =>
      dsimp only
      split
      next => rfl
      next notAuth =>
        rw [reverseProxySettingChecked_eq, regularLineChecked_eq, simpleLine, stack]
        exact (if_neg notAuth).symm

theorem simpleLineChecked_eq :
    simpleLineChecked (name :: args) line s = simpleLine name args line s :=
  cutLineChecked_eq

theorem openBlockChecked_eq (directiveType : Str) (rest : List Str) :
    openBlockChecked (directiveType :: rest) s = .ok (openBlock (directiveType :: rest) s) := by
  rw [openBlock]
  by_cases siteLevel : s.directiveStack.length = 1 ∧ s.currentSiteAddress = none
  · rw [if_pos siteLevel]
    exact if_pos siteLevel
  · rw [if_neg siteLevel]
    exact if_neg siteLevel

theorem closeBlockChecked_eq : closeBlockChecked parser line s = closeBlock parser line s := by
  unfold closeBlockChecked closeBlock
  cases s.directiveStack with
  | nil => rfl
  | cons finished others =>
      cases others with
      | nil => rfl
      | cons parent outer => cases s.blockStack <;> rfl

theorem parseLineChecked_eq (raw : Str) :
    parseLineChecked parser line raw s = parseLine parser line raw s := by
  unfold parseLineChecked parseLine
  dsimp only
  split
  · rfl
  cases parts : splitWhitespace (trim raw) with
  | nil =>
      rw [if_pos rfl, if_pos rfl, closeBlockChecked_eq]
      rfl
  | cons name args =>
      rw [if_neg (List.cons_ne_nil _ _), if_neg (List.cons_ne_nil _ _), openBlockChecked_eq,
        closeBlockChecked_eq, simpleLineChecked_eq]

theorem parseLinesChecked_eq {raws : List Str} : ∀ {line : Nat} {s : ParserState},
    parseLinesChecked parser line raws s = parseLines parser line raws s := by
  induction raws with
  | nil => exact fun {_} {_} => rfl
  | cons raw rest ih =>
      intro line s
      rw [parseLinesChecked, parseLines, parseLineChecked_eq]
      simp only [ih]

end Checked

/-- After every line the stacks are in lockstep, and no partial operation fails. -/
theorem parser_lockstep (parser : UriParser) (content : Str) :
    (∀ front back s, lines content = front ++ back →
      parseLinesChecked parser 1 front .initial = .ok s → Lockstep s) ∧
    (∀ failure, Config.fromStrChecked parser content = .error failure →
      failure.isInternal = false) ∧
    Config.fromStrChecked parser content = Config.fromStr parser content := by
  have run : External Lockstep (parseLines parser 1 (lines content) .initial) :=
    parseLines_lockstep lockstep_initial
  have same : Config.fromStrChecked parser content = Config.fromStr parser content := by
    rw [Config.fromStrChecked, Config.fromStr, parseLinesChecked_eq]
  refine ⟨fun front back s _ read => ?_, fun failure failed => ?_, same⟩
  · rw [parseLinesChecked_eq] at read
    have front_ : External Lockstep (parseLines parser 1 front .initial) :=
      parseLines_lockstep lockstep_initial
    exact front_.of_ok read
  · rw [same] at failed
    have whole : External (fun _ => True) (Config.fromStr parser content) := by
      refine run.bind fun s _ => ?_
      have sockets : External (fun _ => True) (validateListenSockets ⟨s.sites⟩) :=
        (checkSites_external _).map fun _ _ => trivial
      refine sockets.bind fun _ _ => ?_
      trivial
    exact whole.of_error failed

end TinyProxy
