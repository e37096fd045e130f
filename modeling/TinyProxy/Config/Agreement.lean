import TinyProxy.Config.RoundTrip
import TinyProxy.Config.Serde

/-!
# `forward_auth` in both formats

The settings of a `forward_auth` can be given as the lines of a block or as the
fields of an object.  `AuthSettings.config` says what they mean; the parser and
the deserializer both come to that, in whatever order the settings are given.
-/

set_option autoImplicit false

namespace TinyProxy

open Rust Http

/-! ## Settings -/

/-- One setting, as it is written. -/
inductive AuthSetting where
  | to_ (url : Str)
  | requestHeaders (names : List Str)
  | responseHeaders (names : List Str)
  | failureMode (mode : Str)
  | timeout (seconds : UInt64)

structure AuthSettings where
  to_ : Str
  requestHeaders : Option (List Str)
  responseHeaders : Option (List Str)
  failureMode : Option Str
  timeout : Option UInt64

def AuthSettings.list (settings : AuthSettings) : List AuthSetting :=
  .to_ settings.to_ :: ((settings.requestHeaders.map .requestHeaders).toList ++
    ((settings.responseHeaders.map .responseHeaders).toList ++
      ((settings.failureMode.map .failureMode).toList ++
        (settings.timeout.map .timeout).toList)))

namespace AuthSetting

def keyword : AuthSetting → Str
  | .to_ _ => "to".toList
  | .requestHeaders _ => "request_headers".toList
  | .responseHeaders _ => "response_headers".toList
  | .failureMode _ => "failure_mode".toList
  | .timeout _ => "timeout".toList

def args : AuthSetting → List Str
  | .to_ url => [url]
  | .requestHeaders names => names
  | .responseHeaders names => names
  | .failureMode mode => [mode]
  | .timeout seconds => [decimal seconds.toNat]

/-- The line of the setting. -/
def render (setting : AuthSetting) : Str := join [' '] (setting.keyword :: setting.args)

/-- The field of the setting. -/
def entry : AuthSetting → Str × Serde.Value
  | .to_ url => ("to".toList, .string url)
  | .requestHeaders names => ("request_headers".toList, .array (names.map .string))
  | .responseHeaders names => ("response_headers".toList, .array (names.map .string))
  | .failureMode mode => ("failure_mode".toList, .string mode)
  | .timeout seconds => ("timeout_secs".toList, .unsigned seconds)

/-- Lists are not empty, and every string is a field. -/
structure WellFormed (setting : AuthSetting) : Prop where
  nonempty : setting.args ≠ []
  areFields : ∀ word ∈ setting.args, IsField word

end AuthSetting

def AuthSettings.fields (settings : AuthSettings) : List (Str × Serde.Value) :=
  settings.list.map AuthSetting.entry

def AuthSettings.WellFormed (settings : AuthSettings) : Prop :=
  ∀ setting ∈ settings.list, setting.WellFormed

/-! ## What settings mean -/

def FailureMode.ofName (name : Str) : Option FailureMode :=
  if name = "closed".toList then some .closed
  else if name = "open".toList then some .open
  else none

def headersOr (default : List HeaderName) (names : Option (List Str)) :
    Option (List HeaderName) :=
  (names.map fun names => names.mapM HeaderName.fromBytes).getD (some default)

def AuthSettings.config (parser : UriParser) (settings : AuthSettings) :
    Option ForwardAuthConfig :=
  (parser.parseUri settings.to_).toOption.bind fun uri =>
  (normalizeAuthEndpoint parser uri).toOption.bind fun endpoint =>
  (headersOr defaultRequestHeaders settings.requestHeaders).bind fun requestHeaders =>
  (headersOr [] settings.responseHeaders).bind fun responseHeaders =>
  ((settings.failureMode.map FailureMode.ofName).getD (some .closed)).bind fun failureMode =>
  some ⟨endpoint, requestHeaders, responseHeaders, failureMode,
    settings.timeout.getD defaultAuthTimeoutSecs⟩

/-! ## The object -/

theorem FailureMode.deserialize_name (name : Str) :
    (FailureMode.deserialize (.string name)).toOption = FailureMode.ofName name := by
  change (if name = "closed".toList then _ else _ : Except Str FailureMode).toOption = _
  rw [ofName]
  split
  · rfl
  split
  · rfl
  rfl

theorem deserializeHeaderNames_names (names : List Str) :
    (deserializeHeaderNames (.array (names.map .string))).toOption =
      names.mapM HeaderName.fromBytes := by
  rw [deserializeHeaderNames, toOption_bind, readList_string, Except.toOption, Option.bind_some,
    toOption_mapM]
  refine congrArg (fun f => names.mapM f) (funext fun name => ?_)
  cases HeaderName.fromBytes name <;> rfl

theorem deserializeUri_text (parser : UriParser) (text : Str) :
    (deserializeUri parser (.string text)).toOption =
      (parser.parseUri text).toOption.bind fun uri =>
        (normalizeAuthEndpoint parser uri).toOption :=
  toOption_bind (parser.parseUri text) (normalizeAuthEndpoint parser)

/-- A field that may be left out, read from where it is written. -/
theorem defaultField_written {β γ : Type} {read : Serde.Value → Except Str β} {default : β}
    {name : Str} {entries : List (Str × Serde.Value)} {write : γ → Serde.Value}
    {meaning : γ → Option β} (given : Option γ) (written : entries.lookup name = given.map write)
    (reads : ∀ x, (read (write x)).toOption = meaning x) :
    (Serde.defaultField read default name entries).toOption =
      (given.map meaning).getD (some default) := by
  rw [Serde.defaultField, written]
  cases given with
  | none => rfl
  | some x => exact reads x

section Object
variable {settings : AuthSettings}

theorem optional_sublist {γ : Type} (setting : γ → AuthSetting) (given : Option γ) {name : Str}
    (named : ∀ x, (setting x).entry.1 = name) :
    (((given.map setting).toList.map AuthSetting.entry).map Prod.fst).Sublist [name] := by
  cases given with
  | none => exact List.nil_sublist _
  | some x =>
      rw [Option.map_some, Option.toList_some, List.map_singleton, List.map_singleton, named x]

theorem fields_sublist :
    (settings.fields.map Prod.fst).Sublist ForwardAuthConfig.fieldNames := by
  rw [AuthSettings.fields, AuthSettings.list]
  simp only [List.map_cons, List.map_append]
  refine List.Sublist.cons_cons _ ?_
  exact (optional_sublist .requestHeaders _ fun _ => rfl).append
    ((optional_sublist .responseHeaders _ fun _ => rfl).append
      ((optional_sublist .failureMode _ fun _ => rfl).append
        (optional_sublist .timeout _ fun _ => rfl)))

theorem fields_distinct : (settings.fields.map Prod.fst).Nodup := by
  have names : ForwardAuthConfig.fieldNames.Nodup := by decide
  exact names.sublist fields_sublist

theorem lookup_to : settings.fields.lookup "to".toList = some (.string settings.to_) := rfl

theorem lookup_requestHeaders : settings.fields.lookup "request_headers".toList =
    settings.requestHeaders.map fun names => .array (names.map .string) := by
  obtain ⟨to_, requestHeaders, responseHeaders, failureMode, timeout⟩ := settings
  cases requestHeaders <;> cases responseHeaders <;> cases failureMode <;> cases timeout <;> rfl

theorem lookup_responseHeaders : settings.fields.lookup "response_headers".toList =
    settings.responseHeaders.map fun names => .array (names.map .string) := by
  obtain ⟨to_, requestHeaders, responseHeaders, failureMode, timeout⟩ := settings
  cases requestHeaders <;> cases responseHeaders <;> cases failureMode <;> cases timeout <;> rfl

theorem lookup_failureMode : settings.fields.lookup "failure_mode".toList =
    settings.failureMode.map .string := by
  obtain ⟨to_, requestHeaders, responseHeaders, failureMode, timeout⟩ := settings
  cases requestHeaders <;> cases responseHeaders <;> cases failureMode <;> cases timeout <;> rfl

theorem lookup_timeout : settings.fields.lookup "timeout_secs".toList =
    settings.timeout.map .unsigned := by
  obtain ⟨to_, requestHeaders, responseHeaders, failureMode, timeout⟩ := settings
  cases requestHeaders <;> cases responseHeaders <;> cases failureMode <;> cases timeout <;> rfl

/-- The object reads as what the settings mean, in whatever order its fields are. -/
theorem deserialize_settings {parser : UriParser} {order : List AuthSetting}
    (same : order.Perm settings.list) :
    (ForwardAuthConfig.deserialize parser (.object (order.map AuthSetting.entry))).toOption =
      settings.config parser := by
  have entries := same.map AuthSetting.entry
  have distinct : ((order.map AuthSetting.entry).map Prod.fst).Nodup :=
    (entries.map Prod.fst).nodup_iff.mpr fields_distinct
  have known : ∀ entry ∈ order.map AuthSetting.entry, entry.1 ∈ ForwardAuthConfig.fieldNames :=
    fun entry member => fields_sublist.subset (List.mem_map_of_mem (entries.subset member))
  have written : ∀ name, (order.map AuthSetting.entry).lookup name = settings.fields.lookup name :=
    Serde.lookup_perm entries fields_distinct
  generalize order.map AuthSetting.entry = fields at distinct known written
  have endpoint : Serde.field (deserializeUri parser) "to".toList fields =
      deserializeUri parser (.string settings.to_) := by
    rw [Serde.field, written, lookup_to]
  rw [ForwardAuthConfig.deserialize, Serde.fields_object 1 known distinct]
  change (Serde.field (deserializeUri parser) "to".toList fields >>= _).toOption = _
  rw [endpoint, toOption_bind, deserializeUri_text, Option.bind_assoc, AuthSettings.config]
  refine Option.bind_congr fun uri _ => Option.bind_congr fun endpoint _ => ?_
  rw [toOption_bind, defaultField_written settings.requestHeaders
    ((written _).trans lookup_requestHeaders) deserializeHeaderNames_names]
  refine Option.bind_congr fun requestHeaders _ => ?_
  rw [toOption_bind, defaultField_written settings.responseHeaders
    ((written _).trans lookup_responseHeaders) deserializeHeaderNames_names]
  refine Option.bind_congr fun responseHeaders _ => ?_
  rw [toOption_bind, defaultField_written settings.failureMode
    ((written _).trans lookup_failureMode) FailureMode.deserialize_name]
  refine Option.bind_congr fun failureMode _ => ?_
  rw [toOption_bind, defaultField_written settings.timeout ((written _).trans lookup_timeout)
    fun seconds => rfl]
  cases settings.timeout <;> rfl

end Object

/-! ## The lines -/

namespace AuthSetting

/-- What a setting line does to the open block, unless it is rejected. -/
def apply (setting : AuthSetting) (pending : ForwardAuthBlock) : Option ForwardAuthBlock :=
  match setting with
  | .to_ url => some { pending with to_ := some url }
  | .requestHeaders names => some { pending with requestHeaders := some names }
  | .responseHeaders names => some { pending with responseHeaders := some names }
  | .failureMode mode =>
      (FailureMode.ofName mode).map fun mode => { pending with failureMode := some mode }
  | .timeout seconds => some { pending with timeout := some seconds }

theorem keyword_isField (setting : AuthSetting) : IsField setting.keyword := by
  cases setting <;> exact isField_of_all rfl

theorem keyword_plain (setting : AuthSetting) : Plain setting.keyword := by
  cases setting with
  | to_ => exact (by decide : Plain "to".toList)
  | requestHeaders => exact (by decide : Plain "request_headers".toList)
  | responseHeaders => exact (by decide : Plain "response_headers".toList)
  | failureMode => exact (by decide : Plain "failure_mode".toList)
  | timeout => exact (by decide : Plain "timeout".toList)

theorem isLine {setting : AuthSetting} (wellFormed : setting.WellFormed) :
    IsLine setting.render (.simple (setting.keyword :: setting.args)) :=
  isLine_fields (List.forall_mem_cons.mpr ⟨setting.keyword_isField, wellFormed.areFields⟩)
    setting.keyword_plain

theorem parseFailureMode_name (name : Str) (line : Nat) :
    (parseFailureMode name line).toOption = FailureMode.ofName name := by
  rw [parseFailureMode, FailureMode.ofName]
  split
  · rfl
  split
  · rfl
  rfl

theorem setting_apply {setting : AuthSetting} (wellFormed : setting.WellFormed) (line : Nat)
    (pending : ForwardAuthBlock) :
    (forwardAuthSetting setting.keyword setting.args line pending).toOption =
      setting.apply pending := by
  cases setting with
  | to_ url =>
      change (forwardAuthSetting "to".toList [url] line pending).toOption = _
      rw [forwardAuthSetting, if_pos rfl]
      rfl
  | requestHeaders names =>
      have nonempty : names ≠ [] := wellFormed.nonempty
      have notTo : "request_headers".toList ≠ "to".toList := by decide
      change (forwardAuthSetting "request_headers".toList names line pending).toOption = _
      rw [forwardAuthSetting, if_neg notTo, if_pos (Or.inl rfl), if_neg nonempty, if_pos rfl]
      rfl
  | responseHeaders names =>
      have nonempty : names ≠ [] := wellFormed.nonempty
      have notTo : "response_headers".toList ≠ "to".toList := by decide
      have notRequest : "response_headers".toList ≠ "request_headers".toList := by decide
      change (forwardAuthSetting "response_headers".toList names line pending).toOption = _
      rw [forwardAuthSetting, if_neg notTo, if_pos (Or.inr rfl), if_neg nonempty,
        if_neg notRequest]
      rfl
  | failureMode mode =>
      change (parseFailureMode mode line >>= _).toOption = _
      rw [toOption_bind, parseFailureMode_name, apply, Option.map_eq_bind]
      rfl
  | timeout seconds =>
      change (withContext _ (parseDuration (decimal seconds.toNat)) >>= _).toOption = _
      rw [parseDuration_decimal]
      rfl

/-- Different settings can be given in either order. -/
theorem apply_comm {first second : AuthSetting}
    (unique : first.entry.1 = second.entry.1 → first = second) (pending : ForwardAuthBlock) :
    (first.apply pending).bind second.apply = (second.apply pending).bind first.apply := by
  cases first with
  | to_ url =>
      cases second with
      | to_ other => rw [unique rfl]
      | failureMode mode => cases name : FailureMode.ofName mode <;> simp [apply, name]
      | _ => rfl
  | requestHeaders names =>
      cases second with
      | requestHeaders other => rw [unique rfl]
      | failureMode mode => cases name : FailureMode.ofName mode <;> simp [apply, name]
      | _ => rfl
  | responseHeaders names =>
      cases second with
      | responseHeaders other => rw [unique rfl]
      | failureMode mode => cases name : FailureMode.ofName mode <;> simp [apply, name]
      | _ => rfl
  | failureMode mode =>
      cases second with
      | failureMode other => rw [unique rfl]
      | _ => cases name : FailureMode.ofName mode <;> simp [apply, name]
  | timeout seconds =>
      cases second with
      | timeout other => rw [unique rfl]
      | failureMode mode => cases name : FailureMode.ofName mode <;> simp [apply, name]
      | _ => rfl

/-- What the settings leave in the open block, one after the other. -/
def applyAll (order : List AuthSetting) (pending : ForwardAuthBlock) : Option ForwardAuthBlock :=
  order.foldl (fun pending setting => pending.bind setting.apply) (some pending)

theorem foldl_none (order : List AuthSetting) :
    order.foldl (fun pending setting => Option.bind pending setting.apply) none = none := by
  induction order with
  | nil => rfl
  | cons setting rest ih => exact ih

theorem applyAll_cons (setting : AuthSetting) (rest : List AuthSetting)
    (pending : ForwardAuthBlock) :
    applyAll (setting :: rest) pending = (setting.apply pending).bind (applyAll rest) := by
  rw [applyAll, List.foldl_cons, Option.bind_some]
  cases setting.apply pending with
  | none => exact foldl_none rest
  | some next => rfl

theorem applyAll_perm {order other : List AuthSetting} (same : order.Perm other)
    (unique : ∀ first ∈ order, ∀ second ∈ order,
      first.entry.1 = second.entry.1 → first = second) (pending : ForwardAuthBlock) :
    applyAll order pending = applyAll other pending := by
  refine same.foldl_eq' (fun first isFirst second isSecond pending => ?_) (some pending)
  cases pending with
  | none => rfl
  | some pending => exact apply_comm (unique first isFirst second isSecond) pending

end AuthSetting

section Block
variable {parser : UriParser} {sites : AList fun _ : Str => SiteConfig} {site : Option Str}
variable {tls : Option TlsConfig} {stack : List (List Directive)} {blocks : List PendingBlock}

theorem parseLine_setting {setting : AuthSetting} (wellFormed : setting.WellFormed) (line : Nat)
    (pending : ForwardAuthBlock) :
    (parseLine parser line setting.render
      ⟨sites, site, tls, stack, authBlock pending :: blocks⟩).toOption =
      (setting.apply pending).map fun pending =>
        ⟨sites, site, tls, stack, authBlock pending :: blocks⟩ := by
  have isAuth : (authBlock pending).directiveType = "forward_auth".toList := rfl
  have held : (authBlock pending).forwardAuth = some pending := rfl
  rw [parseLine_eq, (AuthSetting.isLine wellFormed).kind]
  dsimp only
  rw [simpleLine]
  dsimp only
  rw [if_pos isAuth, held]
  dsimp only
  rw [toOption_bind, AuthSetting.setting_apply wellFormed, Option.map_eq_bind]
  rfl

theorem parseLines_settings {order : List AuthSetting}
    (wellFormed : ∀ setting ∈ order, setting.WellFormed) : ∀ (line : Nat)
    (pending : ForwardAuthBlock),
    (parseLines parser line (order.map AuthSetting.render)
      ⟨sites, site, tls, stack, authBlock pending :: blocks⟩).toOption =
      (AuthSetting.applyAll order pending).map fun pending =>
        ⟨sites, site, tls, stack, authBlock pending :: blocks⟩ := by
  induction order with
  | nil => exact fun _ _ => rfl
  | cons setting rest ih =>
      intro line pending
      have later := ih fun other member => wellFormed other (List.mem_cons_of_mem _ member)
      rw [List.map_cons, parseLines, toOption_bind,
        parseLine_setting (wellFormed setting (List.mem_cons_self ..)), AuthSetting.applyAll_cons]
      cases setting.apply pending with
      | none => rfl
      | some next => exact later (line + 1) next

end Block

/-! ## The block -/

section Settings
variable {parser : UriParser} {settings : AuthSettings}

theorem settings_unique : ∀ first ∈ settings.list, ∀ second ∈ settings.list,
    first.entry.1 = second.entry.1 → first = second := by
  have distinct := @fields_distinct settings
  rw [AuthSettings.fields, List.map_map] at distinct
  exact fun first isFirst second isSecond same =>
    List.inj_on_of_nodup_map distinct isFirst isSecond same

theorem parseHeaders_names (what : Str) (line : Nat) (names : List Str) :
    (parseHeaders what line names).toOption = names.mapM HeaderName.fromBytes := by
  rw [parseHeaders, toOption_mapM]
  refine congrArg (fun f => names.mapM f) (funext fun name => ?_)
  cases HeaderName.fromBytes name <;> rfl

/-- The mode that is given, if any; `none` if it is not known. -/
def AuthSettings.mode (settings : AuthSettings) : Option (Option FailureMode) :=
  match settings.failureMode with
  | none => some none
  | some name => (FailureMode.ofName name).map some

/-- The open block with all settings. -/
def AuthSettings.block (settings : AuthSettings) (mode : Option FailureMode) : ForwardAuthBlock :=
  ⟨some settings.to_, settings.requestHeaders, settings.responseHeaders, mode, settings.timeout⟩

theorem applyAll_settings (settings : AuthSettings) :
    AuthSetting.applyAll settings.list .default = settings.mode.map settings.block := by
  obtain ⟨to_, requestHeaders, responseHeaders, failureMode, timeout⟩ := settings
  cases failureMode with
  | none => cases requestHeaders <;> cases responseHeaders <;> cases timeout <;> rfl
  | some name =>
      rw [AuthSettings.mode]
      cases mode : FailureMode.ofName name <;> cases requestHeaders <;> cases responseHeaders <;>
        cases timeout <;>
        simp [AuthSettings.list, AuthSetting.applyAll, AuthSetting.apply, mode,
          ForwardAuthBlock.default, AuthSettings.block]

theorem build_block (line : Nat) (mode : Option FailureMode) :
    (buildForwardAuth parser (settings.block mode) line).toOption =
      (parser.parseUri settings.to_).toOption.bind fun uri =>
      (normalizeAuthEndpoint parser uri).toOption.bind fun endpoint =>
      (headersOr defaultRequestHeaders settings.requestHeaders).bind fun requestHeaders =>
      (headersOr [] settings.responseHeaders).bind fun responseHeaders =>
      some (.forwardAuth ⟨endpoint, requestHeaders, responseHeaders, mode.getD .closed,
        settings.timeout.getD defaultAuthTimeoutSecs⟩) := by
  obtain ⟨to_, requestHeaders, responseHeaders, failureMode, timeout⟩ := settings
  rw [buildForwardAuth, AuthSettings.block]
  dsimp only
  cases parser.parseUri to_ with
  | error e => rfl
  | ok uri =>
      dsimp only [Except.toOption, Option.bind_some]
      cases normalizeAuthEndpoint parser uri with
      | error e => rfl
      | ok endpoint =>
          dsimp only [Option.bind_some]
          cases requestHeaders with
          | none =>
              cases responseHeaders with
              | none => rfl
              | some names =>
                  change (parseHeaders "response_headers".toList line names >>= _).toOption = _
                  rw [toOption_bind, parseHeaders_names]
                  rfl
          | some requested =>
              change (parseHeaders "request_headers".toList line requested >>= _).toOption = _
              rw [toOption_bind, parseHeaders_names]
              refine Option.bind_congr fun requestHeaders _ => ?_
              cases responseHeaders with
              | none => rfl
              | some names =>
                  change (parseHeaders "response_headers".toList line names >>= _).toOption = _
                  rw [toOption_bind, parseHeaders_names]
                  rfl

/-- The closed block makes the directive that the settings mean. -/
theorem build_settings (line : Nat) :
    (settings.mode.bind fun mode =>
      (buildForwardAuth parser (settings.block mode) line).toOption) =
      (settings.config parser).map .forwardAuth := by
  have mode : ((settings.failureMode.map FailureMode.ofName).getD (some .closed)) =
      settings.mode.map fun mode => mode.getD .closed := by
    rw [AuthSettings.mode]
    cases settings.failureMode with
    | none => rfl
    | some name =>
        dsimp only [Option.map_some, Option.getD_some]
        cases FailureMode.ofName name <;> rfl
  rw [AuthSettings.config, mode]
  cases settings.mode with
  | none => simp
  | some mode => simp [build_block, Option.map_bind]

theorem closeBlock_auth {s : ParserState} {pending : ForwardAuthBlock} {top : List Directive}
    {outer : List (List Directive)} {blocks : List PendingBlock} {line : Nat}
    (stack : s.directiveStack = [] :: top :: outer)
    (open_ : s.blockStack = authBlock pending :: blocks) :
    (closeBlock parser line s).toOption =
      (buildForwardAuth parser pending line).toOption.map fun directive =>
        { s with directiveStack := (top ++ [directive]) :: outer, blockStack := blocks } := by
  rw [closeBlock, stack]
  dsimp only
  rw [open_]
  dsimp only
  rw [toOption_bind, completeBlock_auth rfl rfl, Option.map_eq_bind]
  rfl

/-- The block is read as what its settings mean, in whatever order their lines are. -/
theorem parseLines_authBlock {address : Str} {order : List AuthSetting}
    (wellFormed : settings.WellFormed) (same : order.Perm settings.list) (line : Nat)
    (sites : AList fun _ : Str => SiteConfig) (tls : Option TlsConfig) (top : List Directive)
    (outer : List (List Directive)) (blocks : List PendingBlock) :
    (parseLines parser line (renderBlock ["forward_auth".toList] (order.map AuthSetting.render))
      ⟨sites, some address, tls, top :: outer, blocks⟩).toOption =
      (settings.config parser).map fun cfg =>
        ⟨sites, some address, tls, (top ++ [.forwardAuth cfg]) :: outer, blocks⟩ := by
  have opens := @isLine_opening "forward_auth".toList []
    (List.forall_mem_singleton.mpr (isWord_of_all rfl)) (by decide)
  have nested : ¬ ((top :: outer).length = 1 ∧ some address = none) := fun isSite => by
    cases isSite.2
  have opened : parseLine parser line (openingLine ["forward_auth".toList])
      ⟨sites, some address, tls, top :: outer, blocks⟩ =
      .ok ⟨sites, some address, tls, [] :: top :: outer, authBlock .default :: blocks⟩ := by
    rw [parseLine_eq, opens.kind]
    dsimp only [List.nil_append]
    rw [openBlock]
    dsimp only
    rw [if_neg nested]
    rfl
  have members : ∀ setting ∈ order, setting.WellFormed :=
    fun setting member => wellFormed setting (same.mem_iff.mp member)
  have unique : ∀ first ∈ order, ∀ second ∈ order,
      first.entry.1 = second.entry.1 → first = second := fun first isFirst second isSecond =>
    settings_unique first (same.mem_iff.mp isFirst) second (same.mem_iff.mp isSecond)
  rw [renderBlock, parseLines, opened]
  change (parseLines parser (line + 1) (order.map AuthSetting.render ++ [closingLine]) _).toOption
    = _
  rw [parseLines_bind, toOption_bind, parseLines_settings members,
    AuthSetting.applyAll_perm same unique, applyAll_settings, Option.map_map, Option.bind_map]
  generalize line + 1 + (order.map AuthSetting.render).length = closing
  have built := @build_settings parser settings closing
  have closed : ∀ pending, (parseLines parser closing [closingLine]
      ⟨sites, some address, tls, [] :: top :: outer, authBlock pending :: blocks⟩).toOption =
      (buildForwardAuth parser pending closing).toOption.map fun directive =>
        ⟨sites, some address, tls, (top ++ [directive]) :: outer, blocks⟩ := by
    intro pending
    rw [parseLines, parseLine_eq, isLine_closing.kind]
    dsimp only
    rw [toOption_bind, closeBlock_auth rfl rfl]
    cases (buildForwardAuth parser pending closing).toOption <;> rfl
  have pushed := congrArg (Option.map fun directive =>
    (⟨sites, some address, tls, (top ++ [directive]) :: outer, blocks⟩ : ParserState)) built
  rw [Option.map_bind, Option.map_map] at pushed
  simpa only [Function.comp_def, closed] using pushed

/-! ## Agreement -/

/-- Only what a line is by itself counts, not its spacing. -/
theorem parseLines_congr {first second : List Str} :
    first.map lineKind = second.map lineKind → ∀ (line : Nat) (s : ParserState),
      parseLines parser line first s = parseLines parser line second s := by
  induction first generalizing second with
  | nil =>
      intro same line s
      rw [List.map_nil, eq_comm, List.map_eq_nil_iff] at same
      rw [same]
  | cons raw rest ih =>
      intro same line s
      obtain ⟨other, others, rfl, kind, kinds⟩ := List.map_eq_cons_iff.mp same.symm
      rw [parseLines, parseLines, parseLine_eq, parseLine_eq, kind]
      exact bind_congr fun next => ih kinds.symm (line + 1) next

/-- What `from_str` does with the lines that are left. -/
def Config.fromLines (parser : UriParser) (line : Nat) (rest : List Str) (s : ParserState) :
    Except Failure Config := do
  let s ← parseLines parser line rest s
  validateListenSockets ⟨s.sites⟩
  .ok ⟨s.sites⟩

/-- A `forward_auth` block in the text and an object with the same settings are rejected
together, and give the same configuration; the rest of the text is parsed after it. -/
theorem text_json_agree {address : Str} {textOrder jsonOrder : List AuthSetting}
    (wellFormed : settings.WellFormed) (sameText : textOrder.Perm settings.list)
    (sameJson : jsonOrder.Perm settings.list) {block : List Str}
    (spelled : block.map lineKind =
      (renderBlock ["forward_auth".toList] (textOrder.map AuthSetting.render)).map lineKind)
    {content : Str} {before after : List Str} (within : lines content = before ++ (block ++ after))
    {sites : AList fun _ : Str => SiteConfig} {tls : Option TlsConfig} {top : List Directive}
    {outer : List (List Directive)} {blocks : List PendingBlock}
    (reached : parseLines parser 1 before .initial =
      .ok ⟨sites, some address, tls, top :: outer, blocks⟩) :
    (parseLines parser (1 + before.length) block
        ⟨sites, some address, tls, top :: outer, blocks⟩).toOption =
      (ForwardAuthConfig.deserialize parser
        (.object (jsonOrder.map AuthSetting.entry))).toOption.map (fun cfg =>
          ⟨sites, some address, tls, (top ++ [.forwardAuth cfg]) :: outer, blocks⟩) ∧
    (Config.fromStr parser content).toOption =
      (ForwardAuthConfig.deserialize parser
        (.object (jsonOrder.map AuthSetting.entry))).toOption.bind fun cfg =>
          (Config.fromLines parser (1 + before.length + block.length) after
            ⟨sites, some address, tls, (top ++ [.forwardAuth cfg]) :: outer, blocks⟩).toOption := by
  have read := @parseLines_authBlock parser settings address textOrder wellFormed sameText
    (1 + before.length) sites tls top outer blocks
  rw [← parseLines_congr spelled, ← deserialize_settings sameJson] at read
  refine ⟨read, ?_⟩
  have whole : Config.fromStr parser content =
      (parseLines parser (1 + before.length) block
        ⟨sites, some address, tls, top :: outer, blocks⟩ >>=
          Config.fromLines parser (1 + before.length + block.length) after) := by
    rw [Config.fromStr, within, parseLines_bind, reached]
    change (parseLines parser (1 + before.length) (block ++ after) _ >>= _) = _
    rw [parseLines_bind, bind_assoc]
    rfl
  rw [whole, toOption_bind, read, Option.bind_map]
  rfl

end Settings

/-! ## An example -/

def openSettings : AuthSettings :=
  ⟨"http://c".toList, none, some ["X-Real-IP".toList], some "open".toList, none⟩

/-- The endpoint is the last line of the block. -/
def openAuthBlock : List Str :=
  ["  forward_auth \x7b".toList, "\tfailure_mode open".toList,
    "\tresponse_headers  X-Real-IP".toList, "\tto http://c".toList, "  \x7d".toList]

def openAuthText : Str :=
  join ['\n'] ("a:80 \x7b".toList :: (openAuthBlock ++ ["respond 200".toList, ['\x7d']]))

def openAuthConfig : ForwardAuthConfig :=
  ⟨⟨some "http".toList, some ['c'], some ['/']⟩, defaultRequestHeaders, [.xRealIp], .open,
    defaultAuthTimeoutSecs⟩

theorem openSettings_wellFormed : openSettings.WellFormed := by
  have url : IsField "http://c".toList := isField_of_all rfl
  have name : IsField "X-Real-IP".toList := isField_of_all rfl
  have mode : IsField "open".toList := isField_of_all rfl
  exact List.forall_iff_forall_mem.mp
    ⟨⟨List.cons_ne_nil _ _, List.forall_mem_singleton.mpr url⟩,
      ⟨List.cons_ne_nil _ _, List.forall_mem_singleton.mpr name⟩,
      ⟨List.cons_ne_nil _ _, List.forall_mem_singleton.mpr mode⟩⟩

/-- Text and object in opposite orders. -/
theorem text_json_agree_open :
    (ForwardAuthConfig.deserialize plainUriParser
        (.object (openSettings.list.map AuthSetting.entry))).toOption = some openAuthConfig ∧
    (Config.fromStr plainUriParser openAuthText).toOption =
      some ⟨(∅ : AList fun _ : Str => SiteConfig).insert "a:80".toList
        ⟨"a:80".toList, [.forwardAuth openAuthConfig, .respond 200 []], none⟩⟩ := by
  have object : (ForwardAuthConfig.deserialize plainUriParser
      (.object (openSettings.list.map AuthSetting.entry))).toOption = some openAuthConfig := rfl
  have within : lines openAuthText =
      ["a:80 \x7b".toList] ++ (openAuthBlock ++ ["respond 200".toList, ['\x7d']]) := rfl
  have reached : parseLines plainUriParser 1 ["a:80 \x7b".toList] .initial =
      .ok ⟨∅, some "a:80".toList, none, [[]], []⟩ := rfl
  have spelled : openAuthBlock.map lineKind = (renderBlock ["forward_auth".toList]
      (openSettings.list.reverse.map AuthSetting.render)).map lineKind := rfl
  have agree := text_json_agree openSettings_wellFormed (List.reverse_perm _) (List.Perm.refl _)
    spelled within reached
  refine ⟨object, ?_⟩
  rw [agree.2, object]
  rfl

end TinyProxy
