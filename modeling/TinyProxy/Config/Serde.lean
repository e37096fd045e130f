import TinyProxy.Config.Models
import TinyProxy.Data.Serde

/-!
# The JSON form of a configuration

What the `serde` attributes of the configuration types make of a value, and how
they read it back.  `display` writes an endpoint.  A directive is read with a
budget for the depth of its nested directives; the depth of the document is
enough.
-/

set_option autoImplicit false

namespace TinyProxy

open Rust Http

/-! ## Writing -/

def HeaderDirective.serialize (directive : HeaderDirective) : Serde.Value :=
  .object [("name".toList, .string directive.name),
    ("value".toList, Serde.writeOption .string directive.value)]

def FailureMode.serialize : FailureMode → Serde.Value
  | .closed => .string "closed".toList
  | .open => .string "open".toList

def serializeHeaderNames (names : List HeaderName) : Serde.Value :=
  .array (names.map fun name => .string name.text)

def ForwardAuthConfig.serialize (display : Uri → Str) (cfg : ForwardAuthConfig) : Serde.Value :=
  .object [("to".toList, .string (display cfg.endpoint)),
    ("request_headers".toList, serializeHeaderNames cfg.requestHeaders),
    ("response_headers".toList, serializeHeaderNames cfg.responseHeaders),
    ("failure_mode".toList, cfg.failureMode.serialize),
    ("timeout_secs".toList, .unsigned cfg.timeoutSecs)]

mutual

def Directive.serialize (display : Uri → Str) : Directive → Serde.Value
  | .reverseProxy to_ connectTimeout readTimeout headerUp =>
      Serde.writeVariant "ReverseProxy".toList
        [("to".toList, .string to_),
          ("connect_timeout".toList, Serde.writeOption .unsigned connectTimeout),
          ("read_timeout".toList, Serde.writeOption .unsigned readTimeout),
          ("header_up".toList, .array (headerUp.map HeaderDirective.serialize))]
  | .handlePath pattern directives =>
      Serde.writeVariant "HandlePath".toList
        [("pattern".toList, .string pattern),
          ("directives".toList, .array (serializeDirectives display directives))]
  | .uriReplace find replacement =>
      Serde.writeVariant "UriReplace".toList
        [("find".toList, .string find), ("replace".toList, .string replacement)]
  | .header name value =>
      Serde.writeVariant "Header".toList
        [("name".toList, .string name), ("value".toList, Serde.writeOption .string value)]
  | .method methods directives =>
      Serde.writeVariant "Method".toList
        [("methods".toList, .array (methods.map .string)),
          ("directives".toList, .array (serializeDirectives display directives))]
  | .stripPrefix pattern =>
      Serde.writeVariant "StripPrefix".toList [("prefix".toList, .string pattern)]
  | .redirect status url =>
      Serde.writeVariant "Redirect".toList
        [("status".toList, Serde.writeU16 status), ("url".toList, .string url)]
  | .respond status body =>
      Serde.writeVariant "Respond".toList
        [("status".toList, Serde.writeU16 status), ("body".toList, .string body)]
  | .forwardAuth cfg => .object [("ForwardAuth".toList, cfg.serialize display)]

def serializeDirectives (display : Uri → Str) : List Directive → List Serde.Value
  | [] => []
  | directive :: rest => directive.serialize display :: serializeDirectives display rest

end

def TlsConfig.serialize (tls : TlsConfig) : Serde.Value :=
  .object [("cert_path".toList, .string tls.certPath), ("key_path".toList, .string tls.keyPath)]

/-- Without TLS there is no field for it. -/
def SiteConfig.serialize (display : Uri → Str) (site : SiteConfig) : Serde.Value :=
  .object ([("address".toList, .string site.address),
      ("directives".toList, .array (serializeDirectives display site.directives))] ++
    (site.tls.map fun tls => ("tls".toList, tls.serialize)).toList)

def Config.serialize (display : Uri → Str) (config : Config) : Serde.Value :=
  .object [("sites".toList,
    .object (config.sites.entries.map fun entry => (entry.1, entry.2.serialize display)))]

/-! ## Reading -/

def HeaderDirective.deserialize (value : Serde.Value) : Except Str HeaderDirective := do
  let fields ← Serde.fields ["name".toList, "value".toList] 2 value
  let name ← Serde.field Serde.readString "name".toList fields
  let value ← Serde.optionField Serde.readString "value".toList fields
  .ok ⟨name, value⟩

def FailureMode.deserialize (value : Serde.Value) : Except Str FailureMode := do
  let name ← Serde.unitVariant value
  if name = "closed".toList then .ok .closed
  else if name = "open".toList then .ok .open
  else .error ("unknown variant `".toList ++ name ++ "`, expected `closed` or `open`".toList)

def deserializeHeaderNames (value : Serde.Value) : Except Str (List HeaderName) := do
  let raw ← Serde.readList Serde.readString value
  raw.mapM fun s =>
    match HeaderName.fromBytes s with
    | some name => .ok name
    | none => .error "invalid HTTP header name".toList

def deserializeUri (parser : UriParser) (value : Serde.Value) : Except Str Uri := do
  let s ← Serde.readString value
  let uri ← parser.parseUri s
  normalizeAuthEndpoint parser uri

def ForwardAuthConfig.fieldNames : List Str :=
  ["to".toList, "request_headers".toList, "response_headers".toList, "failure_mode".toList,
    "timeout_secs".toList]

def ForwardAuthConfig.deserialize (parser : UriParser) (value : Serde.Value) :
    Except Str ForwardAuthConfig := do
  let fields ← Serde.fields ForwardAuthConfig.fieldNames 1 value
  let endpoint ← Serde.field (deserializeUri parser) "to".toList fields
  let requestHeaders ← Serde.defaultField deserializeHeaderNames defaultRequestHeaders
    "request_headers".toList fields
  let responseHeaders ← Serde.defaultField deserializeHeaderNames []
    "response_headers".toList fields
  let failureMode ← Serde.defaultField FailureMode.deserialize .closed "failure_mode".toList fields
  let timeoutSecs ← Serde.defaultField Serde.readU64 defaultAuthTimeoutSecs
    "timeout_secs".toList fields
  .ok ⟨endpoint, requestHeaders, responseHeaders, failureMode, timeoutSecs⟩

/-- The content of a variant; `nested` reads the directives inside. -/
def Directive.ofVariant (parser : UriParser)
    (nested : Serde.Value → Except Str (List Directive)) (name : Str) (content : Serde.Value) :
    Except Str Directive :=
  if name = "ReverseProxy".toList then do
    let fields ← Serde.fields
      ["to".toList, "connect_timeout".toList, "read_timeout".toList, "header_up".toList] 3 content
    let to_ ← Serde.field Serde.readString "to".toList fields
    let connectTimeout ← Serde.optionField Serde.readU64 "connect_timeout".toList fields
    let readTimeout ← Serde.optionField Serde.readU64 "read_timeout".toList fields
    let headerUp ← Serde.defaultField (Serde.readList HeaderDirective.deserialize) []
      "header_up".toList fields
    .ok (.reverseProxy to_ connectTimeout readTimeout headerUp)
  else if name = "HandlePath".toList then do
    let fields ← Serde.fields ["pattern".toList, "directives".toList] 2 content
    let pattern ← Serde.field Serde.readString "pattern".toList fields
    let directives ← Serde.field nested "directives".toList fields
    .ok (.handlePath pattern directives)
  else if name = "UriReplace".toList then do
    let fields ← Serde.fields ["find".toList, "replace".toList] 2 content
    let find ← Serde.field Serde.readString "find".toList fields
    let replacement ← Serde.field Serde.readString "replace".toList fields
    .ok (.uriReplace find replacement)
  else if name = "Header".toList then do
    let fields ← Serde.fields ["name".toList, "value".toList] 2 content
    let name ← Serde.field Serde.readString "name".toList fields
    let value ← Serde.optionField Serde.readString "value".toList fields
    .ok (.header name value)
  else if name = "Method".toList then do
    let fields ← Serde.fields ["methods".toList, "directives".toList] 2 content
    let methods ← Serde.field (Serde.readList Serde.readString) "methods".toList fields
    let directives ← Serde.field nested "directives".toList fields
    .ok (.method methods directives)
  else if name = "StripPrefix".toList then do
    let fields ← Serde.fields ["prefix".toList] 1 content
    let pattern ← Serde.field Serde.readString "prefix".toList fields
    .ok (.stripPrefix pattern)
  else if name = "Redirect".toList then do
    let fields ← Serde.fields ["status".toList, "url".toList] 2 content
    let status ← Serde.field Serde.readU16 "status".toList fields
    let url ← Serde.field Serde.readString "url".toList fields
    .ok (.redirect status url)
  else if name = "Respond".toList then do
    let fields ← Serde.fields ["status".toList, "body".toList] 2 content
    let status ← Serde.field Serde.readU16 "status".toList fields
    let body ← Serde.field Serde.readString "body".toList fields
    .ok (.respond status body)
  else if name = "ForwardAuth".toList then do
    let cfg ← ForwardAuthConfig.deserialize parser content
    .ok (.forwardAuth cfg)
  else .error ("unknown variant `".toList ++ name ++ ['`'])

def Directive.deserialize (parser : UriParser) : Nat → Serde.Value → Except Str Directive
  | 0, _ => .error "recursion limit exceeded".toList
  | depth + 1, value => do
      let (name, content) ← Serde.variant value
      Directive.ofVariant parser (Serde.readList (Directive.deserialize parser depth)) name content

def TlsConfig.deserialize (value : Serde.Value) : Except Str TlsConfig := do
  let fields ← Serde.fields ["cert_path".toList, "key_path".toList] 2 value
  let certPath ← Serde.field Serde.readString "cert_path".toList fields
  let keyPath ← Serde.field Serde.readString "key_path".toList fields
  .ok ⟨certPath, keyPath⟩

def SiteConfig.deserialize (parser : UriParser) (value : Serde.Value) : Except Str SiteConfig := do
  let fields ← Serde.fields ["address".toList, "directives".toList, "tls".toList] 3 value
  let address ← Serde.field Serde.readString "address".toList fields
  let directives ← Serde.field (Serde.readList (Directive.deserialize parser value.depth))
    "directives".toList fields
  let tls ← Serde.optionField TlsConfig.deserialize "tls".toList fields
  .ok ⟨address, directives, tls⟩

/-- The entries of a map are inserted one after the other. -/
def deserializeSites (parser : UriParser) :
    List (Str × Serde.Value) → (AList fun _ : Str => SiteConfig) →
      Except Str (AList fun _ : Str => SiteConfig)
  | [], sites => .ok sites
  | (address, value) :: rest, sites => do
      let site ← SiteConfig.deserialize parser value
      deserializeSites parser rest (sites.insert address site)

def readSites (parser : UriParser) : Serde.Value → Except Str (AList fun _ : Str => SiteConfig)
  | .object entries => deserializeSites parser entries ∅
  | _ => .error "invalid type: expected a map".toList

def Config.deserialize (parser : UriParser) (value : Serde.Value) : Except Str Config := do
  let fields ← Serde.fields ["sites".toList] 1 value
  let sites ← Serde.field (readSites parser) "sites".toList fields
  .ok ⟨sites⟩

/-! ## Reading back -/

/-- The directive is a `forward_auth` with these settings, or has one inside. -/
inductive Directive.HasAuth (cfg : ForwardAuthConfig) : Directive → Prop where
  | here : Directive.HasAuth cfg (.forwardAuth cfg)
  | inside {directive child : Directive} (member : child ∈ directive.block)
      (deeper : Directive.HasAuth cfg child) : Directive.HasAuth cfg directive

def Config.HasAuth (cfg : ForwardAuthConfig) (config : Config) : Prop :=
  ∃ site ∈ config.values, ∃ directive ∈ site.directives, directive.HasAuth cfg

/-- The endpoint is read back from its text and is already normalized. -/
structure ForwardAuthConfig.ReadsBack (parser : UriParser) (display : Uri → Str)
    (cfg : ForwardAuthConfig) : Prop where
  parsed : parser.parseUri (display cfg.endpoint) = .ok cfg.endpoint
  normalized : normalizeAuthEndpoint parser cfg.endpoint = .ok cfg.endpoint

theorem readOption_string (value : Option Str) :
    Serde.readOption Serde.readString (Serde.writeOption .string value) = .ok value := by
  cases value <;> rfl

theorem readOption_u64 (value : Option UInt64) :
    Serde.readOption Serde.readU64 (Serde.writeOption .unsigned value) = .ok value := by
  cases value <;> rfl

theorem readList_string (texts : List Str) :
    Serde.readList Serde.readString (.array (texts.map .string)) = .ok texts :=
  Serde.readList_write fun _ _ => rfl

theorem HeaderDirective.deserialize_serialize (directive : HeaderDirective) :
    HeaderDirective.deserialize directive.serialize = .ok directive := by
  obtain ⟨name, value⟩ := directive
  change (do
    let value ← Serde.readOption Serde.readString (Serde.writeOption .string value)
    .ok (HeaderDirective.mk name value)) = _
  rw [readOption_string]
  rfl

theorem FailureMode.deserialize_serialize (mode : FailureMode) :
    FailureMode.deserialize mode.serialize = .ok mode := by
  cases mode <;> rfl

theorem deserializeHeaderNames_serialize (names : List HeaderName) :
    deserializeHeaderNames (serializeHeaderNames names) = .ok names := by
  have texts : Serde.readList Serde.readString (serializeHeaderNames names) =
      .ok (names.map HeaderName.text) := by
    rw [← readList_string (names.map HeaderName.text), List.map_map]
    rfl
  rw [deserializeHeaderNames, texts]
  change (names.map HeaderName.text).mapM _ = _
  clear texts
  induction names with
  | nil => rfl
  | cons name rest ih =>
      simp only [List.map_cons, List.mapM_cons, HeaderName.fromBytes_text, ih]
      rfl

section ReadBack
variable {parser : UriParser} {display : Uri → Str}

theorem ForwardAuthConfig.deserialize_serialize {cfg : ForwardAuthConfig}
    (readsBack : cfg.ReadsBack parser display) :
    ForwardAuthConfig.deserialize parser (cfg.serialize display) = .ok cfg := by
  have endpoint : deserializeUri parser (.string (display cfg.endpoint)) = .ok cfg.endpoint := by
    change (parser.parseUri (display cfg.endpoint) >>= normalizeAuthEndpoint parser) = _
    rw [readsBack.parsed]
    exact readsBack.normalized
  change (do
    let endpoint ← deserializeUri parser (.string (display cfg.endpoint))
    let requestHeaders ← deserializeHeaderNames (serializeHeaderNames cfg.requestHeaders)
    let responseHeaders ← deserializeHeaderNames (serializeHeaderNames cfg.responseHeaders)
    let failureMode ← FailureMode.deserialize cfg.failureMode.serialize
    .ok (ForwardAuthConfig.mk endpoint requestHeaders responseHeaders failureMode
      cfg.timeoutSecs)) = _
  rw [endpoint, deserializeHeaderNames_serialize, deserializeHeaderNames_serialize,
    FailureMode.deserialize_serialize]
  rfl

theorem serializeDirectives_eq (directives : List Directive) :
    serializeDirectives display directives = directives.map (Directive.serialize display) := by
  induction directives with
  | nil => rw [serializeDirectives, List.map_nil]
  | cons directive rest ih => rw [serializeDirectives, ih, List.map_cons]

theorem Directive.depth_le {directives : List Directive} {directive : Directive}
    (member : directive ∈ directives) :
    (directive.serialize display).depth ≤
      Serde.depthItems (serializeDirectives display directives) := by
  rw [serializeDirectives_eq]
  exact Serde.depth_le_items (List.mem_map_of_mem member)

/-- The directives inside are written at a lesser depth. -/
theorem Directive.depth_block {directive child : Directive} (member : child ∈ directive.block) :
    (child.serialize display).depth < (directive.serialize display).depth := by
  have inArray := @Directive.depth_le display directive.block child member
  cases directive with
  | handlePath pattern directives =>
      simp only [Directive.block] at inArray
      simp only [serialize, Serde.writeVariant, Serde.Value.depth, Serde.depthEntries]
      omega
  | method methods directives =>
      simp only [Directive.block] at inArray
      simp only [serialize, Serde.writeVariant, Serde.Value.depth, Serde.depthEntries]
      omega
  | _ => cases member

theorem Directive.depth_pos (directive : Directive) :
    0 < (directive.serialize display).depth := by
  cases directive <;>
    simp only [serialize, Serde.writeVariant, Serde.Value.depth, Nat.zero_lt_succ]

/-- A variant is read back if the directives inside are. -/
theorem Directive.ofVariant_serialize {nested : Serde.Value → Except Str (List Directive)}
    {directive : Directive}
    (inside : nested (.array (serializeDirectives display directive.block)) =
      .ok directive.block)
    (readsBack : ∀ cfg, directive.HasAuth cfg → cfg.ReadsBack parser display) :
    (do
      let (name, content) ← Serde.variant (directive.serialize display)
      Directive.ofVariant parser nested name content) = .ok directive := by
  cases directive with
  | reverseProxy to_ connectTimeout readTimeout headerUp =>
      have headers : Serde.readList HeaderDirective.deserialize
          (.array (headerUp.map HeaderDirective.serialize)) = .ok headerUp :=
        Serde.readList_write fun header _ => header.deserialize_serialize
      change (do
        let connectTimeout ← Serde.readOption Serde.readU64
          (Serde.writeOption .unsigned connectTimeout)
        let readTimeout ← Serde.readOption Serde.readU64 (Serde.writeOption .unsigned readTimeout)
        let headerUp ← Serde.readList HeaderDirective.deserialize
          (.array (headerUp.map HeaderDirective.serialize))
        .ok (Directive.reverseProxy to_ connectTimeout readTimeout headerUp)) = _
      rw [readOption_u64, readOption_u64, headers]
      rfl
  | handlePath pattern directives =>
      change (do
        let directives ← nested (.array (serializeDirectives display directives))
        .ok (Directive.handlePath pattern directives)) = _
      rw [show nested (.array (serializeDirectives display directives)) = _ from inside]
      rfl
  | uriReplace find replacement => rfl
  | header name value =>
      change (do
        let value ← Serde.readOption Serde.readString (Serde.writeOption .string value)
        .ok (Directive.header name value)) = _
      rw [readOption_string]
      rfl
  | method methods directives =>
      change (do
        let methods ← Serde.readList Serde.readString (.array (methods.map .string))
        let directives ← nested (.array (serializeDirectives display directives))
        .ok (Directive.method methods directives)) = _
      rw [readList_string, show nested (.array (serializeDirectives display directives)) = _
        from inside]
      rfl
  | stripPrefix pattern => rfl
  | redirect status url =>
      change (do
        let status ← Serde.readU16 (Serde.writeU16 status)
        .ok (Directive.redirect status url)) = _
      rw [Serde.readU16_write]
      rfl
  | respond status body =>
      change (do
        let status ← Serde.readU16 (Serde.writeU16 status)
        .ok (Directive.respond status body)) = _
      rw [Serde.readU16_write]
      rfl
  | forwardAuth cfg =>
      change (do
        let cfg ← ForwardAuthConfig.deserialize parser (cfg.serialize display)
        .ok (Directive.forwardAuth cfg)) = _
      rw [ForwardAuthConfig.deserialize_serialize (readsBack cfg .here)]
      rfl

/-- A directive is read back with a budget of the depth of its document. -/
theorem Directive.deserialize_serialize {directive : Directive}
    (readsBack : ∀ cfg, directive.HasAuth cfg → cfg.ReadsBack parser display) :
    ∀ {depth : Nat}, (directive.serialize display).depth ≤ depth →
      Directive.deserialize parser depth (directive.serialize display) = .ok directive
  | 0, shallow => absurd directive.depth_pos (Nat.not_lt.mpr shallow)
  | depth + 1, deep => by
      rw [Directive.deserialize]
      refine Directive.ofVariant_serialize ?_ readsBack
      rw [serializeDirectives_eq]
      refine Serde.readList_write fun child member => ?_
      have smaller := @Directive.depth_block display directive child member
      exact child.deserialize_serialize (fun cfg has => readsBack cfg (.inside member has))
        (by omega)
termination_by sizeOf directive
decreasing_by
  have smaller := List.sizeOf_lt_of_mem member
  have bounded := directive.sizeOf_block
  omega

theorem SiteConfig.deserialize_serialize {site : SiteConfig}
    (readsBack : ∀ directive ∈ site.directives, ∀ cfg, directive.HasAuth cfg →
      cfg.ReadsBack parser display) :
    SiteConfig.deserialize parser (site.serialize display) = .ok site := by
  have deep : ∀ directive ∈ site.directives,
      (directive.serialize display).depth ≤ (site.serialize display).depth := by
    intro directive member
    have inArray := @Directive.depth_le display site.directives directive member
    simp only [serialize, List.cons_append, Serde.Value.depth, Serde.depthEntries]
    omega
  have directives : Serde.readList (Directive.deserialize parser (site.serialize display).depth)
      (.array (serializeDirectives display site.directives)) = .ok site.directives := by
    rw [serializeDirectives_eq]
    refine Serde.readList_write fun directive member => ?_
    exact directive.deserialize_serialize (readsBack directive member) (deep directive member)
  obtain ⟨address, nested, tls⟩ := site
  generalize budget : (serialize display ⟨address, nested, tls⟩).depth = depth at directives
  rw [deserialize, budget]
  cases tls with
  | none =>
      change (do
        let directives ← Serde.readList (Directive.deserialize parser depth)
          (.array (serializeDirectives display nested))
        .ok (SiteConfig.mk address directives none)) = _
      rw [directives]
      rfl
  | some tls =>
      change (do
        let directives ← Serde.readList (Directive.deserialize parser depth)
          (.array (serializeDirectives display nested))
        .ok (SiteConfig.mk address directives (some tls))) = _
      rw [directives]
      rfl

/-- Sites under different addresses are all inserted. -/
theorem deserializeSites_serialize : ∀ {entries : List (Sigma fun _ : Str => SiteConfig)}
    {sites : AList fun _ : Str => SiteConfig},
    (∀ entry ∈ entries, SiteConfig.deserialize parser (entry.2.serialize display) = .ok entry.2) →
    (entries ++ sites.entries).NodupKeys →
    ∃ final, deserializeSites parser
        (entries.map fun entry => (entry.1, entry.2.serialize display)) sites = .ok final ∧
      final.entries.Perm (entries ++ sites.entries) := by
  intro entries
  induction entries with
  | nil => exact fun {sites} _ _ => ⟨sites, rfl, List.Perm.refl _⟩
  | cons entry rest ih =>
      intro sites reads distinct
      obtain ⟨address, site⟩ := entry
      have moved : (rest ++ ⟨address, site⟩ :: sites.entries).NodupKeys :=
        (List.perm_nodupKeys List.perm_middle).mpr distinct
      have fresh : address ∉ sites := by
        intro known
        refine List.notMem_keys_of_nodupKeys_cons distinct ?_
        obtain ⟨entry, member, same⟩ := List.mem_map.mp (AList.mem_keys.mpr known)
        exact List.mem_map.mpr ⟨entry, List.mem_append_right rest member, same⟩
      have inserted := @AList.entries_insert_of_notMem _ _ _ address site sites fresh
      rw [← inserted] at moved
      obtain ⟨final, read, same⟩ :=
        ih (fun entry member => reads entry (List.mem_cons_of_mem _ member)) moved
      refine ⟨final, ?_, ?_⟩
      · rw [List.map_cons, deserializeSites, reads _ (List.mem_cons_self ..)]
        exact read
      · rw [inserted] at same
        exact same.trans List.perm_middle

/-- A configuration is read back, whatever the order in which its sites are written. -/
theorem Config.deserialize_serialize {config : Config}
    (readsBack : ∀ cfg, config.HasAuth cfg → cfg.ReadsBack parser display) :
    ∃ parsed, Config.deserialize parser (config.serialize display) = .ok parsed ∧
      parsed.sites.entries.Perm config.sites.entries := by
  have sites : ∀ entry ∈ config.sites.entries,
      SiteConfig.deserialize parser (entry.2.serialize display) = .ok entry.2 := by
    intro entry member
    refine SiteConfig.deserialize_serialize fun directive inside cfg has => ?_
    exact readsBack cfg ⟨entry.2, List.mem_map_of_mem member, directive, inside, has⟩
  have distinct : (config.sites.entries ++ (∅ : AList fun _ : Str => SiteConfig).entries).NodupKeys := by
    rw [AList.empty_entries, List.append_nil]
    exact config.sites.nodupKeys
  obtain ⟨final, read, same⟩ := deserializeSites_serialize sites distinct
  rw [AList.empty_entries, List.append_nil] at same
  refine ⟨⟨final⟩, ?_, same⟩
  change (do
    let sites ← deserializeSites parser
      (config.sites.entries.map fun entry : Sigma fun _ : Str => SiteConfig =>
        (entry.1, entry.2.serialize display)) ∅
    .ok (Config.mk sites)) = _
  rw [read]
  rfl

end ReadBack

end TinyProxy
