import TinyProxy.Api.Endpoints
import TinyProxy.Config.RoundTrip
import TinyProxy.Config.Serde

/-!
# Posting back what was read

`GET /config` answers with the JSON form of the stored configuration.  Printing
and parsing JSON text are a parameter.
-/

set_option autoImplicit false

namespace TinyProxy

open Rust Http

/-- `serde_json`. -/
structure SerdeJson where
  toStringPretty : Serde.Value → Except Str Str
  fromStr : Str → Except Str Serde.Value

def handleGetConfig (json : SerdeJson) (display : Uri → Str) (stored : Config) : Response :=
  let body :=
    match json.toStringPretty (stored.serialize display) with
    | .ok text => text
    | .error _ => "\x7b\"error\": \"Failed to serialize config\"\x7d".toList
  jsonResponse .ok body

/-- `serde_json::from_str` at the type of configurations. -/
def configFromJson (json : SerdeJson) (parser : UriParser) (text : Str) : Except Str Config := do
  let value ← json.fromStr text
  Config.deserialize parser value

section Post
variable {json : SerdeJson} {parser : UriParser} {display : Uri → Str}

theorem handleGetConfig_body {stored : Config} {text : Str}
    (written : json.toStringPretty (stored.serialize display) = .ok text) :
    (handleGetConfig json display stored).body = .full text := by
  rw [handleGetConfig, written]
  rfl

/-- What the answer to a `GET` deserializes to is the stored configuration, and posting the
answer back leaves it stored. -/
theorem get_post_unchanged {config : Config} {text : Str}
    (normalized : ∀ cfg, config.HasAuth cfg →
      normalizeAuthEndpoint parser cfg.endpoint = .ok cfg.endpoint)
    (roundTrips : ∀ cfg, config.HasAuth cfg →
      parser.parseUri (display cfg.endpoint) = .ok cfg.endpoint)
    (written : json.toStringPretty (config.serialize display) = .ok text)
    (parsed : json.fromStr text = .ok (config.serialize display)) :
    (∃ same, Config.deserialize parser (config.serialize display) = .ok same ∧
      same.sites.entries.Perm config.sites.entries) ∧
    (handleGetConfig json display config).body = .full text ∧
    ∃ answer stored,
      handlePostConfig (configFromJson json parser) (.ok (utf8 text)) config = (answer, stored) ∧
        answer.status = .ok ∧ stored.sites.entries.Perm config.sites.entries := by
  have readsBack : ∀ cfg, config.HasAuth cfg → cfg.ReadsBack parser display :=
    fun cfg has => ⟨roundTrips cfg has, normalized cfg has⟩
  obtain ⟨same, read, unchanged⟩ := Config.deserialize_serialize readsBack
  have fromText : configFromJson json parser text = .ok same := by
    rw [configFromJson, parsed]
    exact read
  refine ⟨⟨same, read, unchanged⟩, handleGetConfig_body written, ?_⟩
  rw [handlePostConfig, postedConfig_of_text fromText]
  exact ⟨_, same, rfl, rfl, unchanged⟩

end Post

/-! ## A configuration and its text -/

/-- A `forward_auth` inside a `handle_path`. -/
def snapshotConfig : Config :=
  ⟨(∅ : AList fun _ : Str => SiteConfig).insert "a:80".toList
    ⟨"a:80".toList, [.handlePath "/*".toList [.forwardAuth nestedAuthEndpoint]], none⟩⟩

/-- Two blanks for each level, as the pretty printer writes it. -/
def snapshotText : Str :=
  "\x7b\n  \"sites\": \x7b\n    \"a:80\": \x7b\n      \"address\": \"a:80\",\n".toList ++
    "      \"directives\": [\n        \x7b\n          \"HandlePath\": \x7b\n".toList ++
    "            \"pattern\": \"/*\",\n            \"directives\": [\n".toList ++
    "              \x7b\n                \"ForwardAuth\": \x7b\n".toList ++
    "                  \"to\": \"http://c/\",\n".toList ++
    "                  \"request_headers\": [\n".toList ++
    "                    \"authorization\",\n                    \"cookie\"\n".toList ++
    "                  ],\n                  \"response_headers\": [],\n".toList ++
    "                  \"failure_mode\": \"closed\",\n".toList ++
    "                  \"timeout_secs\": 5\n                \x7d\n              \x7d\n".toList ++
    "            ]\n          \x7d\n        \x7d\n      ]\n    \x7d\n  \x7d\n\x7d".toList

/-- Reads and writes the one text. -/
def snapshotJson : SerdeJson where
  toStringPretty _ := .ok snapshotText
  fromStr text :=
    if text = snapshotText then .ok (snapshotConfig.serialize plainDisplay)
    else .error "expected value".toList

theorem snapshotConfig_auth {cfg : ForwardAuthConfig} (has : snapshotConfig.HasAuth cfg) :
    cfg = nestedAuthEndpoint := by
  obtain ⟨site, isSite, directive, inside, found⟩ := has
  obtain rfl := List.mem_singleton.mp isSite
  obtain rfl := List.mem_singleton.mp inside
  cases found with
  | inside member deeper =>
      obtain rfl := List.mem_singleton.mp member
      cases deeper with
      | here => rfl
      | inside member deeper => cases member

theorem get_post_unchanged_nested :
    (handleGetConfig snapshotJson plainDisplay snapshotConfig).body = .full snapshotText ∧
      ∃ answer stored, handlePostConfig (configFromJson snapshotJson plainUriParser)
          (.ok (utf8 snapshotText)) snapshotConfig = (answer, stored) ∧
        answer.status = .ok ∧ stored.sites.entries.Perm snapshotConfig.sites.entries := by
  have normalized : ∀ cfg, snapshotConfig.HasAuth cfg →
      normalizeAuthEndpoint plainUriParser cfg.endpoint = .ok cfg.endpoint := by
    intro cfg has
    obtain rfl := snapshotConfig_auth has
    rfl
  have roundTrips : ∀ cfg, snapshotConfig.HasAuth cfg →
      plainUriParser.parseUri (plainDisplay cfg.endpoint) = .ok cfg.endpoint := by
    intro cfg has
    obtain rfl := snapshotConfig_auth has
    rfl
  have written : snapshotJson.toStringPretty (snapshotConfig.serialize plainDisplay) =
      .ok snapshotText := rfl
  have parsed : snapshotJson.fromStr snapshotText =
      .ok (snapshotConfig.serialize plainDisplay) := by
    rw [snapshotJson]
    dsimp only
    rw [if_pos rfl]
  exact (get_post_unchanged normalized roundTrips written parsed).2

end TinyProxy
