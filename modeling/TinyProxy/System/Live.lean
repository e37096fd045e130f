import TinyProxy.Config.Loaded
import TinyProxy.System.Shared

/-!
# The configuration that is live

Whatever replaces the configuration while the server runs went through one of
the two readers, so what the readers guarantee holds of every configuration
that a request is served by.
-/

set_option autoImplicit false

namespace TinyProxy

open Rust Http Linearization Transition

/-- Some text parses to the configuration. -/
def Config.FromText (parser : UriParser) (config : Config) : Prop :=
  ∃ content, Config.fromStr parser content = .ok config

def Config.Endpoints (config : Config) : Prop :=
  ∀ cfg, config.HasAuth cfg → Uri.IsEndpoint cfg.endpoint

section Stored
variable {codec : Codec}

theorem Config.AllLoaded.endpoints {config : Config} (keeps : KeepsParts codec.parser)
    (loaded : config.AllLoaded codec.parser) : config.Endpoints := by
  intro cfg has
  obtain ⟨_, _, _, normalized⟩ := loaded cfg has
  exact normalizeAuthEndpoint_endpoint keeps normalized

theorem loaded_of_storedBy {request : ApiRequest} {config : Config}
    (stores : storedBy codec.json codec.parser request = some config) :
    config.AllLoaded codec.parser := by
  unfold storedBy at stores
  split at stores
  next =>
    cases posted : postedConfig (configFromJson codec.json codec.parser) request.body with
    | error message =>
        rw [posted] at stores
        cases stores
    | ok read =>
        rw [posted] at stores
        obtain rfl := Option.some.inj stores
        obtain ⟨text, _, later⟩ := bind_ok posted
        split at later
        next => cases later
        next found =>
          cases later
          obtain ⟨value, _, isConfig⟩ := bind_ok found
          exact Config.loaded_of_json isConfig
  next => cases stores

/-- A call keeps the guarantee, unless the application hands over something that no text
parses to. -/
theorem alone_loaded {call : CellCall} {stored : Config}
    (handed : ∀ config, call = .updateConfig config → config.FromText codec.parser)
    (loaded : stored.AllLoaded codec.parser) :
    (call.alone codec stored).2.AllLoaded codec.parser := by
  rw [alone_stored]
  cases stores : call.stores codec with
  | none => exact loaded
  | some config =>
      cases call with
      | proxied => cases stores
      | redirected => cases stores
      | configSnapshot => cases stores
      | api request => exact loaded_of_storedBy stores
      | updateConfig handedOver =>
          obtain rfl := Option.some.inj stores
          obtain ⟨content, accepted⟩ := handed _ rfl
          exact loaded_of_text accepted

end Stored

/-! ## Every run -/

/-- At all times, and for every request that is proxied, the endpoints that clients are
authorized at are absolute `http` or `https` URIs with a host and a path. -/
theorem live_endpoints {codec : Codec} {started : Started} {start : Config}
    {maxConcurrency : Nat} {events : List SystemEvent} {s : System}
    (keeps : KeepsParts codec.parser) (initial : start.FromText codec.parser)
    (reached : run (System.step codec) (started.system start maxConcurrency) events = some s)
    (handed : ∀ id config, .invoke id (.updateConfig config) ∈ s.cell.trace →
      config.FromText codec.parser) :
    s.cell.config.Endpoints ∧
      ∀ id world remoteAddr isTls incoming answer,
        ⟨id, .proxied world remoteAddr isTls incoming, answer⟩ ∈ effects s.cell.trace →
          ∃ config : Config, config.Endpoints ∧
            answer = .proxied (proxy codec.parser world config remoteAddr isTls incoming) := by
  have consistent := consistent_run reached
  obtain ⟨content, accepted⟩ := initial
  have kept : ∀ entry ∈ effects s.cell.trace, ∀ stored : Config,
      stored.AllLoaded codec.parser →
        (entry.call.alone codec stored).2.AllLoaded codec.parser := by
    intro entry member stored loaded
    refine alone_loaded (fun config same => ?_) loaded
    exact handed entry.id config (same ▸ consistent.wellFormed.invoked entry member)
  obtain ⟨atEnd, found⟩ :=
    Sequential.invariant (loaded_of_text accepted) kept consistent.sequential
  rw [consistent.current] at atEnd
  refine ⟨atEnd.endpoints keeps, fun id world remoteAddr isTls incoming answer member => ?_⟩
  obtain ⟨config, loaded, same⟩ := found _ member
  exact ⟨config, loaded.endpoints keeps, same⟩

/-! ## An authorization that is added -/

def guardedConfig : Config :=
  nestedAuthConfig (.handlePath "/*".toList [.forwardAuth nestedAuthEndpoint])

def addAuthorization : List SystemEvent :=
  [.connect false, .client 0 (.receive (.updateConfig guardedConfig)), .client 0 .touch]

theorem plainUriParser_assembles : KeepsParts plainUriParser := by
  intro parts uri _ _ _ assembled
  exact (Except.ok.inj assembled).symm

theorem live_endpoints_added : ∃ s,
    run (System.step plainCodec) (plainStarted.system ⟨∅⟩ 1) addAuthorization = some s ∧
      s.cell.config.HasAuth nestedAuthEndpoint ∧ s.cell.config.Endpoints := by
  have fromText : guardedConfig.FromText plainUriParser :=
    ⟨nestedAuthText "handle_path /*".toList, rfl⟩
  have ran : ∃ s, run (System.step plainCodec) (plainStarted.system ⟨∅⟩ 1) addAuthorization =
      some s ∧ s.cell.config = guardedConfig ∧ s.cell.trace =
        [.invoke 0 (.updateConfig guardedConfig), .effect 0 (.updateConfig guardedConfig)
          .updated] := ⟨_, rfl, rfl, rfl⟩
  obtain ⟨s, reached, stored, trace⟩ := ran
  have handed : ∀ id config, .invoke id (.updateConfig config) ∈ s.cell.trace →
      config.FromText plainCodec.parser := by
    intro id config made
    rw [trace] at made
    simp only [List.mem_cons, List.not_mem_nil, Label.invoke.injEq, CellCall.updateConfig.injEq,
      reduceCtorEq, or_false] at made
    rw [made.2]
    exact fromText
  refine ⟨s, reached, ?_, (live_endpoints plainUriParser_assembles ⟨[], rfl⟩ reached handed).1⟩
  rw [stored]
  exact ⟨_, List.mem_singleton_self _, _, List.mem_cons_self ..,
    .inside (List.mem_singleton_self _) .here⟩

end TinyProxy
