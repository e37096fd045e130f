import TinyProxy.Http.Url
import TinyProxy.System.Live

/-!
# Posting an earlier configuration

A client of the API server reads the configuration and posts the text back
later.  The server cannot tell this from a new configuration: it stores what was
read, and what was stored since then is gone.
-/

set_option autoImplicit false

namespace TinyProxy

open Rust Http Linearization Transition

/-- Endpoints that were read from a text are read back from their display. -/
def Codec.DisplaysEndpoints (codec : Codec) : Prop :=
  ∀ cfg : ForwardAuthConfig, cfg.Loaded codec.parser →
    codec.parser.parseUri (codec.display cfg.endpoint) = .ok cfg.endpoint

/-- The text that shows a configuration is read as this configuration. -/
def Codec.ReadsShown (codec : Codec) (text : Str) : Prop :=
  ∀ config : Config, (handleGetConfig codec.json codec.display config).body = .full text →
    codec.json.fromStr text = .ok (config.serialize codec.display)

section Requests
variable {codec : Codec} {get post : ApiRequest} {stored : Config} {text : Str}

theorem alone_get (isGet : get.req.method = "GET".toList ∧ get.req.uri.path = "/config".toList) :
    (CellCall.api get).alone codec stored =
      (.api (handleGetConfig codec.json codec.display stored), stored) := by
  rw [CellCall.alone, handleApiRequest, if_pos isGet]

theorem alone_post (isPost : post.req.method = "POST".toList ∧
      post.req.uri.path = "/config".toList) {config : Config}
    (posted : postedConfig (configFromJson codec.json codec.parser) post.body = .ok config) :
    ∃ answer, answer.status = .ok ∧
      (CellCall.api post).alone codec stored = (.api answer, config) := by
  have notGet : ¬ (post.req.method = "GET".toList ∧ post.req.uri.path = "/config".toList) := by
    rw [isPost.1]
    simp
  rw [CellCall.alone, handleApiRequest, if_neg notGet, if_pos isPost, handlePostConfig, posted]
  exact ⟨_, rfl, rfl⟩

/-- What is shown of a configuration whose endpoints are loaded can be posted. -/
theorem posted_of_shown (keeps : KeepsParts codec.parser) (displays : codec.DisplaysEndpoints)
    (reads : codec.ReadsShown text) (loaded : stored.AllLoaded codec.parser)
    (shown : (handleGetConfig codec.json codec.display stored).body = .full text) :
    ∃ config, postedConfig (configFromJson codec.json codec.parser) (.ok (utf8 text)) =
        .ok config ∧ config.sites.entries.Perm stored.sites.entries := by
  have readsBack : ∀ cfg, stored.HasAuth cfg → cfg.ReadsBack codec.parser codec.display := by
    intro cfg has
    have isEndpoint := loaded.endpoints keeps cfg has
    exact ⟨displays cfg (loaded cfg has), normalizeAuthEndpoint_of_endpoint isEndpoint⟩
  obtain ⟨config, read, same⟩ := Config.deserialize_serialize readsBack
  refine ⟨config, postedConfig_of_text ?_, same⟩
  rw [configFromJson, reads stored shown]
  exact read

end Requests

/-! ## Every run -/

/-- A `POST /config` with the body of an earlier `GET /config` is answered 200 and stores what
the `GET` has found, whatever was stored in between. -/
theorem posting_back_restores {codec : Codec} {started : Started} {start : Config}
    {maxConcurrency : Nat} {events : List SystemEvent} {s : System}
    (keeps : KeepsParts codec.parser) (displays : codec.DisplaysEndpoints)
    (initial : start.FromText codec.parser)
    (reached : run (System.step codec) (started.system start maxConcurrency) events = some s)
    (handed : ∀ id config, .invoke id (.updateConfig config) ∈ s.cell.trace →
      config.FromText codec.parser)
    {getId postId : Nat} {get post : ApiRequest} {response : Response} {answer : CellAnswer}
    {text : Str}
    (isGet : get.req.method = "GET".toList ∧ get.req.uri.path = "/config".toList)
    (isPost : post.req.method = "POST".toList ∧ post.req.uri.path = "/config".toList)
    (asked : .invoke getId (.api get) ∈ s.cell.trace)
    (earlier : [.respond getId (.api response), .invoke postId (.api post)].Sublist
      (history s.cell.trace))
    (answered : .respond postId answer ∈ s.cell.trace)
    (shown : response.body = .full text) (reads : codec.ReadsShown text)
    (sends : post.body = .ok (utf8 text)) :
    ∃ before between after done,
      effects s.cell.trace = before ++ ⟨getId, .api get, .api response⟩ ::
        (between ++ ⟨postId, .api post, .api done⟩ :: after) ∧
      answer = .api done ∧ done.status = .ok ∧
      (final (CellCall.alone codec) start (before ++ ⟨getId, .api get, .api response⟩ ::
        (between ++ [⟨postId, .api post, .api done⟩]))).sites.entries.Perm
        (final (CellCall.alone codec) start before).sites.entries := by
  have consistent := consistent_run reached
  have wf := consistent.wellFormed
  obtain ⟨gotCall, got⟩ := wf.answered
    (mem_history_respond.mp (earlier.subset (List.mem_cons_self ..)))
  obtain rfl := wf.call_unique asked (wf.invoked _ got)
  obtain ⟨postCall, stores⟩ := wf.answered answered
  have posted : .invoke postId (.api post) ∈ s.cell.trace :=
    mem_history_invoke.mp (earlier.subset (by simp))
  obtain rfl := wf.call_unique posted (wf.invoked _ stores)
  obtain ⟨before, between, after, shape⟩ :=
    pair_sublist_split (wf.realTime earlier _ got _ stores rfl rfl)
  have sequential := consistent.sequential
  rw [shape, sequential_append] at sequential
  obtain ⟨first, isShown, later⟩ := sequential
  rw [sequential_append] at later
  obtain ⟨_, isDone, _⟩ := later
  -- what the `GET` has found
  have loaded : (final (CellCall.alone codec) start before).AllLoaded codec.parser := by
    obtain ⟨content, accepted⟩ := initial
    refine (Sequential.invariant (loaded_of_text accepted) ?_ first).1
    intro entry member stored before_
    refine alone_loaded (fun config same => handed entry.id config ?_) before_
    exact same ▸ wf.invoked entry (shape ▸ List.mem_append_left _ member)
  rw [alone_get isGet] at isShown
  obtain rfl := CellAnswer.api.inj isShown
  obtain ⟨config, accepted, same⟩ := posted_of_shown keeps displays reads loaded shown
  rw [← sends] at accepted
  obtain ⟨done, ok, effect⟩ := @alone_post codec post
    (final (CellCall.alone codec) _ between) isPost config accepted
  rw [effect] at isDone
  dsimp only at isDone
  subst isDone
  refine ⟨before, between, after, done, shape, rfl, ok, ?_⟩
  rw [final_append, final, final_append, final, effect]
  exact same

/-! ## An update that is lost -/

def emptyText : Str := "\x7b\n  \"sites\": \x7b\x7d\n\x7d".toList

/-- Prints and reads the configuration without sites. -/
def emptyJson : SerdeJson where
  toStringPretty
    | .object [(name, .object [])] =>
        if name = "sites".toList then .ok emptyText else .error "not printed".toList
    | _ => .error "not printed".toList
  fromStr text :=
    if text = emptyText then .ok (.object [("sites".toList, .object [])])
    else .error "expected value".toList

def restoringCodec : Codec := ⟨emptyJson, plainUriParser, plainDisplay⟩

/-- What the plain parser makes of a text. -/
theorem plainUriParser_parts {raw : Str} {uri : Uri}
    (parsed : plainUriParser.parseUri raw = .ok uri) :
    ∃ scheme authority path, uri = ⟨some scheme, some authority, some ('/' :: path)⟩ ∧
      authority ≠ [] ∧ ∀ c ∈ authority, decide (c ≠ '/') = true := by
  dsimp only [plainUriParser] at parsed
  split at parsed
  · cases parsed
  next scheme rest _ =>
    split at parsed
    · cases parsed
    next nonempty =>
      obtain rfl := Except.ok.inj parsed
      have inside : ∀ c ∈ rest.takeWhile (· ≠ '/'), decide (c ≠ '/') = true :=
        fun c member => by simpa using List.mem_takeWhile_imp member
      split
      · exact ⟨_, _, [], rfl, nonempty, inside⟩
      next some_ =>
        obtain ⟨c, path, same⟩ := List.exists_cons_of_ne_nil some_
        have stop := List.head?_dropWhile_not (· ≠ '/') rest
        rw [same] at stop
        obtain rfl : c = '/' := by simpa using stop
        rw [same]
        exact ⟨_, _, path, rfl, nonempty, inside⟩

theorem plainUriParser_displays : restoringCodec.DisplaysEndpoints := by
  intro cfg loaded
  obtain ⟨raw, uri, parsed, normalized⟩ := loaded
  obtain ⟨scheme, authority, path, rfl, nonempty, inside⟩ := plainUriParser_parts parsed
  have isEndpoint := normalizeAuthEndpoint_endpoint plainUriParser_assembles normalized
  have same : cfg.endpoint = ⟨some scheme, some authority, some ('/' :: path)⟩ := by
    unfold normalizeAuthEndpoint at normalized
    dsimp only at normalized
    split at normalized
    · cases normalized
    · simpa using normalized.symm
  have cut : Text.splitOnce "://".toList (scheme ++ "://".toList ++ authority ++ '/' :: path) =
      some (scheme, authority ++ '/' :: path) := by
    have named := isEndpoint.scheme
    rw [same] at named
    rcases named with isHttp | isHttps
    · obtain rfl := Option.some.inj isHttp
      rfl
    · obtain rfl := Option.some.inj isHttps
      rfl
  obtain ⟨front, back⟩ :=
    @takeWhile_append_stop (· ≠ '/') authority ('/' :: path) inside (by simp)
  have shown : plainDisplay cfg.endpoint =
      scheme ++ "://".toList ++ authority ++ '/' :: path := by
    rw [same]
    rfl
  change plainUriParser.parseUri (plainDisplay cfg.endpoint) = _
  rw [shown]
  dsimp only [plainUriParser]
  rw [cut]
  dsimp only
  rw [front, back, if_neg nonempty, same]
  rfl

def getRequest : ApiRequest := ⟨⟨"GET".toList, ⟨none, none, some "/config".toList⟩, []⟩, .ok []⟩

def postRequest : ApiRequest :=
  ⟨⟨"POST".toList, ⟨none, none, some "/config".toList⟩, []⟩, .ok (utf8 emptyText)⟩

/-- A client of the API server reads, the application adds an authorization, and the client
posts what it has read. -/
def readUpdatePost : List SystemEvent :=
  [.connect true, .client 0 (.receive (.api getRequest)), .client 0 .touch, .client 0 .finish,
    .connect false, .client 0 (.receive (.updateConfig guardedConfig)), .client 0 .touch,
    .client 0 .finish, .client 1 (.receive (.api postRequest)), .client 1 .touch,
    .client 1 .finish]

theorem readUpdatePost_run : ∃ s got done,
    run (System.step restoringCodec) (plainStarted.system ⟨∅⟩ 1) readUpdatePost = some s ∧
      got.body = .full emptyText ∧
      s.cell.trace = [.invoke 0 (.api getRequest), .effect 0 (.api getRequest) (.api got),
        .respond 0 (.api got), .invoke 1 (.updateConfig guardedConfig),
        .effect 1 (.updateConfig guardedConfig) .updated, .respond 1 .updated,
        .invoke 2 (.api postRequest), .effect 2 (.api postRequest) (.api done),
        .respond 2 (.api done)] := ⟨_, _, _, rfl, rfl, rfl⟩

theorem emptyText_read : restoringCodec.ReadsShown emptyText := by
  intro config isShown
  have printed : restoringCodec.json.fromStr emptyText =
      .ok (.object [("sites".toList, .object [])]) := by
    change emptyJson.fromStr emptyText = _
    rw [emptyJson]
    dsimp only
    rw [if_pos rfl]
  rw [printed]
  cases entries : config.sites.entries with
  | nil => rw [Config.serialize, entries]; rfl
  | cons entry rest =>
      have fails : (handleGetConfig restoringCodec.json restoringCodec.display config).body =
          .full "\x7b\"error\": \"Failed to serialize config\"\x7d".toList := by
        rw [handleGetConfig, Config.serialize, entries]
        rfl
      rw [fails] at isShown
      exact absurd isShown (by decide)

/-- The authorization that the application has added is gone. -/
theorem posting_back_restores_empty : ∃ s got between done after,
    run (System.step restoringCodec) (plainStarted.system ⟨∅⟩ 1) readUpdatePost = some s ∧
      .respond 1 .updated ∈ s.cell.trace ∧
      effects s.cell.trace = got :: (between ++ done :: after) ∧
      (final (CellCall.alone restoringCodec) ⟨∅⟩
        (got :: (between ++ [done]))).sites.entries = [] := by
  obtain ⟨s, got, done, reached, shown, trace⟩ := readUpdatePost_run
  have handed : ∀ id config, .invoke id (.updateConfig config) ∈ s.cell.trace →
      config.FromText restoringCodec.parser := by
    intro id config made
    simp only [trace, List.mem_cons, List.not_mem_nil, Label.invoke.injEq,
      CellCall.updateConfig.injEq, reduceCtorEq, and_false, false_or, or_false] at made
    rw [made.2]
    exact ⟨nestedAuthText "handle_path /*".toList, rfl⟩
  have initial : Config.FromText restoringCodec.parser ⟨∅⟩ := ⟨[], rfl⟩
  have asked : .invoke 0 (.api getRequest) ∈ s.cell.trace := by simp [trace]
  have answered : .respond 2 (.api done) ∈ s.cell.trace := by simp [trace]
  have earlier : [.respond 0 (.api got), .invoke 2 (.api postRequest)].Sublist
      (history s.cell.trace) := by
    rw [trace]
    exact .cons _ (.cons_cons _ (.cons _ (.cons _ (.cons_cons _ (List.nil_sublist _)))))
  obtain ⟨before, between, after, _, shape, _, _, restored⟩ :=
    posting_back_restores plainUriParser_assembles plainUriParser_displays initial reached handed
      ⟨rfl, rfl⟩ ⟨rfl, rfl⟩ asked earlier answered shown emptyText_read rfl
  have first : before = [] := by
    have ids : [0, 1, 2] = before.map Entry.id ++
        0 :: (between.map Entry.id ++ 2 :: after.map Entry.id) := by
      have mapped := congrArg (List.map Entry.id) shape
      rw [trace, List.map_append, List.map_cons, List.map_append, List.map_cons] at mapped
      exact mapped
    cases before with
    | nil => rfl
    | cons entry rest =>
        have among : 0 ∈ [1, 2] := by
          rw [(List.cons.inj ids).2]
          simp
        simp at among
  subst first
  exact ⟨s, _, between, _, after, reached, by simp [trace], shape, restored.eq_nil⟩

end TinyProxy
