import TinyProxy.Proxy.Serve

/-!
# Correlation identifiers

Every response the proxy writes itself carries the identifier of the log entry
once.  A proxied response gets it added to whatever the backend sent.
-/

set_option autoImplicit false

namespace TinyProxy

open Rust Http

/-- The headers carry this identifier and no other. -/
def CarriesOnce (headers : HeaderMap) (id : Str) : Prop :=
  ∃ v, Multimap.getAll headers .xRequestId = [v] ∧ v.toStr = some id

/-! ## Identifiers can be sent -/

theorem toDigit_visible {c : Char} (digit : (toDigit 16 c).isSome = true) :
    32 ≤ c.toNat ∧ c.toNat < 127 := by
  obtain ⟨d, read⟩ := Option.isSome_iff_exists.mp digit
  simp only [toDigit, Option.filter_eq_some_iff, Char.le_def, UInt32.le_iff_toNat_le] at read
  obtain ⟨read, _⟩ := read
  change (if 48 ≤ c.toNat ∧ c.toNat ≤ 57 then _ else if 97 ≤ c.toNat ∧ c.toNat ≤ 102 then _
    else if 65 ≤ c.toNat ∧ c.toNat ≤ 70 then _ else none) = some d at read
  split at read
  · omega
  · split at read
    · omega
    · split at read
      · omega
      · cases read

theorem uuid_visible (uuid : Uuid) : VisibleText uuid.text := by
  have valid := uuid.valid
  rw [isUuidText, Bool.and_eq_true, List.all_eq_true] at valid
  intro c member
  have shape := valid.2 c member
  rw [Bool.or_eq_true, beq_iff_eq] at shape
  rcases shape with digit | rfl
  · exact Or.inl (toDigit_visible digit)
  · exact Or.inl (by decide)

theorem ensureRequestId_visible (uuid : Uuid) (req : Request) :
    VisibleText (ensureRequestId uuid req).1 := by
  unfold ensureRequestId
  cases read : (Multimap.get req.headers .xRequestId).bind HeaderValue.toStr with
  | none => exact uuid_visible uuid
  | some id =>
      obtain ⟨value, _, text⟩ := Option.bind_eq_some_iff.mp read
      exact HeaderValue.toStr_visible text

theorem finalRequestId_visible {fallback : Str} (req : Request) (visible : VisibleText fallback) :
    VisibleText (finalRequestId req fallback) := by
  unfold finalRequestId
  cases read : (Multimap.get req.headers .xRequestId).bind HeaderValue.toStr with
  | none => exact visible
  | some id =>
      obtain ⟨value, _, text⟩ := Option.bind_eq_some_iff.mp read
      exact HeaderValue.toStr_visible text

theorem loggedId_visible (world : World) (config : Config) (remoteAddr : SocketAddr)
    (isTls : Bool) (incoming : Request) :
    VisibleText (loggedId world config remoteAddr isTls incoming) := by
  have first := ensureRequestId_visible (world.uuids 0) incoming
  unfold loggedId
  cases selected world config remoteAddr isTls incoming with
  | none => exact first
  | some final => exact finalRequestId_visible final.2.req first

/-! ## Responses -/

section Responses
variable {id : Str}

theorem withHeader_ok {name : HeaderName} {value : Str} {headers added : HeaderMap}
    (built : withHeader name value headers = .ok added) :
    ∃ v, HeaderValue.fromStr value = some v ∧ added = Multimap.append headers name v := by
  unfold withHeader at built
  cases made : HeaderValue.fromStr value with
  | none => simp [made] at built
  | some v =>
      rw [made] at built
      exact ⟨v, rfl, (Except.ok.inj built).symm⟩

theorem getAll_withHeader {name n : HeaderName} {value : Str} {headers added : HeaderMap}
    (built : withHeader name value headers = .ok added) (other : name ≠ n) :
    Multimap.getAll added n = Multimap.getAll headers n := by
  obtain ⟨v, _, rfl⟩ := withHeader_ok built
  rw [Multimap.getAll_append, if_neg other, List.append_nil]

/-- Adding the identifier makes it the only one exactly where there was none. -/
theorem withId_carries_iff (visible : VisibleText id) {headers added : HeaderMap}
    (built : withHeader .xRequestId id headers = .ok added) :
    CarriesOnce added id ↔ Multimap.getAll headers .xRequestId = [] := by
  obtain ⟨v, made, rfl⟩ := withHeader_ok built
  obtain ⟨same, made', read⟩ := HeaderValue.ofVisible visible
  obtain rfl : v = same := Option.some.inj (made.symm.trans made')
  unfold CarriesOnce
  rw [Multimap.getAll_append, if_pos rfl]
  constructor
  · rintro ⟨w, single, _⟩
    have size := congrArg List.length single
    rw [List.length_append, List.length_singleton, List.length_singleton] at size
    exact List.length_eq_zero_iff.mp (by omega)
  · intro absent
    exact ⟨v, by rw [absent]; rfl, read⟩

theorem errorResponse_carries (visible : VisibleText id) (status : StatusCode) (message : Str) :
    CarriesOnce (errorResponseWithId status message id).headers id := by
  obtain ⟨v, made, read⟩ := HeaderValue.ofVisible visible
  refine ⟨v, ?_, read⟩
  simp only [errorResponseWithId, made, Multimap.getAll_append, if_true]
  rfl

theorem redirect_carries (visible : VisibleText id) {status : UInt16} {url : Str}
    {response : Response} (built : redirectResponse status url id = .ok response) :
    CarriesOnce response.headers id := by
  obtain ⟨headers, first, rest⟩ := bind_ok built
  obtain ⟨added, second, last⟩ := bind_ok rest
  obtain rfl := Except.ok.inj last
  obtain ⟨location, _, rfl⟩ := withHeader_ok first
  apply (withId_carries_iff visible second).mpr
  rw [Multimap.getAll_append, if_neg (by decide)]
  rfl

theorem respond_carries (visible : VisibleText id) {status : UInt16} {body : Str}
    {response : Response} (built : respondResponse status body id = .ok response) :
    CarriesOnce response.headers id := by
  obtain ⟨added, first, rest⟩ := bind_ok built
  obtain rfl := Except.ok.inj rest
  exact (withId_carries_iff visible first).mpr rfl

theorem authDenied_carries (visible : VisibleText id) {status : UInt16}
    {wwwAuthenticate : Option HeaderValue} {response : Response}
    (built : authDeniedResponse status wwwAuthenticate id = .ok response) :
    CarriesOnce response.headers id := by
  obtain ⟨added, first, rest⟩ := bind_ok built
  obtain rfl := Except.ok.inj rest
  have carries : CarriesOnce added id := (withId_carries_iff visible first).mpr rfl
  cases wwwAuthenticate with
  | none => exact carries
  | some challenge =>
      obtain ⟨v, single, read⟩ := carries
      refine ⟨v, ?_, read⟩
      change Multimap.getAll (Multimap.append added .wwwAuthenticate challenge) .xRequestId = [v]
      rw [Multimap.getAll_append, single, if_neg (by decide), List.append_nil]

/-- What is copied of the backend's headers. -/
theorem getAll_copied (headers : HeaderMap) (n : HeaderName) :
    Multimap.getAll
        (headers.filter fun entry =>
          !isHopHeader entry.1 && decide (entry.1 ≠ HeaderName.contentLength)) n =
      if isHopHeader n = true ∨ n = .contentLength then [] else Multimap.getAll headers n := by
  unfold Multimap.getAll
  rw [List.filter_filter]
  split
  · next dropped =>
      rw [List.map_eq_nil_iff, List.filter_eq_nil_iff]
      intro entry _ kept
      simp only [Bool.and_eq_true, decide_eq_true_eq, Bool.not_eq_true'] at kept
      obtain ⟨rfl, notHop, notLength⟩ := kept
      rcases dropped with hop | length
      · exact Bool.false_ne_true (notHop.symm.trans hop)
      · exact notLength length
  · next kept =>
      rw [not_or] at kept
      congr 1
      apply List.filter_congr
      intro entry _
      by_cases same : entry.1 = n
      · simp [same, kept]
      · simp [same]

theorem proxied_carries_iff (visible : VisibleText id) {status : StatusCode}
    {headers : HeaderMap} {body : Body} {response : Response}
    (built : proxiedResponse status headers body id = .ok response) :
    CarriesOnce response.headers id ↔ Multimap.getAll headers .xRequestId = [] := by
  obtain ⟨added, first, rest⟩ := bind_ok built
  obtain rfl := Except.ok.inj rest
  rw [withId_carries_iff visible first, getAll_copied, if_neg (by decide)]

end Responses

/-! ## Whole requests -/

/-- If the request goes to the backend and the answer comes in time, the answer
brings no identifier of its own. -/
def BackendSilentOnId (world : World) (config : Config) (remoteAddr : SocketAddr)
    (isTls : Bool) (incoming : Request) : Prop :=
  ∀ backendUrl pathToSend connectTimeout readTimeout headerUp s,
    selected world config remoteAddr isTls incoming =
        some (.ok (.reverseProxy backendUrl pathToSend connectTimeout readTimeout headerUp), s) →
      ∀ status headers body,
        timeout (readTimeout.getD 30) (backendFuture world.backendExchange) =
            some (.ok (status, headers, body)) →
          Multimap.getAll headers .xRequestId = []

theorem conclude_requestId (access : AccessLog) (sent : Option Request)
    (response : Except Str Response) :
    (conclude access sent response).access.requestId = access.requestId := by
  cases response <;> rfl

theorem conclude_response (access : AccessLog) (sent : Option Request)
    (response : Except Str Response) : (conclude access sent response).response = response := by
  cases response <;> rfl

theorem conclude_sentToBackend (access : AccessLog) (sent : Option Request)
    (response : Except Str Response) : (conclude access sent response).sentToBackend = sent := by
  cases response <;> rfl

/-- An action is concluded once, with or without a backend request. -/
theorem executeAction_concludes {parser : UriParser} {world : World} {ctx : AuthCtx}
    {access : AccessLog} {s : Pipeline} {action : ActionResult} {outcome : Outcome}
    (run : executeAction parser world ctx access s action = some outcome) :
    ∃ sent response, outcome = conclude access sent response := by
  cases action with
  | redirect status url => exact ⟨_, _, (Option.some.inj run).symm⟩
  | respond status body => exact ⟨_, _, (Option.some.inj run).symm⟩
  | authDenied status wwwAuthenticate => exact ⟨_, _, (Option.some.inj run).symm⟩
  | reverseProxy backendUrl pathToSend connectTimeout readTimeout headerUp =>
      rw [executeAction] at run
      cases target : backendUri parser backendUrl pathToSend s.req with
      | error e =>
          rw [target] at run
          exact ⟨_, _, (Option.some.inj run).symm⟩
      | ok newUri =>
          rw [target] at run
          obtain ⟨sendReq, _, rfl⟩ := Option.map_eq_some_iff.mp run
          exact ⟨_, _, rfl⟩

theorem proxy_concludes {parser : UriParser} {world : World} {config : Config}
    {remoteAddr : SocketAddr} {isTls : Bool} {incoming : Request} {outcome : Outcome}
    (run : proxy parser world config remoteAddr isTls incoming = some outcome) :
    ∃ sent response,
      outcome = conclude (openLog world config remoteAddr isTls incoming) sent response := by
  rcases proxy_cases run with ⟨_, message, rfl⟩ | ⟨e, s, _, rfl⟩ | ⟨action, s, _, executed⟩
  · exact ⟨_, _, rfl⟩
  · exact ⟨_, _, rfl⟩
  · exact executeAction_concludes executed

theorem backendResponse_carries_iff {id : Str} (visible : VisibleText id) {exchange : Exchange}
    {readTimeout : Option UInt64} {response : Response}
    (built : backendResponse exchange readTimeout id = .ok response) :
    CarriesOnce response.headers id ↔
      ∀ status headers body,
        timeout (readTimeout.getD 30) (backendFuture exchange) =
            some (.ok (status, headers, body)) →
          Multimap.getAll headers .xRequestId = [] := by
  unfold backendResponse at built
  cases answer : timeout (readTimeout.getD 30) (backendFuture exchange) with
  | none =>
      rw [answer] at built
      obtain rfl := Except.ok.inj built
      exact ⟨fun _ _ _ _ late => (by cases late), fun _ => errorResponse_carries visible _ _⟩
  | some result =>
      cases result with
      | error e =>
          rw [answer] at built
          obtain rfl := Except.ok.inj built
          exact ⟨fun _ _ _ _ failed => (by cases failed),
            fun _ => errorResponse_carries visible _ _⟩
      | ok head =>
          obtain ⟨status, headers, body⟩ := head
          rw [answer] at built
          rw [proxied_carries_iff visible built]
          constructor
          · intro absent status' headers' body' same
            cases same
            exact absent
          · intro silent
            exact silent status headers body rfl

theorem silent_of_unproxied {world : World} {config : Config} {remoteAddr : SocketAddr}
    {isTls : Bool} {incoming : Request}
    (unproxied : ∀ backendUrl pathToSend connectTimeout readTimeout headerUp s,
      selected world config remoteAddr isTls incoming ≠
        some (.ok (.reverseProxy backendUrl pathToSend connectTimeout readTimeout headerUp), s)) :
    BackendSilentOnId world config remoteAddr isTls incoming :=
  fun _ _ _ _ _ _ proxied => absurd proxied (unproxied _ _ _ _ _ _)

/-- The identifier in the log is the one directives left, and a response carries
it exactly once if and only if the forwarded backend answer has none. -/
theorem correlation_id_iff {parser : UriParser} {world : World} {config : Config}
    {remoteAddr : SocketAddr} {isTls : Bool} {incoming : Request} {outcome : Outcome}
    {response : Response}
    (run : proxy parser world config remoteAddr isTls incoming = some outcome)
    (success : outcome.response = .ok response) :
    outcome.access.requestId = loggedId world config remoteAddr isTls incoming ∧
      (CarriesOnce response.headers outcome.access.requestId ↔
        BackendSilentOnId world config remoteAddr isTls incoming) := by
  have visible := loggedId_visible world config remoteAddr isTls incoming
  have logged : outcome.access.requestId = loggedId world config remoteAddr isTls incoming := by
    obtain ⟨sent, concluded, rfl⟩ := proxy_concludes run
    exact conclude_requestId _ _ _
  refine ⟨logged, ?_⟩
  rw [logged]
  rcases proxy_cases run with ⟨chosen, message, rfl⟩ | ⟨e, s, chosen, rfl⟩ |
    ⟨action, s, chosen, executed⟩
  · obtain rfl := Except.ok.inj success
    refine ⟨fun _ => ?_, fun _ => errorResponse_carries visible _ _⟩
    exact silent_of_unproxied (by simp [chosen])
  · obtain rfl := Except.ok.inj success
    refine ⟨fun _ => ?_, fun _ => errorResponse_carries visible _ _⟩
    exact silent_of_unproxied (by simp [chosen])
  · cases action with
    | redirect status url =>
        obtain rfl := Option.some.inj executed
        rw [conclude_response] at success
        refine ⟨fun _ => ?_, fun _ => redirect_carries visible success⟩
        exact silent_of_unproxied (by simp [chosen])
    | respond status body =>
        obtain rfl := Option.some.inj executed
        rw [conclude_response] at success
        refine ⟨fun _ => ?_, fun _ => respond_carries visible success⟩
        exact silent_of_unproxied (by simp [chosen])
    | authDenied status wwwAuthenticate =>
        obtain rfl := Option.some.inj executed
        rw [conclude_response] at success
        refine ⟨fun _ => ?_, fun _ => authDenied_carries visible success⟩
        exact silent_of_unproxied (by simp [chosen])
    | reverseProxy backendUrl pathToSend connectTimeout readTimeout headerUp =>
        rw [executeAction] at executed
        cases target : backendUri parser backendUrl pathToSend s.req with
        | error e =>
            rw [target] at executed
            obtain rfl := Option.some.inj executed
            cases success
        | ok newUri =>
            rw [target] at executed
            obtain ⟨sendReq, _, rfl⟩ := Option.map_eq_some_iff.mp executed
            rw [conclude_response] at success
            rw [backendResponse_carries_iff visible success]
            constructor
            · intro silent backendUrl' path' connect' read' headerUp' s' proxied
              rw [chosen] at proxied
              cases proxied
              exact silent
            · intro silent
              exact silent _ _ _ _ _ _ chosen

/-! ## A backend with its own identifier -/

/-- `a` is proxied to `http://b`. -/
def proxyingConfig : Config :=
  ⟨(∅ : AList fun _ : Str => SiteConfig).insert ['a']
    ⟨['a'], [.reverseProxy "http://b".toList none none []], none⟩⟩

/-- The backend answers at once with `X-Request-ID: b`. -/
def identifyingWorld : World :=
  { quietWorld with
    backendExchange := .response 0 .ok [(.xRequestId, ⟨utf8 ['b'], by decide⟩)] (.finished 0) }

theorem proxied_response_has_two_ids :
    ((proxy plainUriParser identifyingWorld proxyingConfig exampleAddr false
        exampleRequest).map fun outcome =>
      outcome.response.map fun response =>
        (Multimap.getAll response.headers .xRequestId).map HeaderValue.toStr) =
      some (.ok [some ['b'], some exampleUuid.text]) := by
  rfl

/-- Without an answer the error page has the identifier once. -/
theorem correlation_id_iff_silent_backend :
    ∃ outcome response,
      proxy plainUriParser quietWorld proxyingConfig
          exampleAddr false exampleRequest = some outcome ∧
        outcome.response = .ok response ∧
        CarriesOnce response.headers outcome.access.requestId := by
  refine ⟨_, _, rfl, rfl, ?_⟩
  apply (correlation_id_iff (rfl : proxy plainUriParser
    quietWorld proxyingConfig exampleAddr false
    exampleRequest = some _) rfl).2.mpr
  intro _ _ _ _ _ _ _ _ _ _ answer
  cases answer

end TinyProxy
