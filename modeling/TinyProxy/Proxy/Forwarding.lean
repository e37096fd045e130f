import TinyProxy.Http.Display
import TinyProxy.Proxy.Subrequest

/-!
# What the backend is told

Two forwarding headers are always written.  `X-Forwarded-Host` is only written
when there is a `Host`, and of the headers that belong to one connection only
`Connection` is taken out of a request; all of them are taken out of a response.
-/

set_option autoImplicit false

namespace TinyProxy

open Rust Http

/-! ## The backend's headers -/

theorem proto_visible (isTls : Bool) : VisibleText (protoText isTls) := by
  cases isTls <;> decide

section Forwarded
variable {ctx : AuthCtx} {newUri : Uri} {req : Request}

/-- The updates of the forwarded headers in the order of the source. -/
theorem forwardedRequest_headers : (forwardedRequest ctx newUri req).headers =
    Multimap.remove (Multimap.remove (put (put (copyHeader req.headers .host .xForwardedHost
      (putHost newUri.authority (Multimap.remove req.headers .host))) .xForwardedProto
        (protoText ctx.isTls)) .xForwardedFor ctx.remoteAddr.ip.display) .connection)
      .acceptEncoding := rfl

theorem forwarded_peer {v : HeaderValue}
    (legal : HeaderValue.fromStr ctx.remoteAddr.ip.display = some v) :
    Multimap.getAll (forwardedRequest ctx newUri req).headers .xForwardedFor = [v] := by
  rw [forwardedRequest_headers, Multimap.getAll_remove, if_neg (by decide),
    Multimap.getAll_remove, if_neg (by decide), getAll_put legal, if_pos rfl]

theorem forwarded_proto {v : HeaderValue}
    (legal : HeaderValue.fromStr (protoText ctx.isTls) = some v) :
    Multimap.getAll (forwardedRequest ctx newUri req).headers .xForwardedProto = [v] := by
  rw [forwardedRequest_headers, Multimap.getAll_remove, if_neg (by decide),
    Multimap.getAll_remove, if_neg (by decide), getAll_put_other (by decide), getAll_put legal,
    if_pos rfl]

/-- Without a `Host`, what the request has under `X-Forwarded-Host` stays. -/
theorem forwarded_host :
    Multimap.getAll (forwardedRequest ctx newUri req).headers .xForwardedHost =
      if (Multimap.get req.headers .host).isSome = true then
        (Multimap.get req.headers .host).toList
      else Multimap.getAll req.headers .xForwardedHost := by
  rw [forwardedRequest_headers, Multimap.getAll_remove, if_neg (by decide),
    Multimap.getAll_remove, if_neg (by decide), getAll_put_other (by decide),
    getAll_put_other (by decide), getAll_copyHeader]
  by_cases sent : (Multimap.get req.headers .host).isSome = true
  · rw [if_pos ⟨rfl, sent⟩, if_pos sent]
  · rw [if_neg fun both => sent both.2, if_neg sent, getAll_putHost_other (by decide),
      Multimap.getAll_remove, if_neg (by decide)]

/-- The headers that forwarding writes or removes. -/
def isForwardingHeader (n : HeaderName) : Bool :=
  n = .host || n = .xForwardedHost || n = .xForwardedProto || n = .xForwardedFor ||
    n = .connection || n = .acceptEncoding

theorem forwarded_other {n : HeaderName} (other : isForwardingHeader n = false) :
    Multimap.getAll (forwardedRequest ctx newUri req).headers n =
      Multimap.getAll req.headers n := by
  simp only [isForwardingHeader, Bool.or_eq_false_iff, decide_eq_false_iff_not] at other
  obtain ⟨⟨⟨⟨⟨notHost, notForwarded⟩, notProto⟩, notFor⟩, notConnection⟩, notEncoding⟩ := other
  rw [forwardedRequest_headers, Multimap.getAll_remove, if_neg (Ne.symm notEncoding),
    Multimap.getAll_remove, if_neg (Ne.symm notConnection), getAll_put_other (Ne.symm notFor),
    getAll_put_other (Ne.symm notProto), getAll_copyHeader_other (Ne.symm notForwarded),
    getAll_putHost_other (Ne.symm notHost),
    Multimap.getAll_remove, if_neg (Ne.symm notHost)]

theorem forwarded_connection :
    Multimap.getAll (forwardedRequest ctx newUri req).headers .connection = [] := by
  rw [forwardedRequest_headers, Multimap.getAll_remove, if_neg (by decide),
    Multimap.getAll_remove, if_pos rfl]

end Forwarded

/-! ## Headers that the directives leave -/

/-- As long as no directive touches the header, the request and those that were
authorized on the way have what the first one had. -/
def Untouched (n : HeaderName) (req : Request) (s : Pipeline) : Prop :=
  (∀ event ∈ s.log, event.Leaves n) →
    Multimap.getAll s.req.headers n = Multimap.getAll req.headers n ∧
    ∀ position cfg before answer, Event.auth position cfg before answer ∈ s.log →
      Multimap.getAll before.headers n = Multimap.getAll req.headers n

section Runs
variable {world : World} {ctx : AuthCtx} {req : Request} {n : HeaderName}

/-- What one step adds: the header is as before unless the event touches it. -/
theorem untouched_snoc {s t : Pipeline} {event : Event} (log : t.log = s.log ++ [event])
    (left : event.Leaves n →
      Multimap.getAll t.req.headers n = Multimap.getAll s.req.headers n)
    (seen : event.Leaves n → ∀ position cfg before answer,
      event = .auth position cfg before answer →
        Multimap.getAll before.headers n = Multimap.getAll s.req.headers n)
    (untouched : Untouched n req s) : Untouched n req t := by
  intro leaves
  rw [log, List.forall_mem_append, List.forall_mem_singleton] at leaves
  obtain ⟨same, others⟩ := untouched leaves.1
  refine ⟨(left leaves.2).trans same, fun position cfg before answer member => ?_⟩
  rw [log, List.mem_append, List.mem_singleton] at member
  rcases member with past | last
  · exact others position cfg before answer past
  · exact (seen leaves.2 position cfg before answer last.symm).trans same

theorem untouched_step {s t : Pipeline} (step : Step world ctx s t)
    (untouched : Untouched n req s) : Untouched n req t := by
  cases step with
  | header step =>
      obtain ⟨log, _, others⟩ := stepHeader_spec step
      refine untouched_snoc log (fun unnamed => others n unnamed) ?_ untouched
      intro _ _ _ _ _ same
      cases same
  | auth position cfg s =>
      refine untouched_snoc rfl (fun unlisted => ?_) ?_ untouched
      · rw [getAll_afterAuth, if_neg unlisted]
      · intro unlisted _ _ before _ same
        obtain ⟨_, _, rfl, _⟩ := Event.auth.inj same
        exact (Multimap.getAll_removeAll cfg.responseHeaders n s.req.headers).trans
          (if_neg unlisted)
  | action position s =>
      refine untouched_snoc rfl (fun _ => rfl) ?_ untouched
      intro _ _ _ _ _ same
      cases same

theorem processDirectives_untouched {directives : List Directive} {path : Str}
    {result : Except Str ActionResult} {s : Pipeline}
    (run : processDirectives world ctx directives path (.initial req) = some (result, s)) :
    Untouched n req s :=
  run_invariant (fun _ _ step => untouched_step step) run fun _ =>
    ⟨rfl, fun _ _ _ _ member => absurd member List.not_mem_nil⟩

theorem getAll_ensureRequestId (uuid : Uuid) (incoming : Request)
    (other : HeaderName.xRequestId ≠ n) :
    Multimap.getAll (ensureRequestId uuid incoming).2.headers n =
      Multimap.getAll incoming.headers n := by
  unfold ensureRequestId
  cases (Multimap.get incoming.headers .xRequestId).bind HeaderValue.toStr with
  | none => exact getAll_put_other other
  | some id => rfl

/-- The same for what is selected for a client's request. -/
theorem selected_untouched {config : Config} {remoteAddr : SocketAddr} {isTls : Bool}
    {incoming : Request} {result : Except Str ActionResult} {s : Pipeline}
    (run : selected world config remoteAddr isTls incoming = some (result, s))
    (other : HeaderName.xRequestId ≠ n) : Untouched n incoming s := by
  obtain ⟨site, _, run⟩ := Option.bind_eq_some_iff.mp run
  intro leaves
  obtain ⟨same, others⟩ := processDirectives_untouched run leaves
  have start := getAll_ensureRequestId (world.uuids 0) incoming other
  exact ⟨same.trans start, fun position cfg before answer member =>
    (others position cfg before answer member).trans start⟩

end Runs

/-! ## Forwarding headers -/

def forwardingNames : List HeaderName := [.xForwardedFor, .xForwardedHost, .xForwardedProto]

/-- The three headers say who the client is and which host it asked for, and an
authorization service is told the same about a request with this `Host`, unless it is
told what the client says. -/
structure ProxyControlled (ctx : AuthCtx) (client forwarded : Request) : Prop where
  peer : ∃ v, HeaderValue.fromStr ctx.remoteAddr.ip.display = some v ∧
    Multimap.getAll forwarded.headers .xForwardedFor = [v]
  proto : ∃ v, HeaderValue.fromStr (protoText ctx.isTls) = some v ∧
    Multimap.getAll forwarded.headers .xForwardedProto = [v]
  host : Multimap.getAll forwarded.headers .xForwardedHost =
    (Multimap.get client.headers .host).toList
  agrees : ∀ before cfg sub, Multimap.get before.headers .host = Multimap.get client.headers .host →
    (∀ n ∈ forwardingNames, n ∉ cfg.requestHeaders) → buildAuthRequest ctx before cfg = .ok sub →
      ∀ n ∈ forwardingNames, Multimap.getAll sub.headers n = Multimap.getAll forwarded.headers n

/-- The request has the client's `Host`, or none and the right `X-Forwarded-Host`. -/
structure HostStands (client req : Request) : Prop where
  kept : (Multimap.get req.headers .host).isSome = true →
    Multimap.get req.headers .host = Multimap.get client.headers .host
  missing : Multimap.get req.headers .host = none →
    Multimap.getAll req.headers .xForwardedHost = (Multimap.get client.headers .host).toList

section Controlled
variable {ctx : AuthCtx} {client req before sub : Request} {newUri : Uri}
variable {cfg : ForwardAuthConfig}

theorem subrequest_peer {v : HeaderValue} (built : buildAuthRequest ctx before cfg = .ok sub)
    (legal : HeaderValue.fromStr ctx.remoteAddr.ip.display = some v) :
    Multimap.getAll sub.headers .xForwardedFor = [v] := by
  rw [buildAuthRequest_eq] at built
  obtain rfl := Except.ok.inj built
  rw [getAll_copyHeader_other (by decide), getAll_put_other (by decide),
    getAll_copyHeader_other (by decide), getAll_put legal, if_pos rfl]

theorem subrequest_proto {v : HeaderValue} (built : buildAuthRequest ctx before cfg = .ok sub)
    (legal : HeaderValue.fromStr (protoText ctx.isTls) = some v) :
    Multimap.getAll sub.headers .xForwardedProto = [v] := by
  rw [buildAuthRequest_eq] at built
  obtain rfl := Except.ok.inj built
  rw [getAll_copyHeader_other (by decide), getAll_put legal, if_pos rfl]

theorem subrequest_host (built : buildAuthRequest ctx before cfg = .ok sub)
    (unlisted : .xForwardedHost ∉ cfg.requestHeaders) :
    Multimap.getAll sub.headers .xForwardedHost = (Multimap.get before.headers .host).toList := by
  rw [buildAuthRequest_eq] at built
  obtain rfl := Except.ok.inj built
  rw [getAll_copyHeader_other (by decide), getAll_put_other (by decide), getAll_copyHeader]
  by_cases sent : (Multimap.get before.headers .host).isSome = true
  · rw [if_pos ⟨rfl, sent⟩]
  · rw [if_neg fun both => sent both.2, getAll_put_other (by decide), getAll_put_other (by decide),
      getAll_put_other (by decide), getAll_putHost_other (by decide), getAll_copied_client,
      copiedValues, if_neg unlisted]
    cases given : Multimap.get before.headers .host with
    | none => rfl
    | some v => exact absurd (given ▸ rfl) sent

theorem forwarded_host_iff :
    Multimap.getAll (forwardedRequest ctx newUri req).headers .xForwardedHost =
      (Multimap.get client.headers .host).toList ↔ HostStands client req := by
  rw [forwarded_host]
  cases sent : Multimap.get req.headers .host with
  | none =>
      rw [if_neg (by simp)]
      exact ⟨fun same => ⟨fun isSome => by simp [sent] at isSome, fun _ => same⟩,
        fun stands => stands.missing sent⟩
  | some v =>
      rw [if_pos Option.isSome_some, ← sent]
      refine ⟨fun same => ⟨fun _ => ?_, fun absent => by simp [sent] at absent⟩,
        fun stands => congrArg Option.toList (stands.kept (by simp [sent]))⟩
      simpa only [Option.head?_toList] using congrArg List.head? same

theorem proxyControlled_iff :
    ProxyControlled ctx client (forwardedRequest ctx newUri req) ↔ HostStands client req := by
  constructor
  · exact fun controlled => forwarded_host_iff.mp controlled.host
  · intro stands
    obtain ⟨peer, peerLegal, _⟩ := HeaderValue.ofVisible (ip_visible ctx.remoteAddr.ip)
    obtain ⟨proto, protoLegal, _⟩ := HeaderValue.ofVisible (proto_visible ctx.isTls)
    have host := (@forwarded_host_iff ctx client req newUri).mpr stands
    refine ⟨⟨peer, peerLegal, forwarded_peer peerLegal⟩,
      ⟨proto, protoLegal, forwarded_proto protoLegal⟩, host, ?_⟩
    intro before cfg sub sameHost unlisted built n member
    rcases List.mem_cons.mp member with rfl | member
    · rw [subrequest_peer built peerLegal, forwarded_peer peerLegal]
    rcases List.mem_cons.mp member with rfl | member
    · rw [subrequest_host built (unlisted _ (by simp [forwardingNames])), host, sameHost]
    · obtain rfl := List.mem_singleton.mp member
      rw [subrequest_proto built protoLegal, forwarded_proto protoLegal]

end Controlled

/-- The context in which the directives of a client's request are run. -/
def servedCtx (world : World) (remoteAddr : SocketAddr) (isTls : Bool) (incoming : Request) :
    AuthCtx :=
  authCtx (ensureRequestId (world.uuids 0) incoming).2 remoteAddr isTls

section Served
variable {world : World} {config : Config} {remoteAddr : SocketAddr} {isTls : Bool}
variable {incoming : Request} {backendUrl pathToSend : Str}
variable {connectTimeout readTimeout : Option UInt64} {headerUp : List HeaderDirective}
variable {s : Pipeline}

theorem forwarding_headers_iff
    (run : selected world config remoteAddr isTls incoming =
      some (.ok (.reverseProxy backendUrl pathToSend connectTimeout readTimeout headerUp), s))
    (newUri : Uri) :
    (ProxyControlled (servedCtx world remoteAddr isTls incoming) incoming
        (forwardedRequest (servedCtx world remoteAddr isTls incoming) newUri s.req) ↔
      HostStands incoming s.req) ∧
    ((∀ event ∈ s.log, event.Leaves .host) → (∀ event ∈ s.log, event.Leaves .xForwardedHost) →
      (∀ position cfg before answer, Event.auth position cfg before answer ∈ s.log →
        Multimap.get before.headers .host = Multimap.get incoming.headers .host) ∧
      (ProxyControlled (servedCtx world remoteAddr isTls incoming) incoming
          (forwardedRequest (servedCtx world remoteAddr isTls incoming) newUri s.req) ↔
        (Multimap.get incoming.headers .host).isSome = true ∨
          Multimap.getAll incoming.headers .xForwardedHost = [])) := by
  refine ⟨proxyControlled_iff, fun leavesHost leavesForwarded => ?_⟩
  obtain ⟨host, others⟩ := selected_untouched run (by decide) leavesHost
  obtain ⟨forwarded, _⟩ := selected_untouched run (by decide) leavesForwarded
  have sameHost : Multimap.get s.req.headers .host = Multimap.get incoming.headers .host :=
    congrArg List.head? host
  refine ⟨fun position cfg before answer member =>
    congrArg List.head? (others position cfg before answer member), ?_⟩
  rw [proxyControlled_iff]
  constructor
  · intro stands
    cases sent : Multimap.get incoming.headers .host with
    | some v => exact Or.inl rfl
    | none =>
        have missing := stands.missing (sameHost.trans sent)
        rw [forwarded, sent] at missing
        exact Or.inr missing
  · intro claimed
    refine ⟨fun _ => sameHost, fun absent => ?_⟩
    rw [sameHost] at absent
    have silent := claimed.resolve_left (by simp [absent])
    rw [forwarded, silent, absent]
    rfl

end Served

/-! ## Headers of one connection -/

/-- Headers of one connection do not get through, the others of an answer do. -/
structure HopSafe (ctx : AuthCtx) (newUri : Uri) (readTimeout : Option UInt64) (req : Request) :
    Prop where
  request : ∀ n, isHopHeader n = true →
    Multimap.getAll (forwardedRequest ctx newUri req).headers n = []
  response : ∀ exchange requestId status headers body response,
    timeout (readTimeout.getD 30) (backendFuture exchange) = some (.ok (status, headers, body)) →
    backendResponse exchange readTimeout requestId = .ok response →
      (∀ n, isHopHeader n = true ∨ n = .contentLength →
        Multimap.getAll response.headers n = []) ∧
      ∀ n, isHopHeader n = false → n ≠ .contentLength → n ≠ .xRequestId →
        Multimap.getAll response.headers n = Multimap.getAll headers n

/-- Of the headers of one connection the request has `Connection` at most. -/
def ConnectionOnly (req : Request) : Prop :=
  ∀ n, isHopHeader n = true → n ≠ .connection → Multimap.getAll req.headers n = []

theorem hop_cases {n : HeaderName} (hop : isHopHeader n = true) :
    n = .connection ∨ isForwardingHeader n = false ∧ n ≠ .xRequestId := by
  simp only [isHopHeader, Bool.or_eq_true, decide_eq_true_eq, or_assoc] at hop
  rcases hop with rfl | rfl | rfl | rfl | rfl | rfl
  · exact Or.inl rfl
  all_goals exact Or.inr (by decide)

theorem getAll_proxiedResponse {status : StatusCode} {headers : HeaderMap} {body : Body}
    {requestId : Str} {response : Response} {n : HeaderName}
    (built : proxiedResponse status headers body requestId = .ok response)
    (other : HeaderName.xRequestId ≠ n) :
    Multimap.getAll response.headers n =
      if isHopHeader n = true ∨ n = .contentLength then [] else Multimap.getAll headers n := by
  obtain ⟨added, first, rest⟩ := bind_ok built
  obtain rfl := Except.ok.inj rest
  rw [getAll_withHeader first other, getAll_copied]

theorem hopSafe_iff {ctx : AuthCtx} {newUri : Uri} {readTimeout : Option UInt64}
    {req : Request} : HopSafe ctx newUri readTimeout req ↔ ConnectionOnly req := by
  constructor
  · intro safe n hop notConnection
    obtain ⟨other, _⟩ := (hop_cases hop).resolve_left notConnection
    rw [← @forwarded_other ctx newUri req n other]
    exact safe.request n hop
  · intro only
    refine ⟨fun n hop => ?_, ?_⟩
    · rcases hop_cases hop with rfl | ⟨other, _⟩
      · exact forwarded_connection
      · rw [forwarded_other other]
        exact only n hop fun same => by simp [same, isForwardingHeader] at other
    · intro exchange requestId status headers body response answered built
      rw [backendResponse, answered] at built
      refine ⟨fun n dropped => ?_, fun n notHop notLength notId => ?_⟩
      · have notId : HeaderName.xRequestId ≠ n := by
          rintro rfl
          exact absurd dropped (by decide)
        rw [getAll_proxiedResponse built notId, if_pos dropped]
      · rw [getAll_proxiedResponse built (Ne.symm notId), if_neg]
        rintro (hop | length)
        · exact Bool.false_ne_true (notHop.symm.trans hop)
        · exact notLength length

section Served
variable {world : World} {config : Config} {remoteAddr : SocketAddr} {isTls : Bool}
variable {incoming : Request} {backendUrl pathToSend : Str}
variable {connectTimeout readTimeout : Option UInt64} {headerUp : List HeaderDirective}
variable {s : Pipeline}

/-- What a request is proxied with crosses safely exactly when it has, of the headers of
one connection, `Connection` at most; the directives apart, when the client sends no other. -/
theorem hop_headers_iff
    (run : selected world config remoteAddr isTls incoming =
      some (.ok (.reverseProxy backendUrl pathToSend connectTimeout readTimeout headerUp), s))
    (newUri : Uri) :
    (HopSafe (servedCtx world remoteAddr isTls incoming) newUri readTimeout s.req ↔
      ConnectionOnly s.req) ∧
    ((∀ n, isHopHeader n = true → ∀ event ∈ s.log, event.Leaves n) →
      (HopSafe (servedCtx world remoteAddr isTls incoming) newUri readTimeout s.req ↔
        ConnectionOnly incoming)) := by
  refine ⟨hopSafe_iff, fun leaves => hopSafe_iff.trans ?_⟩
  have same : ∀ n, isHopHeader n = true → n ≠ .connection →
      Multimap.getAll s.req.headers n = Multimap.getAll incoming.headers n := by
    intro n hop notConnection
    obtain ⟨_, notId⟩ := (hop_cases hop).resolve_left notConnection
    exact (selected_untouched run (Ne.symm notId) (leaves n hop)).1
  exact ⟨fun only n hop notConnection => same n hop notConnection ▸ only n hop notConnection,
    fun only n hop notConnection => same n hop notConnection ▸ only n hop notConnection⟩

end Served

/-! ## Examples -/

/-- What a request without a `Host` gets to. -/
def localConfig : Config :=
  ⟨(∅ : AList fun _ : Str => SiteConfig).insert "localhost:80".toList
    ⟨"localhost:80".toList, [.reverseProxy "http://b".toList none none []], none⟩⟩

def backendRoot : Uri := ⟨some "http".toList, some ['b'], some ['/']⟩

/-- After a site with nothing but `reverse_proxy`. -/
def passedThrough (incoming : Request) : Pipeline :=
  ⟨(ensureRequestId exampleUuid incoming).2, 1, 0, [.action [0]]⟩

theorem passedThrough_leaves (incoming : Request) (n : HeaderName) :
    ∀ event ∈ (passedThrough incoming).log, event.Leaves n :=
  List.forall_mem_singleton.mpr trivial

theorem forwarding_headers_iff_with_host :
    selected quietWorld proxyingConfig exampleAddr false exampleRequest =
        some (.ok (.reverseProxy "http://b".toList ['/'] none none []),
          passedThrough exampleRequest) ∧
      ProxyControlled (servedCtx quietWorld exampleAddr false exampleRequest) exampleRequest
        (forwardedRequest (servedCtx quietWorld exampleAddr false exampleRequest) backendRoot
          (passedThrough exampleRequest).req) := by
  have run : selected quietWorld proxyingConfig exampleAddr false exampleRequest =
      some (.ok (.reverseProxy "http://b".toList ['/'] none none []),
        passedThrough exampleRequest) := rfl
  exact ⟨run, (((forwarding_headers_iff run backendRoot).2 (passedThrough_leaves _ _)
    (passedThrough_leaves _ _)).2).mpr (Or.inl rfl)⟩

/-- Without a `Host` the backend is told the host that the client claims. -/
theorem claimed_host_is_forwarded :
    selected quietWorld localConfig exampleAddr false hostlessRequest =
        some (.ok (.reverseProxy "http://b".toList ['/'] none none []),
          passedThrough hostlessRequest) ∧
      Multimap.getAll (forwardedRequest (servedCtx quietWorld exampleAddr false hostlessRequest)
        backendRoot (passedThrough hostlessRequest).req).headers .xForwardedHost = [evilHost] ∧
      ¬ ProxyControlled (servedCtx quietWorld exampleAddr false hostlessRequest) hostlessRequest
        (forwardedRequest (servedCtx quietWorld exampleAddr false hostlessRequest) backendRoot
          (passedThrough hostlessRequest).req) := by
  refine ⟨rfl, rfl, fun controlled => ?_⟩
  cases controlled.host

theorem hop_headers_iff_example :
    HopSafe (servedCtx quietWorld exampleAddr false exampleRequest) backendRoot none
      (passedThrough exampleRequest).req := by
  have run : selected quietWorld proxyingConfig exampleAddr false exampleRequest =
      some (.ok (.reverseProxy "http://b".toList ['/'] none none []),
        passedThrough exampleRequest) := rfl
  refine ((hop_headers_iff run backendRoot).2 fun n _ => passedThrough_leaves _ n).mpr ?_
  intro n hop notConnection
  have absent : n ≠ .host := by
    rintro rfl
    cases hop
  simp [exampleRequest, Multimap.getAll, Ne.symm absent]

def trailersValue : HeaderValue := ⟨utf8 "trailers".toList, by decide⟩

/-- `exampleRequest` with `TE` and `Proxy-Authorization`. -/
def hopRequest : Request :=
  { exampleRequest with
    headers := exampleRequest.headers ++
      [(.te, trailersValue), (.proxyAuthorization, evilHost)] }

/-- Both headers of the connection reach the backend. -/
theorem hop_headers_are_forwarded :
    selected quietWorld proxyingConfig exampleAddr false hopRequest =
        some (.ok (.reverseProxy "http://b".toList ['/'] none none []),
          passedThrough hopRequest) ∧
      Multimap.getAll (forwardedRequest (servedCtx quietWorld exampleAddr false hopRequest)
        backendRoot (passedThrough hopRequest).req).headers .te = [trailersValue] ∧
      Multimap.getAll (forwardedRequest (servedCtx quietWorld exampleAddr false hopRequest)
        backendRoot (passedThrough hopRequest).req).headers .proxyAuthorization = [evilHost] ∧
      ¬ HopSafe (servedCtx quietWorld exampleAddr false hopRequest) backendRoot none
        (passedThrough hopRequest).req := by
  refine ⟨rfl, rfl, rfl, fun safe => ?_⟩
  cases safe.request .te rfl

end TinyProxy
