import TinyProxy.Proxy.Identity

/-!
# What the authorization service is told

Listed client headers are copied first and the proxy's own headers are written
over them.  A header that the proxy has no value for is not written, and what
the client sent under that name stays.
-/

set_option autoImplicit false

namespace TinyProxy

open Rust Http

/-! ## Single headers -/

theorem getAll_put {headers : HeaderMap} {name : HeaderName} {value : Str} {v : HeaderValue}
    (legal : HeaderValue.fromStr value = some v) (n : HeaderName) :
    Multimap.getAll (put headers name value) n =
      if name = n then [v] else Multimap.getAll headers n := by
  rw [put, legal]
  exact Multimap.getAll_insert headers name v n

theorem getAll_put_other {headers : HeaderMap} {name n : HeaderName} {value : Str}
    (other : name ≠ n) :
    Multimap.getAll (put headers name value) n = Multimap.getAll headers n := by
  rw [put]
  cases HeaderValue.fromStr value with
  | none => rfl
  | some v => exact (Multimap.getAll_insert headers name v n).trans (if_neg other)

theorem getAll_copyHeader (source : HeaderMap) (name target : HeaderName) (headers : HeaderMap)
    (n : HeaderName) :
    Multimap.getAll (copyHeader source name target headers) n =
      if target = n ∧ (Multimap.get source name).isSome = true then
        (Multimap.get source name).toList
      else Multimap.getAll headers n := by
  rw [copyHeader]
  cases Multimap.get source name with
  | none => simp
  | some v => simp

theorem getAll_copyHeader_other {source : HeaderMap} {name target : HeaderName}
    {headers : HeaderMap} {n : HeaderName} (other : target ≠ n) :
    Multimap.getAll (copyHeader source name target headers) n = Multimap.getAll headers n :=
  (getAll_copyHeader source name target headers n).trans (if_neg fun both => other both.1)

/-- The header that the endpoint gives, if it has an authority. -/
def putHost (authority : Option Str) (headers : HeaderMap) : HeaderMap :=
  match authority with
  | some authority => put headers .host authority
  | none => headers

theorem getAll_putHost {authority : Option Str} {headers : HeaderMap}
    (legal : ∀ text, authority = some text → (HeaderValue.fromStr text).isSome = true)
    (n : HeaderName) :
    Multimap.getAll (putHost authority headers) n =
      if n = .host ∧ authority.isSome = true then (authority.bind HeaderValue.fromStr).toList
      else Multimap.getAll headers n := by
  cases authority with
  | none => simp [putHost]
  | some text =>
      obtain ⟨v, made⟩ := Option.isSome_iff_exists.mp (legal text rfl)
      rw [putHost, getAll_put made]
      simp [made, eq_comm]

theorem getAll_putHost_other {authority : Option Str} {headers : HeaderMap} {n : HeaderName}
    (other : HeaderName.host ≠ n) :
    Multimap.getAll (putHost authority headers) n = Multimap.getAll headers n := by
  cases authority with
  | none => rfl
  | some text => exact getAll_put_other other

/-- The values copied from the client, before anything is written over them. -/
def copiedValues (req : Request) (cfg : ForwardAuthConfig) (n : HeaderName) : List HeaderValue :=
  if n ∈ cfg.requestHeaders then (Multimap.get req.headers n).toList else []

theorem getAll_copied_client (req : Request) (cfg : ForwardAuthConfig) (n : HeaderName) :
    Multimap.getAll (Multimap.copyFirst req.headers cfg.requestHeaders .empty) n =
      copiedValues req cfg n := by
  rw [Multimap.getAll_copyFirst, copiedValues]
  by_cases listed : n ∈ cfg.requestHeaders
  · rw [if_pos listed, if_pos listed]
    cases Multimap.get req.headers n <;> rfl
  · rw [if_neg listed, if_neg listed]
    rfl

/-! ## What the service should be told -/

def protoText (isTls : Bool) : Str := if isTls then "https".toList else "http".toList

/-- The headers that the proxy has to find a value for. -/
def systemTexts (ctx : AuthCtx) (req : Request) (cfg : ForwardAuthConfig) :
    List (HeaderName × Str) :=
  (cfg.endpoint.authority.map fun authority => (.host, authority)).toList ++
    [(.xOriginalUri, ctx.originalUri), (.xOriginalMethod, req.method),
      (.xForwardedFor, ctx.remoteAddr.ip.display),
      (.xForwardedProto, protoText ctx.isTls)]

def SystemEncodes (ctx : AuthCtx) (req : Request) (cfg : ForwardAuthConfig) : Prop :=
  ∀ entry ∈ systemTexts ctx req cfg, (HeaderValue.fromStr entry.2).isSome = true

def subrequestValues (ctx : AuthCtx) (req : Request) (cfg : ForwardAuthConfig) (n : HeaderName) :
    List HeaderValue :=
  if n = .host then (cfg.endpoint.authority.bind HeaderValue.fromStr).toList
  else if n = .xOriginalUri then (HeaderValue.fromStr ctx.originalUri).toList
  else if n = .xOriginalMethod then (HeaderValue.fromStr req.method).toList
  else if n = .xForwardedFor then (HeaderValue.fromStr ctx.remoteAddr.ip.display).toList
  else if n = .xForwardedProto then
    (HeaderValue.fromStr (protoText ctx.isTls)).toList
  else if n = .xForwardedHost then (Multimap.get req.headers .host).toList
  else if n = .xRequestId then (Multimap.get req.headers .xRequestId).toList
  else copiedValues req cfg n

/-- The service is told exactly that, or, if it cannot be told, is not asked. -/
structure SubrequestConforms (ctx : AuthCtx) (req : Request) (cfg : ForwardAuthConfig) : Prop where
  told : SystemEncodes ctx req cfg → ∃ sub, buildAuthRequest ctx req cfg = .ok sub ∧
    ∀ n, Multimap.getAll sub.headers n = subrequestValues ctx req cfg n
  notAsked : ¬ SystemEncodes ctx req cfg → (∃ e, buildAuthRequest ctx req cfg = .error e) ∧
    ∀ exchange, ∃ message, resolveAuth ctx req cfg exchange = .failed (.malformed message)

/-! ## What it is told -/

/-- The client sends a header that the configuration lists. -/
def Copies (req : Request) (cfg : ForwardAuthConfig) (n : HeaderName) : Prop :=
  n ∈ cfg.requestHeaders ∧ (Multimap.get req.headers n).isSome = true

section Subrequest
variable {ctx : AuthCtx} {req : Request} {cfg : ForwardAuthConfig}

theorem copiedValues_eq_nil_iff {n : HeaderName} :
    copiedValues req cfg n = [] ↔ ¬ Copies req cfg n := by
  rw [copiedValues, Copies]
  by_cases listed : n ∈ cfg.requestHeaders
  · cases Multimap.get req.headers n <;> simp [listed]
  · simp [listed]

/-- The updates in the order of the source. -/
theorem buildAuthRequest_eq : buildAuthRequest ctx req cfg = .ok ⟨"GET".toList, cfg.endpoint,
    copyHeader req.headers .xRequestId .xRequestId (put (copyHeader req.headers .host
      .xForwardedHost (put (put (put (putHost cfg.endpoint.authority
        (Multimap.copyFirst req.headers cfg.requestHeaders .empty)) .xOriginalUri
          ctx.originalUri) .xOriginalMethod req.method) .xForwardedFor
            ctx.remoteAddr.ip.display)) .xForwardedProto (protoText ctx.isTls))⟩ := rfl

/-- Two headers are left to the client when the proxy has no value for them. -/
theorem getAll_subrequest (encodes : SystemEncodes ctx req cfg) :
    ∃ sub, buildAuthRequest ctx req cfg = .ok sub ∧ ∀ n, Multimap.getAll sub.headers n =
      if (n = .xForwardedHost ∧ Multimap.get req.headers .host = none) ∨
          (n = .host ∧ cfg.endpoint.authority = none) then copiedValues req cfg n
      else subrequestValues ctx req cfg n := by
  have legal : ∀ name text, (name, text) ∈ systemTexts ctx req cfg →
      ∃ v, HeaderValue.fromStr text = some v := fun name text member =>
    Option.isSome_iff_exists.mp (encodes (name, text) member)
  obtain ⟨uri, uriLegal⟩ := legal .xOriginalUri ctx.originalUri (by simp [systemTexts])
  obtain ⟨method, methodLegal⟩ := legal .xOriginalMethod req.method (by simp [systemTexts])
  obtain ⟨peer, peerLegal⟩ := legal .xForwardedFor ctx.remoteAddr.ip.display
    (by simp [systemTexts])
  obtain ⟨proto, protoLegal⟩ := legal .xForwardedProto (protoText ctx.isTls)
    (by simp [systemTexts])
  have authorityLegal : ∀ authority, cfg.endpoint.authority = some authority →
      (HeaderValue.fromStr authority).isSome = true := fun authority given =>
    encodes (.host, authority) (by simp [systemTexts, given])
  refine ⟨_, buildAuthRequest_eq, fun n => ?_⟩
  dsimp only
  rw [getAll_copyHeader, getAll_put protoLegal, getAll_copyHeader, getAll_put peerLegal,
    getAll_put methodLegal, getAll_put uriLegal, getAll_putHost authorityLegal,
    getAll_copied_client, subrequestValues, uriLegal, methodLegal, peerLegal, protoLegal]
  -- one name after the other
  by_cases isHost : n = .host
  · subst isHost
    cases cfg.endpoint.authority <;> simp +decide
  by_cases isUri : n = .xOriginalUri
  · subst isUri
    simp +decide
  by_cases isMethod : n = .xOriginalMethod
  · subst isMethod
    simp +decide
  by_cases isPeer : n = .xForwardedFor
  · subst isPeer
    simp +decide
  by_cases isProto : n = .xForwardedProto
  · subst isProto
    simp +decide
  by_cases isForwarded : n = .xForwardedHost
  · subst isForwarded
    cases Multimap.get req.headers .host <;> simp +decide
  by_cases isId : n = .xRequestId
  · subst isId
    cases given : Multimap.get req.headers .xRequestId <;> simp +decide [copiedValues, given]
  have others := And.intro (Ne.symm isUri) (And.intro (Ne.symm isMethod) (And.intro
    (Ne.symm isPeer) (And.intro (Ne.symm isProto) (And.intro (Ne.symm isForwarded)
      (Ne.symm isId)))))
  simp [isHost, isUri, isMethod, isPeer, isProto, isForwarded, isId, others]

theorem subrequestValues_forwardedHost :
    subrequestValues ctx req cfg .xForwardedHost = (Multimap.get req.headers .host).toList := by
  simp +decide [subrequestValues]

theorem subrequestValues_host : subrequestValues ctx req cfg .host =
    (cfg.endpoint.authority.bind HeaderValue.fromStr).toList := if_pos rfl

/-- The service is told what it should be exactly when every text of the proxy is a header
value and, where the proxy has no value, the client has none that would be copied. -/
theorem subrequest_conforms_iff (ctx : AuthCtx) (req : Request) (cfg : ForwardAuthConfig) :
    SubrequestConforms ctx req cfg ↔
      SystemEncodes ctx req cfg ∧
      ((Multimap.get req.headers .host).isSome = true ∨ ¬ Copies req cfg .xForwardedHost) ∧
      (cfg.endpoint.authority.isSome = true ∨ ¬ Copies req cfg .host) := by
  constructor
  · intro conforms
    have encodes : SystemEncodes ctx req cfg := by
      by_contra unencodable
      obtain ⟨e, failed⟩ := (conforms.notAsked unencodable).1
      cases failed
    obtain ⟨sub, built, values⟩ := getAll_subrequest encodes
    obtain ⟨other, again, told⟩ := conforms.told encodes
    obtain rfl := Except.ok.inj (built.symm.trans again)
    refine ⟨encodes, ?_, ?_⟩
    · by_cases sent : (Multimap.get req.headers .host).isSome = true
      · exact Or.inl sent
      · have absent : Multimap.get req.headers .host = none := by simpa using sent
        have survives := (values .xForwardedHost).symm.trans (told .xForwardedHost)
        rw [if_pos (Or.inl ⟨rfl, absent⟩), subrequestValues_forwardedHost, absent] at survives
        exact Or.inr (copiedValues_eq_nil_iff.mp survives)
    · by_cases given : cfg.endpoint.authority.isSome = true
      · exact Or.inl given
      · have absent : cfg.endpoint.authority = none := by simpa using given
        have survives := (values .host).symm.trans (told .host)
        rw [if_pos (Or.inr ⟨rfl, absent⟩), subrequestValues_host, absent] at survives
        exact Or.inr (copiedValues_eq_nil_iff.mp survives)
  · rintro ⟨encodes, forwarded, host⟩
    obtain ⟨sub, built, values⟩ := getAll_subrequest encodes
    refine ⟨fun _ => ⟨sub, built, fun n => ?_⟩, fun unencodable => absurd encodes unencodable⟩
    rw [values]
    split
    · next missing =>
        rcases missing with ⟨rfl, absent⟩ | ⟨rfl, absent⟩
        · have unspoofed := forwarded.resolve_left (by simp [absent])
          rw [copiedValues_eq_nil_iff.mpr unspoofed, subrequestValues_forwardedHost, absent]
          rfl
        · have unspoofed := host.resolve_left (by simp [absent])
          rw [copiedValues_eq_nil_iff.mpr unspoofed, subrequestValues_host, absent]
          rfl
    · rfl

end Subrequest

/-! ## Two client values that pass for the proxy's -/

/-- `plainAuth` that also copies two headers of the proxy. -/
def copyingAuth : ForwardAuthConfig :=
  { plainAuth .closed with requestHeaders := [.xForwardedHost, .xOriginalUri] }

def evilHost : HeaderValue := ⟨utf8 "evil".toList, by decide⟩

def publicUri : HeaderValue := ⟨utf8 "/public".toList, by decide⟩

/-- No `Host`, but two headers that the proxy sets. -/
def hostlessRequest : Request :=
  ⟨"GET".toList, ⟨none, none, some ['/']⟩,
    [(.xForwardedHost, evilHost), (.xOriginalUri, publicUri)]⟩

/-- The target has a delete character, which a header value cannot hold. -/
def deleteCtx : AuthCtx := { exampleCtx with originalUri := "/admin\x7f".toList }

theorem client_speaks_for_proxy :
    (∃ sub, buildAuthRequest exampleCtx hostlessRequest copyingAuth = .ok sub ∧
      Multimap.getAll sub.headers .xForwardedHost = [evilHost] ∧
      ¬ SubrequestConforms exampleCtx hostlessRequest copyingAuth) ∧
    ∃ sub, buildAuthRequest deleteCtx hostlessRequest copyingAuth = .ok sub ∧
      Multimap.getAll sub.headers .xOriginalUri = [publicUri] ∧
      ¬ SubrequestConforms deleteCtx hostlessRequest copyingAuth := by
  refine ⟨⟨_, rfl, rfl, fun conforms => ?_⟩, _, rfl, rfl, fun conforms => ?_⟩
  · have encodes : SystemEncodes exampleCtx hostlessRequest copyingAuth :=
      List.forall_iff_forall_mem.mp ⟨rfl, rfl, rfl, rfl, rfl⟩
    obtain ⟨sub, built, told⟩ := conforms.told encodes
    obtain rfl := Except.ok.inj built
    cases told .xForwardedHost
  · have unencodable : ¬ SystemEncodes deleteCtx hostlessRequest copyingAuth := by
      intro encodes
      have member : (HeaderName.xOriginalUri, "/admin\x7f".toList) ∈
          systemTexts deleteCtx hostlessRequest copyingAuth :=
        List.mem_cons_of_mem _ (List.mem_cons_self ..)
      cases encodes _ member
    obtain ⟨e, failed⟩ := (conforms.notAsked unencodable).1
    cases failed

end TinyProxy
