import TinyProxy.Http.Display
import TinyProxy.Http.Url
import TinyProxy.Proxy.Correlation

/-!
# The redirect to HTTPS

The redirect server answers every request with the same host and target under
`https`.  The host is taken from the `Host` header without its port and without
the brackets of an address.
-/

set_option autoImplicit false

namespace TinyProxy

open Rust Http

/-! ## The service -/

/-- The port is stripped (`[::1]:8080` gives `::1`). -/
def hostnameFromHostHeader (host : Str) : Str :=
  if startsWith ['['] host then
    match Text.splitOnce [']'] host with
    | some (before, _) => before.drop 1
    | none => beforeFirst ':' host
  else beforeFirst ':' host

def requestTarget (req : Request) : Str := req.uri.pathAndQuery.getD ['/']

def redirectLocation (tlsPort : UInt16) (req : Request) : Str :=
  let hostname := hostnameFromHostHeader (requestHost req)
  let uri := requestTarget req
  if tlsPort = 443 then "https://".toList ++ hostname ++ uri
  else "https://".toList ++ hostname ++ [':'] ++ decimal tlsPort.toNat ++ uri

def redirectPage (location : Str) : Str :=
  "<!DOCTYPE html><html><head><title>301 Moved</title></head>".toList ++
    "<body><h1>Moved Permanently</h1><p>The document has moved ".toList ++
    "<a href=\"".toList ++ location ++ "\">here</a>.</p></body></html>".toList

def movedPermanently : StatusCode := ⟨301, by decide⟩

/-- The service of `listen_http_redirect`; an error is the panic of its `expect`. -/
def redirectService (tlsPort : UInt16) (req : Request) : Except Str Response := do
  let location := redirectLocation tlsPort req
  let body := redirectPage location
  let headers ← withHeader .location location .empty
  let headers ← withHeader .contentType "text/html; charset=utf-8".toList headers
  let headers ← withHeader .contentLength (decimal (byteLen body)) headers
  .ok ⟨movedPermanently, headers, .full body⟩

/-! ## Forms of `Host` -/

/-- The host as it is between brackets. -/
def bareHost : UrlHost → Str
  | .name text _ => text
  | .literal address _ => address

def hostHeader (host : UrlHost) (port : Option Str) : Str :=
  host.display ++ ((port.map (':' :: ·)).getD [])

/-- The port that the location has to name. -/
def redirectPort (tlsPort : UInt16) : Option UInt16 := if tlsPort = 443 then none else some tlsPort

theorem hostname_hostHeader (host : UrlHost) (port : Option Str) :
    hostnameFromHostHeader (hostHeader host port) = bareHost host := by
  cases host with
  | name text valid =>
      have stop : ∀ c ∈ ((port.map (':' :: ·)).getD []).head?, c = ':' := by
        cases port <;> simp
      rw [hostnameFromHostHeader, hostHeader, UrlHost.display, if_neg (name_noBracket valid _)]
      exact (name_stop valid stop).1
  | literal address valid =>
      have absent : ']' ∉ '[' :: address := by
        intro member
        rcases List.mem_cons.mp member with bracket | inside
        · exact absurd bracket (by decide)
        · exact absurd ((addressChar_of_literal valid).2 _ inside) (by decide)
      have shape : hostHeader (.literal address valid) port =
          ('[' :: address) ++ ']' :: (port.map (':' :: ·)).getD [] := by
        simp [hostHeader, UrlHost.display]
      rw [hostnameFromHostHeader, shape, if_pos (by simp [startsWith]),
        Text.splitOnce_singleton ']' _ absent]
      rfl

theorem redirectLocation_eq {tlsPort : UInt16} {req : Request} {host : UrlHost}
    {port : Option Str} (sent : requestHost req = hostHeader host port) :
    redirectLocation tlsPort req = "https".toList ++ "://".toList ++
      (bareHost host ++ (portText (redirectPort tlsPort) ++ requestTarget req)) := by
  rw [redirectLocation, sent, hostname_hostHeader, redirectPort]
  split
  · simp [portText]
  · simp [portText]

/-! ## The response -/

theorem html_visible : VisibleText "text/html; charset=utf-8".toList := by decide

theorem decimal_visible (n : Nat) : VisibleText (decimal n) :=
  toDigits_visible (by decide) (by decide) n

/-- A redirect goes out exactly when its location is a header value, and carries it. -/
theorem redirectService_iff {tlsPort : UInt16} {req : Request} {location : HeaderValue} :
    (∃ response, redirectService tlsPort req = .ok response ∧
      Multimap.getAll response.headers .location = [location]) ↔
    HeaderValue.fromStr (redirectLocation tlsPort req) = some location := by
  constructor
  · rintro ⟨response, served, carried⟩
    obtain ⟨first, located, rest⟩ := bind_ok served
    obtain ⟨second, typed, rest⟩ := bind_ok rest
    obtain ⟨third, sized, rest⟩ := bind_ok rest
    obtain rfl := Except.ok.inj rest
    obtain ⟨v, legal, rfl⟩ := withHeader_ok located
    rw [getAll_withHeader sized (by decide), getAll_withHeader typed (by decide),
      Multimap.getAll_append, if_pos rfl] at carried
    rw [legal, (List.cons.inj carried).1]
  · intro legal
    obtain ⟨html, htmlLegal, _⟩ := HeaderValue.ofVisible html_visible
    obtain ⟨size, sizeLegal, _⟩ := HeaderValue.ofVisible
      (decimal_visible (byteLen (redirectPage (redirectLocation tlsPort req))))
    have served : redirectService tlsPort req = .ok ⟨movedPermanently,
        Multimap.append (Multimap.append (Multimap.append .empty .location location)
          .contentType html) .contentLength size,
        .full (redirectPage (redirectLocation tlsPort req))⟩ := by
      simp only [redirectService, withHeader, legal, htmlLegal, sizeLegal]
      rfl
    refine ⟨_, served, ?_⟩
    rw [Multimap.getAll_append, Multimap.getAll_append, Multimap.getAll_append, if_pos rfl,
      if_neg (by decide), if_neg (by decide)]
    rfl

/-! ## The location -/

theorem location_legal_iff {tlsPort : UInt16} {req : Request} {host : UrlHost}
    {port : Option Str}
    (sent : (Multimap.get req.headers .host).bind HeaderValue.toStr = some (hostHeader host port)) :
    (HeaderValue.fromStr (redirectLocation tlsPort req)).isSome = true ↔
      (HeaderValue.fromStr (requestTarget req)).isSome = true := by
  obtain ⟨value, _, read⟩ := Option.bind_eq_some_iff.mp sent
  have visible := HeaderValue.toStr_visible read
  have hostVisible : VisibleText (bareHost host) := by
    intro c member
    apply visible c
    cases host with
    | name text valid => exact List.mem_append_left _ member
    | literal address valid =>
        exact List.mem_append_left _ (List.mem_cons_of_mem _ (List.mem_append_left _ member))
  have portVisible : VisibleText (portText (redirectPort tlsPort)) := by
    cases redirectPort tlsPort with
    | none => decide
    | some port => exact append_visible (by decide : VisibleText [':']) (decimal_visible _)
  have scheme : VisibleText ("https".toList ++ "://".toList) := by decide
  have front := HeaderValue.isSome_of_visible
    (append_visible scheme (append_visible hostVisible portVisible))
  rw [redirectLocation_eq (by rw [requestHost, sent]; rfl), ← List.append_assoc (bareHost host),
    ← List.append_assoc, HeaderValue.fromStr_append_isSome]
  exact ⟨fun both => both.2, fun target => ⟨front, target⟩⟩

/-- The location has the host and the port exactly when the host is a name and the target
can follow it. -/
theorem location_read_iff {tlsPort : UInt16} {req : Request} {host : UrlHost}
    {port : Option Str} (sent : requestHost req = hostHeader host port) :
    readUrl "https".toList (redirectLocation tlsPort req) =
        some (⟨host, redirectPort tlsPort⟩, requestTarget req) ↔
      host.isName = true ∧ StartsTarget (requestTarget req) := by
  rw [redirectLocation_eq sent]
  constructor
  · intro read
    refine ⟨?_, readUrl_target read⟩
    cases host with
    | name text valid => rfl
    | literal address valid =>
        refine readUrl_isName (fun bracket => ?_) read
        obtain ⟨nonempty, chars⟩ := addressChar_of_literal valid
        obtain ⟨first, rest, rfl⟩ := List.exists_cons_of_ne_nil nonempty
        have firstChar := chars first (List.mem_cons_self ..)
        rw [bareHost, List.cons_append, List.head?_cons] at bracket
        rw [Option.some.inj bracket] at firstChar
        exact absurd firstChar (by decide)
  · rintro ⟨isName, starts⟩
    cases host with
    | name text valid =>
        have read := readUrl_display "https".toList ⟨.name text valid, redirectPort tlsPort⟩ starts
        rw [Authority.display, List.append_assoc (UrlHost.display _)] at read
        exact read
    | literal address valid => cases isName

/-- The redirect keeps host and target and names the TLS port exactly when the host is no
address in brackets and the target can follow an authority in a header. -/
theorem redirect_keeps_target_iff {req : Request} {host : UrlHost} {port : Option Str}
    (sent : (Multimap.get req.headers .host).bind HeaderValue.toStr = some (hostHeader host port))
    (tlsPort : UInt16) :
    (∃ response location, redirectService tlsPort req = .ok response ∧
      Multimap.getAll response.headers .location = [location] ∧
      HeaderValue.fromStr (redirectLocation tlsPort req) = some location ∧
      readUrl "https".toList (redirectLocation tlsPort req) =
        some (⟨host, redirectPort tlsPort⟩, requestTarget req)) ↔
    host.isName = true ∧ StartsTarget (requestTarget req) ∧
      (HeaderValue.fromStr (requestTarget req)).isSome = true := by
  have isHost : requestHost req = hostHeader host port := by
    rw [requestHost, sent]
    rfl
  rw [← @location_legal_iff tlsPort req host port sent, ← and_assoc, ← location_read_iff isHost]
  constructor
  · rintro ⟨response, location, _, _, legal, read⟩
    exact ⟨read, by rw [legal]; rfl⟩
  · rintro ⟨read, legal⟩
    obtain ⟨location, made⟩ := Option.isSome_iff_exists.mp legal
    obtain ⟨response, served, carried⟩ := redirectService_iff.mpr made
    exact ⟨response, location, served, carried, made, read⟩

/-! ## Examples -/

def redirectedName : UrlHost := .name "a.org".toList (by decide)

def loopback : UrlHost := .literal "::1".toList (by decide)

/-- `GET /x?y` with `Host: a.org:80`. -/
def namedRequest : Request :=
  ⟨"GET".toList, ⟨none, none, some "/x?y".toList⟩, [(.host, ⟨utf8 "a.org:80".toList, by decide⟩)]⟩

/-- `GET /` with `Host: [::1]`. -/
def loopbackRequest : Request :=
  ⟨"GET".toList, ⟨none, none, some ['/']⟩, [(.host, ⟨utf8 "[::1]".toList, by decide⟩)]⟩

theorem redirect_keeps_target_iff_named :
    redirectLocation 8443 namedRequest = "https://a.org:8443/x?y".toList ∧
      readUrl "https".toList (redirectLocation 8443 namedRequest) =
        some (⟨redirectedName, some 8443⟩, "/x?y".toList) := by
  have sent : (Multimap.get namedRequest.headers .host).bind HeaderValue.toStr =
      some (hostHeader redirectedName (some "80".toList)) := rfl
  have starts : StartsTarget (requestTarget namedRequest) := by
    rintro _ ⟨⟩
    rfl
  obtain ⟨_, _, _, _, _, read⟩ :=
    (redirect_keeps_target_iff sent 8443).mpr ⟨rfl, starts, rfl⟩
  exact ⟨rfl, read⟩

/-- The brackets of an address get lost, and the URL with them. -/
theorem address_loses_brackets :
    (Multimap.get loopbackRequest.headers .host).bind HeaderValue.toStr =
        some (hostHeader loopback none) ∧
      redirectLocation 8443 loopbackRequest = "https://::1:8443/".toList ∧
      redirectLocation 443 loopbackRequest = "https://::1/".toList ∧
      readUrl "https".toList (redirectLocation 8443 loopbackRequest) = none ∧
      readUrl "https".toList (redirectLocation 443 loopbackRequest) = none := by
  exact ⟨rfl, rfl, rfl, rfl, rfl⟩

end TinyProxy
