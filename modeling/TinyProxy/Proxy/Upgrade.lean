import TinyProxy.Proxy.BareHost
import TinyProxy.Proxy.Certificates
import TinyProxy.Proxy.Redirect
import TinyProxy.Proxy.Sockets

/-!
# From the redirect to the site

A client that is sent from `http` to `https` connects to what the location
names, asks for a certificate by that name and sends it as `Host`.  The socket,
the certificate and the site it meets there belong together.
-/

set_option autoImplicit false

namespace TinyProxy

open Rust Http

/-- What a client does with the authority of an `https` URL. -/
def connectsTo (authority : Authority) : UInt16 := authority.port.getD 443

def serverName (authority : Authority) : Str := authority.host.display

def hostOf (authority : Authority) : Str := authority.display

/-! ## Names -/

theorem IsDnsName.isHostName {host : Str} (dns : IsDnsName host) : isHostName host = true := by
  have nonempty : host.isEmpty = false := by simpa using dns.1
  have apart : ∀ c ∈ ":/?#[]@".toList, isDnsChar c = false :=
    List.forall_iff_forall_mem.mp ⟨rfl, rfl, rfl, rfl, rfl, rfl, rfl⟩
  rw [Http.isHostName, nonempty, Bool.not_false, Bool.true_and, List.all_eq_true]
  intro c member
  rw [isNameChar, Bool.not_eq_true', ← Bool.not_eq_true, List.contains_iff_mem]
  intro delimiter
  have isDns := List.all_eq_true.mp dns.2 c member
  rw [apart c delimiter] at isDns
  cases isDns

/-- The port at the end of an address is the one that is listened on. -/
theorem resolve_ported {host : Str} {port : UInt16} {listenAddr : SocketAddr}
    (resolved : resolveListenAddr (host ++ ':' :: decimal port.toNat) = .ok listenAddr) :
    listenAddr.port = port := by
  have written := (parts_of_split host (decimal_noColon port.toNat)).2
  cases parsed : parseSocketAddr (host ++ ':' :: decimal port.toNat) with
  | some addr =>
      rw [resolve_socket parsed] at resolved
      obtain rfl := Except.ok.inj resolved
      obtain ⟨name, digits, same, clear, read, _⟩ := parseSocketAddr_shape parsed
      rw [same, (parts_of_split name clear).2] at written
      rw [written, parseU16_decimal] at read
      exact (Option.some.inj read).symm
  | none =>
      obtain ⟨found, read, rfl⟩ := (resolve_port parsed).mp resolved
      rw [written, parseU16_decimal] at read
      exact (Option.some.inj read).symm

section Route
variable {config : Config} {host : Str} {port : UInt16} {site : SiteConfig}

/-- The bare name is no address of a site, unless it can be read as a port. -/
theorem lookup_bare (keyed : Keyed config.sites) (valid : ValidSockets config)
    (dns : IsDnsName host) (noPort : parseU16 host = none) : config.sites.lookup host = none := by
  cases found : config.sites.lookup host with
  | none => rfl
  | some other =>
      obtain ⟨listenAddr, resolved⟩ := valid.resolves other (mem_values_of_lookup found)
      rw [keyed host other found] at resolved
      have number := (resolve_bare_iff dns).mp ⟨listenAddr, resolved⟩
      rw [noPort] at number
      cases number

/-- With the port of its address left out where it is the default, the name leads to the
site. -/
theorem findSite_upgraded (dns : IsDnsName host) (bare : config.sites.lookup host = none)
    (found : config.sites.lookup (host ++ ':' :: decimal port.toNat) = some site) :
    findSite config (host ++ portText (redirectPort port)) true = some site := by
  unfold redirectPort
  split
  next isDefault =>
    obtain rfl := isDefault
    have noPort : hasPort host = false := by
      have plain := dns.noBracket []
      rw [List.append_nil] at plain
      rw [hasPort, plain, if_neg Bool.false_ne_true]
      simpa using dns.plain.1
    have here : config.sites.lookup (host ++ ':' :: decimal (defaultPort true)) = some site := found
    rw [portText, List.append_nil, findSite, bare]
    dsimp only
    rw [if_neg (by simp [noPort]), here]
  next => rw [portText, findSite, found]

end Route

/-! ## Listeners and certificates -/

section Listens
variable {Cert Key SigningKey : Type} {files : PemFiles Cert Key SigningKey}
variable {walk : List (SocketAddr × List SiteConfig) → List (SocketAddr × List SiteConfig)}
variable {config : Config} {listenAddr : SocketAddr} {site : SiteConfig}

/-- A TLS site has its listener, the redirect to it, and its certificate there. -/
theorem startAll_secures (valid : ValidSockets config) (loads : KeysLoad files config)
    (order : ∀ groups, (walk groups).Perm groups) (member : site ∈ config.values)
    (isTls : site.tls.isSome = true) (resolved : resolveListenAddr site.address = .ok listenAddr) :
    ∃ entries resolver,
      .https listenAddr entries ∈ (startAll (acceptorOf files) walk config).listeners ∧
      redirectOf listenAddr ∈ (startAll (acceptorOf files) walk config).redirects ∧
      buildTlsAcceptor files entries none = .ok resolver ∧
      resolver.resolve (some (extractHostname site.address)) = siteKey files site ∧
      (siteKey files site).isSome = true := by
  have here : listensOn listenAddr site = true := listensOn_iff.mpr resolved
  have acceptors := certificatesLoad_of_keysLoad loads
  have inGroup : site ∈ config.values.filter (listensOn listenAddr) :=
    List.mem_filter.mpr ⟨member, here⟩
  obtain ⟨_, _, resolver, built, serves⟩ := boundEntries_serves valid loads member here isTls
  obtain ⟨entry, isEntry⟩ : ∃ entry, site.tlsEntry = some entry := by
    obtain ⟨tls, given⟩ := Option.isSome_iff_exists.mp isTls
    exact ⟨(extractHostname site.address, tls), tlsEntry_eq_some_iff.mpr ⟨rfl, given⟩⟩
  have some_ : boundEntries config listenAddr ≠ [] :=
    List.ne_nil_of_mem (mem_boundEntries.mpr ⟨site, member, here, isEntry⟩)
  obtain ⟨groups, grouped, _, _, redirects⟩ :=
    @startAll_groups config (acceptorOf files) walk valid.resolves order
  have started := (startGroups_valid valid acceptors grouped).2
  have redirects : (startAll (acceptorOf files) walk config).redirects =
      (startGroups (acceptorOf files) groups).redirects := by
    rcases redirects with ⟨_, same⟩ | ⟨⟨e, failed⟩, _⟩
    · exact same
    · cases started.symm.trans failed
  refine ⟨boundEntries config listenAddr, resolver,
    (startAll_https_iff valid acceptors order).mpr ⟨rfl, some_⟩, ?_, built, ?_⟩
  · rw [redirects, ((startGroups_spawned groups).all started).2]
    obtain ⟨group, isGroup, secured, same⟩ :=
      (tlsGroup_iff grouped).mpr ⟨site, member, isTls, here⟩
    exact ⟨group, isGroup, secured, same ▸ rfl⟩
  · exact serves.named site inGroup _ (decide_eq_true rfl)

end Listens

/-! ## The whole way -/

section Upgrade
variable {Cert Key SigningKey : Type} {files : PemFiles Cert Key SigningKey}
variable {walk : List (SocketAddr × List SiteConfig) → List (SocketAddr × List SiteConfig)}

/-- A client of the redirect server ends up at the site: the location that it is sent to
names the port, the certificate and the site, and has the target that was asked for. -/
theorem upgrade_reaches_site {parser : UriParser} {content : Str} {parsed config : Config}
    (accepted : Config.fromStr parser content = .ok parsed)
    (same : config.sites.entries.Perm parsed.sites.entries) (loads : KeysLoad files config)
    (order : ∀ groups, (walk groups).Perm groups) {host : Str} (dns : IsDnsName host)
    (noPort : parseU16 host = none) {port : UInt16} {site : SiteConfig}
    (found : config.sites.lookup (host ++ ':' :: decimal port.toNat) = some site)
    (isTls : site.tls.isSome = true) :
    ∃ listenAddr entries resolver,
      .https listenAddr entries ∈ (startAll (acceptorOf files) walk config).listeners ∧
      redirectOf listenAddr ∈ (startAll (acceptorOf files) walk config).redirects ∧
      buildTlsAcceptor files entries none = .ok resolver ∧
      ∀ req sentPort, (Multimap.get req.headers .host).bind HeaderValue.toStr =
          some (hostHeader (.name host dns.isHostName) sentPort) →
        StartsTarget (requestTarget req) →
        (HeaderValue.fromStr (requestTarget req)).isSome = true →
        ∃ response location authority,
          redirectService (redirectOf listenAddr).2 req = .ok response ∧
          Multimap.getAll response.headers .location = [location] ∧
          HeaderValue.fromStr (redirectLocation (redirectOf listenAddr).2 req) = some location ∧
          readUrl "https".toList (redirectLocation (redirectOf listenAddr).2 req) =
            some (authority, requestTarget req) ∧
          connectsTo authority = listenAddr.port ∧
          resolver.resolve (some (serverName authority)) = siteKey files site ∧
          (siteKey files site).isSome = true ∧
          findSite config (hostOf authority) true = some site := by
  have samely := values_perm same
  have valid := (validSockets_of_accepted accepted).perm samely
  have keyed : Keyed config.sites := by
    intro key other isThere
    apply keyed_of_accepted accepted key other
    rw [← isThere]
    exact AList.perm_lookup same.symm
  have member := mem_values_of_lookup found
  have address := keyed _ site found
  obtain ⟨listenAddr, resolved⟩ := valid.resolves site member
  have isPort : listenAddr.port = port := resolve_ported (address ▸ resolved)
  obtain ⟨entries, resolver, listens, redirects, built, certified, some_⟩ :=
    @startAll_secures _ _ _ files walk config listenAddr site valid loads order member isTls
      resolved
  refine ⟨listenAddr, entries, resolver, listens, redirects, built, ?_⟩
  intro req sentPort sent starts legal
  have isHost : requestHost req = hostHeader (.name host dns.isHostName) sentPort := by
    rw [requestHost, sent]
    rfl
  have isLegal := (@location_legal_iff (redirectOf listenAddr).2 req _ sentPort sent).mpr legal
  obtain ⟨location, made⟩ := Option.isSome_iff_exists.mp isLegal
  obtain ⟨response, served, carried⟩ := redirectService_iff.mpr made
  have read := (@location_read_iff (redirectOf listenAddr).2 req _ sentPort isHost).mpr
    ⟨rfl, starts⟩
  refine ⟨response, location, ⟨.name host dns.isHostName, redirectPort listenAddr.port⟩, served,
    carried, made, read, ?_, ?_, some_, ?_⟩
  · rw [connectsTo, redirectPort]
    split
    next isDefault => exact isDefault.symm
    next => rfl
  · rw [address, (extractHostname_dns dns).2] at certified
    exact certified
  · rw [hostOf, Authority.display, isPort]
    exact findSite_upgraded dns (lookup_bare keyed valid dns noPort) found

end Upgrade

/-! ## One of two names -/

/-- `GET /x?y` with `Host: A.org:80`. -/
def upgradedRequest : Request :=
  { namedRequest with headers := [(.host, ⟨utf8 "A.org:80".toList, by decide⟩)] }

/-- The request is sent to the second site of the text. -/
theorem upgrade_reaches_site_names :
    ∃ listenAddr entries resolver authority,
      .https listenAddr entries ∈ (startAll (acceptorOf pathFiles) id namesConfig).listeners ∧
      buildTlsAcceptor pathFiles entries none = .ok resolver ∧
      readUrl "https".toList (redirectLocation listenAddr.port upgradedRequest) =
        some (authority, "/x?y".toList) ∧
      connectsTo authority = listenAddr.port ∧
      resolver.resolve (some (serverName authority)) =
        some ⟨["c.pem".toList], "k.pem".toList⟩ ∧
      findSite namesConfig (hostOf authority) true = some (tlsSite "A.org:8443".toList) := by
  have dns : IsDnsName "A.org".toList := ⟨List.cons_ne_nil _ _, rfl⟩
  have found : namesConfig.sites.lookup ("A.org".toList ++ ':' :: decimal (8443 : UInt16).toNat) =
      some (tlsSite "A.org:8443".toList) := rfl
  obtain ⟨listenAddr, entries, resolver, listens, _, built, follows⟩ :=
    @upgrade_reaches_site _ _ _ pathFiles id plainUriParser _ namesConfig namesConfig
      names_accepted (List.Perm.refl _) (@pathFiles_load namesConfig) walk_id _ dns rfl 8443 _
      found rfl
  have starts : StartsTarget (requestTarget upgradedRequest) := by
    rintro _ ⟨⟩
    rfl
  obtain ⟨_, _, authority, _, _, _, read, port, certified, _, reached⟩ :=
    follows upgradedRequest (some "80".toList) rfl starts rfl
  exact ⟨listenAddr, entries, resolver, authority, listens, built, read, port, certified, reached⟩

end TinyProxy
