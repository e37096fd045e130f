import TinyProxy.Proxy.StartModes
import TinyProxy.Proxy.Tls
import TinyProxy.Config.Acceptance

/-!
# The certificate for a host name

On the TLS sockets of an accepted configuration no site takes the place of
another in the table of certificates, and the order in which the maps are walked
does not show.
-/

set_option autoImplicit false

namespace TinyProxy

open Rust

/-! ## Groups -/

/-- The groups hold each site once, under its socket, and none is mixed. -/
structure Partition (config : Config) (groups : List (SocketAddr × List SiteConfig)) : Prop where
  sockets : (groups.map Prod.fst).Nodup
  sites : (groups.flatMap Prod.snd).Perm config.values
  own : ∀ group ∈ groups, group.2 ≠ [] ∧ ∀ site ∈ group.2,
    resolveListenAddr site.address = .ok group.1
  uniform : ∀ group ∈ groups, (∀ site ∈ group.2, site.tls.isSome = true) ∨
    ∀ site ∈ group.2, site.tls.isSome = false

theorem values_perm {config other : Config}
    (same : other.sites.entries.Perm config.sites.entries) : other.values.Perm config.values := by
  unfold Config.values
  exact same.map _

theorem values_nodup {config : Config} (keyed : Keyed config.sites) : config.values.Nodup := by
  have addresses : config.values.map SiteConfig.address = config.sites.keys := by
    rw [Config.values, List.map_map]
    refine List.map_congr_left fun entry member => ?_
    exact keyed entry.1 entry.2 (AList.mem_lookup_iff.mpr member)
  exact List.Nodup.of_map SiteConfig.address (addresses ▸ config.sites.keys_nodup)

theorem partition_of_groups {config : Config} (valid : ValidSockets config)
    (distinct : config.values.Nodup) {groups : List (SocketAddr × List SiteConfig)}
    (grouped : GroupsOf config groups) : Partition config groups := by
  have own : ∀ group ∈ groups, ∀ site ∈ group.2, resolveListenAddr site.address = .ok group.1 :=
    fun group member site inGroup => listensOn_iff.mp ((grouped.mem_iff member).mp inGroup).2
  refine ⟨grouped.keys, ?_, fun group member =>
    ⟨((grouped.sites group).mp member).2, own group member⟩, fun group member => ?_⟩
  · have apart : (groups.flatMap Prod.snd).Nodup := by
      rw [List.nodup_flatMap]
      refine ⟨fun group member => ?_, ?_⟩
      · rw [((grouped.sites group).mp member).1]
        exact distinct.filter _
      · refine ((List.pairwise_map.mp grouped.keys).imp_of_mem ?_)
        intro first second isFirst isSecond other site inFirst inSecond
        have there := own second isSecond site inSecond
        rw [own first isFirst site inFirst] at there
        exact other (Except.ok.inj there)
    rw [List.perm_ext_iff_of_nodup apart distinct]
    intro site
    rw [List.mem_flatMap]
    constructor
    · rintro ⟨group, member, inGroup⟩
      exact ((grouped.mem_iff member).mp inGroup).1
    · intro member
      obtain ⟨listenAddr, resolved⟩ := valid.resolves site member
      have here := listensOn_iff.mpr resolved
      exact ⟨_, grouped.mem_of_listensOn member here, List.mem_filter.mpr ⟨member, here⟩⟩
  · obtain ⟨first, isFirst⟩ := grouped.nonempty member
    have same : ∀ site ∈ group.2, site.tls.isSome = first.tls.isSome :=
      fun site isSite => grouped.uniform valid member isSite isFirst
    cases kind : first.tls.isSome with
    | true => exact Or.inl fun site isSite => (same site isSite).trans kind
    | false => exact Or.inr fun site isSite => (same site isSite).trans kind

/-! ## The resolver of a group -/

section Resolver
variable {Cert Key SigningKey : Type} (files : PemFiles Cert Key SigningKey)

/-- The certificate and key that the site names, if they load. -/
def siteKey (site : SiteConfig) : Option (CertifiedKey Cert SigningKey) :=
  site.tlsEntry.bind fun entry => (certifiedKey files entry).toOption

/-- All certificates and keys load. -/
def KeysLoad (config : Config) : Prop :=
  ∀ site ∈ config.values, site.tls.isSome = true → (siteKey files site).isSome = true

/-- One entry a site; a site's name gets its certificate, in any case of letters, and
any other name gets the certificate of `fallback`. -/
structure Serves (sites : List SiteConfig) (fallback : SiteConfig)
    (resolver : SniCertResolver Cert SigningKey) : Prop where
  names : resolver.entries.keys.Perm (sites.map sniName)
  named : ∀ site ∈ sites, ∀ sni, eqIgnoreAsciiCase sni (extractHostname site.address) = true →
    resolver.resolve (some sni) = siteKey files site ∧ (siteKey files site).isSome = true
  unnamed : ∀ serverName, (∀ sni, serverName = some sni → toAsciiLowercase sni ∉ sites.map sniName) →
    resolver.resolve serverName = siteKey files fallback

variable {files}

theorem tlsEntriesOf_tls {sites : List SiteConfig} (allTls : ∀ site ∈ sites, site.tls.isSome = true) :
    tlsEntriesOf sites = sites.filterMap SiteConfig.tlsEntry := by
  rw [tlsEntriesOf, List.filter_eq_self.mpr allTls]

theorem tlsEntriesOf_names {sites : List SiteConfig}
    (allTls : ∀ site ∈ sites, site.tls.isSome = true) :
    (tlsEntriesOf sites).map tableName = sites.map sniName := by
  rw [tlsEntriesOf_tls allTls, List.map_filterMap, ← List.filterMap_eq_map]
  refine List.filterMap_congr fun site member => ?_
  obtain ⟨tls, isTls⟩ := Option.isSome_iff_exists.mp (allTls site member)
  rw [SiteConfig.tlsEntry, isTls]
  rfl

/-- The site with the least name. -/
theorem exists_least {sites : List SiteConfig} (some_ : sites ≠ []) :
    ∃ fallback ∈ sites, firstHostname (sites.map sniName) = some (sniName fallback) := by
  have sorted : firstHostname (sites.map sniName) ≠ none := by
    intro nothing
    rw [firstHostname, List.head?_eq_none_iff] at nothing
    have length := congrArg List.length nothing
    rw [List.length_mergeSort, List.length_map, List.length_nil] at length
    exact some_ (List.length_eq_zero_iff.mp length)
  obtain ⟨name, least⟩ := Option.ne_none_iff_exists'.mp sorted
  obtain ⟨fallback, member, rfl⟩ := List.mem_map.mp (firstHostname_eq_some_iff.mp least).1
  exact ⟨fallback, member, least⟩

theorem firstHostname_perm {names others : List Str} (same : names.Perm others) :
    firstHostname names = firstHostname others := by
  refine Option.ext fun name => ?_
  rw [firstHostname_eq_some_iff, firstHostname_eq_some_iff]
  simp only [same.mem_iff]

theorem exists_certifiedKey {site : SiteConfig} {entry : TlsEntry}
    (same : site.tlsEntry = some entry) (loaded : (siteKey files site).isSome = true) :
    ∃ key, certifiedKey files entry = .ok key := by
  rw [siteKey, same, Option.bind_some] at loaded
  cases read : certifiedKey files entry with
  | ok key => exact ⟨key, rfl⟩
  | error e =>
      rw [read] at loaded
      cases loaded

theorem buildTlsAcceptor_serves {sites : List SiteConfig} {fallback : SiteConfig}
    (allTls : ∀ site ∈ sites, site.tls.isSome = true) (distinct : (sites.map sniName).Nodup)
    (loads : ∀ site ∈ sites, (siteKey files site).isSome = true) (member : fallback ∈ sites)
    (least : firstHostname (sites.map sniName) = some (sniName fallback)) :
    ∃ resolver, buildTlsAcceptor files (tlsEntriesOf sites) none = .ok resolver ∧
      Serves files sites fallback resolver := by
  have nonempty : tlsEntriesOf sites ≠ [] := fun nothing =>
    (List.filter_eq_nil_iff.mp (tlsEntriesOf_eq_nil_iff.mp nothing)) fallback member
      (allTls fallback member)
  have entryOf : ∀ site ∈ sites, ∃ entry ∈ tlsEntriesOf sites, tableName entry = sniName site ∧
      siteKey files site = (certifiedKey files entry).toOption := by
    intro site isSite
    obtain ⟨tls, isTls⟩ := Option.isSome_iff_exists.mp (allTls site isSite)
    have isEntry : site.tlsEntry = some (extractHostname site.address, tls) :=
      tlsEntry_eq_some_iff.mpr ⟨rfl, isTls⟩
    exact ⟨_, mem_tlsEntriesOf.mpr ⟨site, isSite, isEntry⟩, rfl, by rw [siteKey, isEntry]; rfl⟩
  have load : ∀ entry ∈ tlsEntriesOf sites, ∃ key, certifiedKey files entry = .ok key := by
    intro entry isEntry
    obtain ⟨site, isSite, same⟩ := mem_tlsEntriesOf.mp isEntry
    exact exists_certifiedKey same (loads site isSite)
  obtain ⟨final, run, default_, names, _, found⟩ := @addEntries_distinct _ _ _ files
    (tlsEntriesOf sites) ⟨∅, none⟩ load (tlsEntriesOf_names allTls ▸ distinct)
    fun _ _ => AList.notMem_empty _
  have keys : final.entries.keys.Perm (sites.map sniName) := by
    rw [List.perm_ext_iff_of_nodup final.entries.keys_nodup distinct]
    intro name
    rw [← AList.mem_keys, names, tlsEntriesOf_names allTls]
    exact or_iff_left (AList.notMem_empty _)
  have lookup : ∀ site ∈ sites, final.entries.lookup (sniName site) = siteKey files site := by
    intro site isSite
    obtain ⟨entry, isEntry, name, key⟩ := entryOf site isSite
    rw [key, ← name]
    exact found entry isEntry
  have first : (firstHostname final.entries.keys).bind final.entries.lookup =
      siteKey files fallback := by
    rw [firstHostname_perm keys, least, Option.bind_some, lookup fallback member]
  refine ⟨⟨final.entries, siteKey files fallback⟩, ?_, keys, fun site isSite sni same => ?_, ?_⟩
  · rw [buildTlsAcceptor, if_neg nonempty, run]
    dsimp only [bind, Except.bind]
    rw [default_]
    dsimp only
    rw [first]
  · have name : toAsciiLowercase sni = sniName site := of_decide_eq_true same
    obtain ⟨key, isKey⟩ := Option.isSome_iff_exists.mp (loads site isSite)
    refine ⟨?_, loads site isSite⟩
    rw [SniCertResolver.resolve, Option.bind_some, name, lookup site isSite, isKey]
  · intro serverName unknown
    have missing : (serverName.bind fun sni => final.entries.lookup (toAsciiLowercase sni)) = none := by
      cases serverName with
      | none => rfl
      | some sni =>
          refine AList.lookup_eq_none.mpr fun known => unknown sni rfl ?_
          exact keys.mem_iff.mp known
    rw [SniCertResolver.resolve, missing]

/-! ## Accepted configurations -/

theorem certificatesLoad_of_keysLoad {config : Config} (keys : KeysLoad files config) :
    CertificatesLoad config (acceptorOf files) := by
  intro entries some_ fromSites
  refine acceptorOf_loads some_ fun entry isEntry => ?_
  obtain ⟨site, member, same⟩ := fromSites entry isEntry
  exact exists_certifiedKey same (keys site member (isTls_of_tlsEntry same))

theorem sitesOn_distinct {config : Config} (valid : ValidSockets config) {listenAddr : SocketAddr}
    (allTls : ∀ site ∈ config.values.filter (listensOn listenAddr), site.tls.isSome = true) :
    ((config.values.filter (listensOn listenAddr)).map sniName).Nodup := by
  rw [List.Nodup, List.pairwise_map]
  refine (valid.distinct.sublist List.filter_sublist).imp_of_mem ?_
  intro first second isFirst isSecond apart
  exact apart listenAddr (List.mem_filter.mp isFirst).2 (List.mem_filter.mp isSecond).2
    (allTls first isFirst) (allTls second isSecond)

theorem Serves.perm {sites others : List SiteConfig} {fallback : SiteConfig}
    {resolver : SniCertResolver Cert SigningKey} (serves : Serves files sites fallback resolver)
    (same : sites.Perm others) : Serves files others fallback resolver where
  names := serves.names.trans (same.map sniName)
  named site member := serves.named site (same.mem_iff.mpr member)
  unnamed serverName unknown := serves.unnamed serverName fun sni isName known =>
    unknown sni isName ((same.map sniName).mem_iff.mp known)

/-- The sites of a TLS socket, with the acceptor that is built for them. -/
theorem boundEntries_serves {config : Config} (valid : ValidSockets config)
    (loads : KeysLoad files config) {listenAddr : SocketAddr} {secured : SiteConfig}
    (member : secured ∈ config.values) (here : listensOn listenAddr secured = true)
    (isTls : secured.tls.isSome = true) :
    ∃ fallback ∈ config.values.filter (listensOn listenAddr), ∃ resolver,
      buildTlsAcceptor files (boundEntries config listenAddr) none = .ok resolver ∧
      Serves files (config.values.filter (listensOn listenAddr)) fallback resolver := by
  have allTls : ∀ site ∈ config.values.filter (listensOn listenAddr),
      site.tls.isSome = true := by
    intro site isSite
    obtain ⟨inConfig, siteHere⟩ := List.mem_filter.mp isSite
    rw [valid.uniform site inConfig secured member listenAddr siteHere here, isTls]
  obtain ⟨fallback, isFallback, least⟩ :=
    exists_least (List.ne_nil_of_mem (List.mem_filter.mpr ⟨member, here⟩))
  have read : ∀ site ∈ config.values.filter (listensOn listenAddr),
      (siteKey files site).isSome = true :=
    fun site isSite => loads site (List.mem_filter.mp isSite).1 (allTls site isSite)
  exact ⟨fallback, isFallback,
    buildTlsAcceptor_serves allTls (sitesOn_distinct valid allTls) read isFallback least⟩

/-- Whatever the order of the maps, the groups partition the sites and all start, and on a
TLS socket every site has its certificate, with the same one for all other names. -/
theorem startAll_certificates {parser : Http.UriParser} {content : Str} {config : Config}
    (accepted : Config.fromStr parser content = .ok config) (loads : KeysLoad files config) :
    (∀ other : Config, other.sites.entries.Perm config.sites.entries →
      ∀ walk, (∀ groups, (walk groups).Perm groups) →
        (startAll (acceptorOf files) walk other).result = .ok () ∧
        ∃ groups, Partition config groups ∧
          (startAll (acceptorOf files) walk other).listeners = groups.map groupListener) ∧
    ∀ listenAddr, (∃ site ∈ config.values, listensOn listenAddr site = true ∧
        site.tls.isSome = true) →
      ∃ fallback ∈ config.values.filter (listensOn listenAddr),
        ∀ other : Config, other.sites.entries.Perm config.sites.entries →
        ∀ walk, (∀ groups, (walk groups).Perm groups) →
          ∃ entries resolver,
            (∀ found, .https listenAddr found ∈ (startAll (acceptorOf files) walk other).listeners ↔
              found = entries) ∧
            buildTlsAcceptor files entries none = .ok resolver ∧
            Serves files (config.values.filter (listensOn listenAddr)) fallback resolver := by
  have valid := validSockets_of_accepted accepted
  have distinct := values_nodup (keyed_of_accepted accepted)
  have loadsFor : ∀ other : Config, other.values.Perm config.values → KeysLoad files other :=
    fun other same site member => loads site (same.mem_iff.mp member)
  constructor
  · intro other sameEntries walk order
    have same := values_perm sameEntries
    have validOther := valid.perm same
    obtain ⟨groups, grouped, listeners, result, _⟩ :=
      @startAll_groups other (acceptorOf files) walk validOther.resolves order
    obtain ⟨started, complete⟩ := startGroups_valid validOther
      (certificatesLoad_of_keysLoad (loadsFor other same)) grouped
    obtain ⟨keys, whole, own, uniform⟩ :=
      partition_of_groups validOther (same.nodup_iff.mpr distinct) grouped
    exact ⟨result.trans complete, groups, ⟨keys, whole.trans same, own, uniform⟩,
      listeners.trans started⟩
  · rintro listenAddr ⟨secured, member, here, isTls⟩
    have allTls : ∀ site ∈ config.values.filter (listensOn listenAddr),
        site.tls.isSome = true := by
      intro site isSite
      obtain ⟨inConfig, siteHere⟩ := List.mem_filter.mp isSite
      rw [valid.uniform site inConfig secured member listenAddr siteHere here, isTls]
    obtain ⟨fallback, isFallback, least⟩ :=
      exists_least (List.ne_nil_of_mem (List.mem_filter.mpr ⟨member, here⟩))
    refine ⟨fallback, isFallback, fun other sameEntries walk order => ?_⟩
    have same := values_perm sameEntries
    have sameSites := same.filter (listensOn listenAddr)
    obtain ⟨resolver, built, serves⟩ := @buildTlsAcceptor_serves _ _ _ files
      (other.values.filter (listensOn listenAddr)) fallback
      (fun site isSite => allTls site (sameSites.mem_iff.mp isSite))
      ((sameSites.map sniName).nodup_iff.mpr (sitesOn_distinct valid allTls))
      (fun site isSite => loads site
        (List.mem_filter.mp (sameSites.mem_iff.mp isSite)).1
        (allTls site (sameSites.mem_iff.mp isSite)))
      (sameSites.mem_iff.mpr isFallback)
      ((firstHostname_perm (sameSites.map sniName)).trans least)
    refine ⟨boundEntries other listenAddr, resolver, fun found => ?_, built,
      serves.perm sameSites⟩
    rw [startAll_https_iff (valid.perm same)
      (certificatesLoad_of_keysLoad (loadsFor other same)) order]
    refine ⟨And.left, ?_⟩
    rintro rfl
    refine ⟨rfl, fun nothing => ?_⟩
    rw [boundEntries, tlsEntriesOf_eq_nil_iff, List.filter_eq_nil_iff] at nothing
    exact nothing fallback (sameSites.mem_iff.mpr isFallback) (allTls fallback isFallback)

end Resolver

/-! ## Two names on one socket -/

/-- Every file holds one section: its own path. -/
def pathFiles : PemFiles Str Str Str where
  certs path := .ok [path]
  privateKey path := .ok (some path)
  anySupportedType key := .ok key

def namesText : Str := tlsSiteText "b.org:8443".toList ++ '\n' :: tlsSiteText "A.org:8443".toList

def namesConfig : Config :=
  ⟨(singleSite (tlsSite "b.org:8443".toList)).sites.insert "A.org:8443".toList
    (tlsSite "A.org:8443".toList)⟩

theorem names_accepted : Config.fromStr Http.plainUriParser namesText = .ok namesConfig := by rfl

theorem pathFiles_load {config : Config} : KeysLoad pathFiles config := by
  intro site _ isTls
  obtain ⟨tls, same⟩ := Option.isSome_iff_exists.mp isTls
  rw [siteKey, SiteConfig.tlsEntry, same]
  rfl

theorem startAll_certificates_names :
    (startAll (acceptorOf pathFiles) id namesConfig).result = .ok () ∧
    ∃ entries resolver,
      .https (.v4 .unspecified 8443) entries ∈
        (startAll (acceptorOf pathFiles) id namesConfig).listeners ∧
      buildTlsAcceptor pathFiles entries none = .ok resolver ∧
      resolver.entries.keys.length = 2 ∧
      resolver.resolve (some "a.ORG".toList) = some ⟨["c.pem".toList], "k.pem".toList⟩ := by
  obtain ⟨starts, served⟩ := startAll_certificates names_accepted (@pathFiles_load namesConfig)
  have same : namesConfig.sites.entries.Perm namesConfig.sites.entries := List.Perm.refl _
  have here : listensOn (.v4 .unspecified 8443) (tlsSite "A.org:8443".toList) = true := rfl
  have member : tlsSite "A.org:8443".toList ∈ namesConfig.values := List.mem_cons_self ..
  have sites : (namesConfig.values.filter (listensOn (.v4 .unspecified 8443))).length = 2 := rfl
  obtain ⟨_, _, both⟩ := served (.v4 .unspecified 8443) ⟨_, member, here, rfl⟩
  obtain ⟨entries, resolver, listens, built, names, named, _⟩ := both namesConfig same id walk_id
  refine ⟨(starts namesConfig same id walk_id).1, entries, resolver, (listens entries).mpr rfl,
    built, ?_, ?_⟩
  · rw [names.length_eq, List.length_map, sites]
  · exact (named _ (List.mem_filter.mpr ⟨member, here⟩) _ rfl).1

end TinyProxy
