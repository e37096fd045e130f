import TinyProxy.Proxy.Listen
import TinyProxy.Config.Sockets

/-!
# The two start modes

`startWithAddr` compares address texts, `startAll` the sockets they resolve to.
The two agree on socket addresses as written; `localhost` and a bare IP address
are bound on every interface by one and expected on their own by the other.
-/

set_option autoImplicit false

namespace TinyProxy

open Rust

/-! ## Address forms -/

/-- The interface that `siteAddrMatches` insists on, if any. -/
def namedInterface (siteAddress : Str) : Option IpAddr :=
  let host := hostText siteAddress
  if host = [] ∨ host = "0.0.0.0".toList ∨ host = "::".toList then none
  else if host = "localhost".toList then some (.v4 .localhost)
  else parseIpAddr host

theorem siteAddrMatches_iff {siteAddress : Str} {listenAddr : SocketAddr} :
    siteAddrMatches siteAddress listenAddr = true ↔
      parseU16 (afterLast ':' siteAddress) = some listenAddr.port ∧
        ∀ ip, namedInterface siteAddress = some ip → ip = listenAddr.ip := by
  unfold siteAddrMatches namedInterface
  generalize hostText siteAddress = host, "0.0.0.0".toList = anyV4, "::".toList = anyV6,
    "localhost".toList = localhost
  cases port : parseU16 (afterLast ':' siteAddress) with
  | none => simp
  | some sitePort =>
      by_cases samePort : sitePort = listenAddr.port
      · by_cases wildcard : host = [] ∨ host = anyV4 ∨ host = anyV6
        · simp [samePort, wildcard]
        · by_cases isLocal : host = localhost
          · simp [samePort, if_neg wildcard, if_pos isLocal]
          · cases literal : parseIpAddr host <;>
              simp [samePort, if_neg wildcard, if_neg isLocal, literal]
      · simp [samePort]

/-- The address resolves to every interface although it names another one. -/
def Misread (siteAddress : Str) : Prop :=
  parseSocketAddr siteAddress = none ∧
    ∃ ip, namedInterface siteAddress = some ip ∧ ip ≠ .v4 .unspecified

/-- The address resolves elsewhere but passes for `listenAddr`. -/
def Stray (siteAddress : Str) (listenAddr : SocketAddr) : Prop :=
  resolveListenAddr siteAddress ≠ .ok listenAddr ∧
    parseU16 (afterLast ':' siteAddress) = some listenAddr.port ∧
      ∀ ip, namedInterface siteAddress = some ip → ip = listenAddr.ip

theorem resolve_socket {siteAddress : Str} {addr : SocketAddr}
    (parsed : parseSocketAddr siteAddress = some addr) :
    resolveListenAddr siteAddress = .ok addr := by
  rw [resolveListenAddr, parsed]

theorem resolve_port {siteAddress : Str} {listenAddr : SocketAddr}
    (unparsed : parseSocketAddr siteAddress = none) :
    resolveListenAddr siteAddress = .ok listenAddr ↔
      ∃ port, parseU16 (afterLast ':' siteAddress) = some port ∧
        listenAddr = .v4 .unspecified port := by
  rw [resolveListenAddr, unparsed]
  cases parseU16 (afterLast ':' siteAddress) with
  | none => simp
  | some port => simp [eq_comm]

theorem parts_of_split (host : Str) {port : Str} (clear : ':' ∉ port) :
    hostText (host ++ ':' :: port) = host ∧ afterLast ':' (host ++ ':' :: port) = port := by
  unfold hostText afterLast
  rw [rsplitOnce_append clear]
  exact ⟨rfl, rfl⟩

/-- A bracketed address names no interface to insist on. -/
theorem namedInterface_bracket {siteAddress inside : Str}
    (host : hostText siteAddress = '[' :: inside) : namedInterface siteAddress = none := by
  unfold namedInterface
  rw [host, if_neg (by simp), if_neg (by simp)]
  exact parseIpAddr_bracket inside

/-- A socket address passes for itself. -/
theorem siteAddrMatches_socket {siteAddress : Str} {addr : SocketAddr}
    (parsed : parseSocketAddr siteAddress = some addr) :
    siteAddrMatches siteAddress addr = true := by
  obtain ⟨host, digits, rfl, clear, port, form⟩ := parseSocketAddr_shape parsed
  obtain ⟨hostIs, portIs⟩ := parts_of_split host clear
  refine siteAddrMatches_iff.mpr ⟨by rw [portIs, port], ?_⟩
  rcases form with ⟨ip, isV4, literal⟩ | ⟨lead, tail, rfl, _⟩
  · intro named insists
    unfold namedInterface at insists
    rw [hostIs] at insists
    by_cases wildcard : host = [] ∨ host = "0.0.0.0".toList ∨ host = "::".toList
    · rw [if_pos wildcard] at insists
      cases insists
    · rw [if_neg wildcard] at insists
      have notLocalhost : host ≠ "localhost".toList := by
        rintro rfl
        have unparsed : parseIpAddr "localhost".toList = none := by rfl
        rw [unparsed] at literal
        cases literal
      rw [if_neg notLocalhost, literal] at insists
      rw [isV4, ← Option.some.inj insists]
      rfl
  · intro named insists
    rw [namedInterface_bracket hostIs] at insists
    cases insists

/-- An address passes for the socket it resolves to unless it is misread. -/
theorem siteAddrMatches_resolved_iff {siteAddress : Str} {listenAddr : SocketAddr}
    (resolved : resolveListenAddr siteAddress = .ok listenAddr) :
    siteAddrMatches siteAddress listenAddr = true ↔ ¬ Misread siteAddress := by
  cases parsed : parseSocketAddr siteAddress with
  | some addr =>
      rw [resolve_socket parsed] at resolved
      obtain rfl := Except.ok.inj resolved
      simp [siteAddrMatches_socket parsed, Misread, parsed]
  | none =>
      obtain ⟨port, portIs, rfl⟩ := (resolve_port parsed).mp resolved
      rw [siteAddrMatches_iff]
      constructor
      · rintro ⟨_, only⟩ ⟨_, ip, named, other⟩
        exact other (only ip named)
      · intro understood
        refine ⟨portIs, fun ip named => ?_⟩
        by_contra other
        exact understood ⟨parsed, ip, named, other⟩

theorem stray_iff {siteAddress : Str} {listenAddr : SocketAddr} :
    Stray siteAddress listenAddr ↔ siteAddrMatches siteAddress listenAddr = true ∧
      resolveListenAddr siteAddress ≠ .ok listenAddr := by
  rw [siteAddrMatches_iff, Stray, and_comm]

/-! ## Host names of the two kinds -/

/-- Up to its first bracket a misread address has no colon. -/
theorem hostname_misread {siteAddress : Str} (misread : Misread siteAddress) :
    ':' ∉ extractHostname siteAddress := by
  obtain ⟨_, ip, named, _⟩ := misread
  have noBracket : startsWith ['['] siteAddress = false := by
    cases siteAddress with
    | nil => rfl
    | cons c rest =>
        by_contra bracket
        have isBracket : '[' = c := by simpa [startsWith] using bracket
        subst isBracket
        cases cut : rsplitOnce ':' ('[' :: rest) with
        | none =>
            have wildcard : hostText ('[' :: rest) = [] := by rw [hostText, cut]; rfl
            simp [namedInterface, wildcard] at named
        | some parts =>
            obtain ⟨host, port⟩ := parts
            obtain ⟨split, _⟩ := rsplitOnce_sound cut
            have hostIs : hostText ('[' :: rest) = host := by rw [hostText, cut]; rfl
            cases host with
            | nil => simp at split
            | cons d inside =>
                obtain ⟨rfl, _⟩ := List.cons.inj split
                rw [namedInterface_bracket hostIs] at named
                cases named
  rw [extractHostname, noBracket]
  intro colon
  simpa using List.mem_takeWhile_imp colon

/-- What stands between the brackets of a socket address has a colon. -/
theorem hostname_bracket {lead tail digits : Str} (clear : ']' ∉ lead) :
    ':' ∈ extractHostname ('[' :: (lead ++ ':' :: tail ++ [']']) ++ ':' :: digits) := by
  rw [extractHostname, if_pos (by rfl)]
  cases cut : Text.splitOnce [']']
      ('[' :: (lead ++ ':' :: tail ++ [']']) ++ ':' :: digits) with
  | none =>
      have absent := Text.splitOnce_singleton_eq_none_iff.mp cut
      simp at absent
  | some parts =>
      obtain ⟨before, after⟩ := parts
      have whole := Text.splitOnce_eq_append cut
      have first : before ++ ']' :: after =
          ('[' :: lead) ++ ':' :: (tail ++ [']'] ++ ':' :: digits) := by
        simpa using whole.symm
      obtain ⟨more, rfl⟩ := Text.append_cons_extends first (by simpa using clear) (by decide)
      simp

/-- An address that is stray where a misread one is bound has another host name. -/
theorem hostname_stray {siteAddress other : Str} {listenAddr : SocketAddr}
    (stray : Stray siteAddress listenAddr) (misread : Misread other)
    (resolved : resolveListenAddr other = .ok listenAddr) :
    extractHostname siteAddress ≠ extractHostname other := by
  obtain ⟨elsewhere, portIs, insists⟩ := stray
  obtain ⟨port, _, rfl⟩ := (resolve_port misread.1).mp resolved
  cases parsed : parseSocketAddr siteAddress with
  | none => exact absurd ((resolve_port parsed).mpr ⟨port, portIs, rfl⟩) elsewhere
  | some addr =>
      obtain ⟨host, digits, rfl, clear, portRead, form⟩ := parseSocketAddr_shape parsed
      obtain ⟨hostIs, digitsIs⟩ := parts_of_split host clear
      rw [digitsIs, portRead] at portIs
      have samePort : addr.port = port := Option.some.inj portIs
      rcases form with ⟨ip, isV4, literal⟩ | ⟨lead, tail, rfl, noBracket⟩
      · -- an IPv4 host is either every interface or insists on itself
        have everywhere : ip = .unspecified := by
          unfold namedInterface at insists
          rw [hostIs] at insists
          by_cases wildcard : host = [] ∨ host = "0.0.0.0".toList ∨ host = "::".toList
          · rcases wildcard with rfl | rfl | rfl
            · cases literal
            · have unspecified : parseIpAddr "0.0.0.0".toList = some (.v4 .unspecified) := by rfl
              rw [unspecified] at literal
              exact (IpAddr.v4.inj (Option.some.inj literal)).symm
            · have v6 : ∃ ip6, parseIpAddr "::".toList = some (.v6 ip6) := ⟨_, rfl⟩
              obtain ⟨ip6, v6⟩ := v6
              rw [v6] at literal
              cases literal
          · by_cases isLocal : host = "localhost".toList
            · rw [isLocal] at literal
              have unparsed : parseIpAddr "localhost".toList = none := by rfl
              rw [unparsed] at literal
              cases literal
            · rw [if_neg wildcard, if_neg isLocal, literal] at insists
              exact IpAddr.v4.inj (insists _ rfl)
        refine absurd ?_ elsewhere
        rw [resolve_socket parsed, isV4, everywhere, samePort]
      · intro same
        exact hostname_misread misread (same ▸ hostname_bracket noBracket)

/-! ## The listeners of `startAll` -/

/-- The groups hold the sites, each under its socket, in the order they came. -/
def GroupedBy (sites : List SiteConfig) (groups : SocketGroups) : Prop :=
  ∀ listenAddr, groups.lookup listenAddr =
    if sites.filter (listensOn listenAddr) = [] then none
    else some (sites.filter (listensOn listenAddr))

theorem groupSites_grouped : ∀ {rest done : List SiteConfig} {groups : SocketGroups},
    GroupedBy done groups →
    (∀ site ∈ rest, ∃ listenAddr, resolveListenAddr site.address = .ok listenAddr) →
    ∃ final, groupSites rest groups = .ok final ∧ GroupedBy (done ++ rest) final := by
  intro rest
  induction rest with
  | nil =>
      intro done groups grouped _
      exact ⟨groups, rfl, by rwa [List.append_nil]⟩
  | cons site rest ih =>
      intro done groups grouped resolves
      obtain ⟨own, resolved⟩ := resolves site (List.mem_cons_self ..)
      have here : listensOn own site = true := listensOn_iff.mpr resolved
      have next : GroupedBy (done ++ [site])
          (groups.insert own ((groups.lookup own).getD [] ++ [site])) := by
        intro listenAddr
        by_cases same : listenAddr = own
        · subst same
          rw [AList.lookup_insert, grouped]
          by_cases first : done.filter (listensOn listenAddr) = []
          · simp [first, here]
          · simp [first, here]
        · have elsewhere : listensOn listenAddr site = false := by
            rw [Bool.eq_false_iff, ne_eq, listensOn_iff, resolved]
            intro sameAddr
            exact same (Except.ok.inj sameAddr).symm
          rw [AList.lookup_insert_ne same, grouped]
          simp [elsewhere]
      obtain ⟨final, run, whole⟩ :=
        ih next fun later member => resolves later (List.mem_cons_of_mem _ member)
      refine ⟨final, ?_, by rwa [List.append_assoc] at whole⟩
      rw [groupSites, resolved]
      exact run

def tlsEntriesOf (sites : List SiteConfig) : List TlsEntry :=
  (sites.filter fun site => site.tls.isSome).filterMap SiteConfig.tlsEntry

theorem mem_tlsEntriesOf {sites : List SiteConfig} {entry : TlsEntry} :
    entry ∈ tlsEntriesOf sites ↔ ∃ site ∈ sites, site.tlsEntry = some entry := by
  unfold tlsEntriesOf
  rw [List.mem_filterMap]
  constructor
  · rintro ⟨site, member, isEntry⟩
    exact ⟨site, (List.mem_filter.mp member).1, isEntry⟩
  · rintro ⟨site, member, isEntry⟩
    refine ⟨site, List.mem_filter.mpr ⟨member, ?_⟩, isEntry⟩
    obtain ⟨tls, isTls, _⟩ := Option.map_eq_some_iff.mp isEntry
    rw [isTls]
    rfl

theorem tlsEntriesOf_eq_nil_iff {sites : List SiteConfig} :
    tlsEntriesOf sites = [] ↔ sites.filter (fun site => site.tls.isSome) = [] := by
  rw [List.eq_nil_iff_forall_not_mem, List.eq_nil_iff_forall_not_mem]
  constructor
  · intro nothing site member
    obtain ⟨inSites, isTls⟩ := List.mem_filter.mp member
    obtain ⟨tls, same⟩ := Option.isSome_iff_exists.mp isTls
    exact nothing (extractHostname site.address, tls)
      (mem_tlsEntriesOf.mpr ⟨site, inSites, by rw [SiteConfig.tlsEntry, same]; rfl⟩)
  · intro nothing entry member
    obtain ⟨site, inSites, isEntry⟩ := mem_tlsEntriesOf.mp member
    obtain ⟨tls, isTls, _⟩ := Option.map_eq_some_iff.mp isEntry
    exact nothing site (List.mem_filter.mpr ⟨inSites, by rw [isTls]; rfl⟩)

def groupListener (group : SocketAddr × List SiteConfig) : Listener :=
  if tlsEntriesOf group.2 ≠ [] then .https group.1 (tlsEntriesOf group.2) else .http group.1

/-- One listener for each group, when no group is mixed and all certificates load. -/
theorem startGroups_listeners {buildTlsAcceptor : List TlsEntry → Except Str Unit} :
    ∀ {groups : List (SocketAddr × List SiteConfig)},
    (∀ group ∈ groups, ∀ first ∈ group.2, ∀ second ∈ group.2,
      first.tls.isSome = second.tls.isSome) →
    (∀ group ∈ groups, tlsEntriesOf group.2 ≠ [] →
      buildTlsAcceptor (tlsEntriesOf group.2) = .ok ()) →
    (startGroups buildTlsAcceptor groups).listeners = groups.map groupListener ∧
      (startGroups buildTlsAcceptor groups).result = .ok () := by
  intro groups
  induction groups with
  | nil => intro _ _; exact ⟨rfl, rfl⟩
  | cons group rest ih =>
      intro uniform loads
      obtain ⟨listenAddr, sites⟩ := group
      obtain ⟨listeners, result⟩ := ih
        (fun later member => uniform later (List.mem_cons_of_mem _ member))
        (fun later member => loads later (List.mem_cons_of_mem _ member))
      have load := loads (listenAddr, sites) (List.mem_cons_self ..)
      rw [startGroups]
      dsimp only
      have unmixed : ¬ ((sites.filter fun site => site.tls.isSome) ≠ [] ∧
          (sites.filter fun site => site.tls.isSome).length ≠ sites.length) := by
        rintro ⟨someTls, somePlain⟩
        obtain ⟨first, isTls⟩ := List.exists_mem_of_ne_nil _ someTls
        obtain ⟨inSites, isTls⟩ := List.mem_filter.mp isTls
        apply somePlain
        rw [List.length_filter_eq_length_iff]
        intro second member
        rw [uniform _ (List.mem_cons_self ..) second member first inSites]
        exact isTls
      rw [if_neg unmixed]
      by_cases anyTls : tlsEntriesOf sites = []
      · rw [if_neg (not_not.mpr (tlsEntriesOf_eq_nil_iff.mp anyTls))]
        exact ⟨by simp [listeners, groupListener, anyTls], result⟩
      · rw [if_pos (fun nothing => anyTls (tlsEntriesOf_eq_nil_iff.mpr nothing))]
        have loaded : buildTlsAcceptor ((sites.filter fun site => site.tls.isSome).filterMap
            SiteConfig.tlsEntry) = .ok () := load anyTls
        have isHttps : groupListener (listenAddr, sites) =
            .https listenAddr (tlsEntriesOf sites) := if_pos anyTls
        rw [loaded, List.map_cons, isHttps, ← listeners]
        exact ⟨rfl, result⟩

/-! ## Agreement -/

section Agreement
variable {config : Config} {listenAddr : SocketAddr}
variable {buildTlsAcceptor : List TlsEntry → Except Str Unit}

/-- The certificates the configuration names can be loaded. -/
def CertificatesLoad (config : Config) (buildTlsAcceptor : List TlsEntry → Except Str Unit) :
    Prop :=
  ∀ entries, entries ≠ [] →
    (∀ entry ∈ entries, ∃ site ∈ config.values, site.tlsEntry = some entry) →
      buildTlsAcceptor entries = .ok ()

def boundEntries (config : Config) (listenAddr : SocketAddr) : List TlsEntry :=
  tlsEntriesOf (config.values.filter (listensOn listenAddr))

theorem mem_boundEntries {entry : TlsEntry} : entry ∈ boundEntries config listenAddr ↔
    ∃ site ∈ config.values, listensOn listenAddr site = true ∧ site.tlsEntry = some entry := by
  simp [boundEntries, mem_tlsEntriesOf, and_assoc]

theorem mem_matchedEntries {entry : TlsEntry} : entry ∈ matchedEntries config listenAddr ↔
    ∃ site ∈ config.values, siteAddrMatches site.address listenAddr = true ∧
      site.tlsEntry = some entry := by
  have same : matchedEntries config listenAddr =
      tlsEntriesOf (config.values.filter fun site => siteAddrMatches site.address listenAddr) := by
    unfold matchedEntries tlsEntriesOf
    rw [List.filter_filter]
    congr 2
    funext site
    exact Bool.and_comm _ _
  simp [same, mem_tlsEntriesOf, and_assoc]

theorem startWithAddr_https_iff (loads : CertificatesLoad config buildTlsAcceptor)
    {entries : List TlsEntry} :
    startWithAddr buildTlsAcceptor config listenAddr = .ok (.https listenAddr entries) ↔
      entries = matchedEntries config listenAddr ∧ entries ≠ [] := by
  unfold startWithAddr
  by_cases nothing : matchedEntries config listenAddr = []
  · simp only [nothing, ne_eq, not_true_eq_false, if_false]
    constructor
    · intro started
      cases started
    · rintro ⟨same, some_⟩
      exact absurd same some_
  · have loaded : buildTlsAcceptor (matchedEntries config listenAddr) = .ok () :=
      loads _ nothing fun entry member => by
        obtain ⟨site, inConfig, _, isEntry⟩ := mem_matchedEntries.mp member
        exact ⟨site, inConfig, isEntry⟩
    dsimp only
    rw [if_pos nothing, loaded]
    constructor
    · intro started
      obtain ⟨_, rfl⟩ := Listener.https.inj (Except.ok.inj started)
      exact ⟨rfl, nothing⟩
    · rintro ⟨rfl, _⟩
      rfl

variable {walk : List (SocketAddr × List SiteConfig) → List (SocketAddr × List SiteConfig)}

/-- The sites, grouped by their sockets. -/
structure GroupsOf (config : Config) (groups : List (SocketAddr × List SiteConfig)) : Prop where
  keys : (groups.map Prod.fst).Nodup
  sites : ∀ group, group ∈ groups ↔
    group.2 = config.values.filter (listensOn group.1) ∧ group.2 ≠ []

section Groups
variable {groups : List (SocketAddr × List SiteConfig)}

theorem GroupsOf.mem_iff (grouped : GroupsOf config groups)
    {group : SocketAddr × List SiteConfig} (member : group ∈ groups) {site : SiteConfig} :
    site ∈ group.2 ↔ site ∈ config.values ∧ listensOn group.1 site = true := by
  rw [((grouped.sites group).mp member).1, List.mem_filter]

/-- The group of a site. -/
theorem GroupsOf.mem_of_listensOn (grouped : GroupsOf config groups) {site : SiteConfig}
    (member : site ∈ config.values) (here : listensOn listenAddr site = true) :
    (listenAddr, config.values.filter (listensOn listenAddr)) ∈ groups :=
  (grouped.sites _).mpr ⟨rfl, List.ne_nil_of_mem (List.mem_filter.mpr ⟨member, here⟩)⟩

theorem GroupsOf.nonempty (grouped : GroupsOf config groups)
    {group : SocketAddr × List SiteConfig} (member : group ∈ groups) : ∃ site, site ∈ group.2 :=
  List.exists_mem_of_ne_nil _ ((grouped.sites group).mp member).2

/-- On valid sockets the sites of a group agree on TLS. -/
theorem GroupsOf.uniform (grouped : GroupsOf config groups) (valid : ValidSockets config)
    {group : SocketAddr × List SiteConfig} (member : group ∈ groups) {first second : SiteConfig}
    (isFirst : first ∈ group.2) (isSecond : second ∈ group.2) :
    first.tls.isSome = second.tls.isSome := by
  obtain ⟨firstIn, firstHere⟩ := (grouped.mem_iff member).mp isFirst
  obtain ⟨secondIn, secondHere⟩ := (grouped.mem_iff member).mp isSecond
  exact valid.uniform first firstIn second secondIn group.1 firstHere secondHere

end Groups

/-- `startAll` walks the sites grouped by their sockets. -/
theorem startAll_groups (resolves : ∀ site ∈ config.values, ∃ listenAddr,
      resolveListenAddr site.address = .ok listenAddr)
    (order : ∀ groups, (walk groups).Perm groups) :
    ∃ groups : List (SocketAddr × List SiteConfig), GroupsOf config groups ∧
      (startAll buildTlsAcceptor walk config).listeners =
        (startGroups buildTlsAcceptor groups).listeners ∧
      (startAll buildTlsAcceptor walk config).result =
        (startGroups buildTlsAcceptor groups).result ∧
      ((startGroups buildTlsAcceptor groups).result = .ok () ∧
          (startAll buildTlsAcceptor walk config).redirects =
            (startGroups buildTlsAcceptor groups).redirects ∨
        (∃ e, (startGroups buildTlsAcceptor groups).result = .error e) ∧
          (startAll buildTlsAcceptor walk config).redirects = []) := by
  have empty : GroupedBy [] ∅ := fun listenAddr => by simp
  obtain ⟨groups, run, grouped⟩ := groupSites_grouped empty resolves
  rw [List.nil_append] at grouped
  refine ⟨walk (groups.entries.map fun entry => (entry.1, entry.2)), ⟨?_, ?_⟩, ?_⟩
  · have keys : (groups.entries.map fun entry => (entry.1, entry.2)).map Prod.fst = groups.keys := by
      rw [List.map_map]
      rfl
    exact (((order _).map Prod.fst).nodup_iff).mpr (keys ▸ groups.keys_nodup)
  · rintro ⟨addr, sites⟩
    rw [(order _).mem_iff]
    have entry : (addr, sites) ∈ groups.entries.map (fun entry => (entry.1, entry.2)) ↔
        groups.lookup addr = some sites := by
      rw [← Option.mem_def, AList.mem_lookup_iff, List.mem_map]
      constructor
      · rintro ⟨⟨_, _⟩, member, same⟩
        cases same
        exact member
      · intro member
        exact ⟨⟨addr, sites⟩, member, rfl⟩
    rw [entry, grouped]
    split
    next nothing => simp [nothing]
    next some_ =>
      constructor
      · intro same
        obtain rfl := Option.some.inj same
        exact ⟨rfl, some_⟩
      · rintro ⟨same, _⟩
        exact congrArg some same.symm
  · rw [startAll, run]
    dsimp only
    cases result : (startGroups buildTlsAcceptor
        (walk (groups.entries.map fun entry => (entry.1, entry.2)))).result with
    | ok => exact ⟨rfl, result, Or.inl ⟨rfl, rfl⟩⟩
    | error e => exact ⟨rfl, rfl, Or.inr ⟨⟨e, rfl⟩, rfl⟩⟩

/-- On valid sockets no group is mixed, so `startAll` starts every group. -/
theorem startGroups_valid (valid : ValidSockets config)
    (loads : CertificatesLoad config buildTlsAcceptor)
    {groups : List (SocketAddr × List SiteConfig)} (grouped : GroupsOf config groups) :
    (startGroups buildTlsAcceptor groups).listeners = groups.map groupListener ∧
      (startGroups buildTlsAcceptor groups).result = .ok () := by
  apply startGroups_listeners
  · intro group member first isFirst second isSecond
    exact grouped.uniform valid member isFirst isSecond
  · intro group member some_
    apply loads _ some_
    intro entry isEntry
    obtain ⟨site, inGroup, same⟩ := mem_tlsEntriesOf.mp isEntry
    exact ⟨site, ((grouped.mem_iff member).mp inGroup).1, same⟩

theorem startAll_https_iff (valid : ValidSockets config)
    (loads : CertificatesLoad config buildTlsAcceptor) (order : ∀ groups, (walk groups).Perm groups)
    {entries : List TlsEntry} :
    .https listenAddr entries ∈ (startAll buildTlsAcceptor walk config).listeners ↔
      entries = boundEntries config listenAddr ∧ entries ≠ [] := by
  obtain ⟨groups, grouped, run, _⟩ :=
    @startAll_groups config buildTlsAcceptor walk valid.resolves order
  rw [run, (startGroups_valid valid loads grouped).1, List.mem_map]
  constructor
  · rintro ⟨⟨addr, sites⟩, member, same⟩
    obtain ⟨isGroup, _⟩ := (grouped.sites _).mp member
    unfold groupListener at same
    split at same
    next some_ =>
      obtain ⟨rfl, rfl⟩ := Listener.https.inj same
      dsimp only at isGroup some_ ⊢
      exact ⟨by rw [isGroup]; rfl, some_⟩
    next => cases same
  · rintro ⟨rfl, some_⟩
    obtain ⟨entry, isEntry⟩ := List.exists_mem_of_ne_nil _ some_
    obtain ⟨site, member, here, _⟩ := mem_boundEntries.mp isEntry
    exact ⟨_, grouped.mem_of_listensOn member here, if_pos some_⟩

/-- Both functions serve the address over TLS or neither does, with the same entries. -/
def SameTls (started : Except Str Listener) (listeners : List Listener)
    (listenAddr : SocketAddr) : Prop :=
  ((∃ entries, started = .ok (.https listenAddr entries)) ↔
    ∃ entries, .https listenAddr entries ∈ listeners) ∧
  ∀ entries others, started = .ok (.https listenAddr entries) →
    .https listenAddr others ∈ listeners → ∀ entry, entry ∈ entries ↔ entry ∈ others

/-- No TLS site bound on the address is misread, and what strays there is already served. -/
structure ReadAlike (config : Config) (listenAddr : SocketAddr) : Prop where
  read : ∀ site ∈ config.values, site.tls.isSome = true → listensOn listenAddr site = true →
    ¬ Misread site.address
  repeated : ∀ site ∈ config.values, site.tls.isSome = true → Stray site.address listenAddr →
    ∃ other ∈ config.values, listensOn listenAddr other = true ∧ other.tls = site.tls ∧
      extractHostname other.address = extractHostname site.address

theorem sameTls_iff_entries (valid : ValidSockets config)
    (loads : CertificatesLoad config buildTlsAcceptor)
    (order : ∀ groups, (walk groups).Perm groups) :
    SameTls (startWithAddr buildTlsAcceptor config listenAddr)
        (startAll buildTlsAcceptor walk config).listeners listenAddr ↔
      ∀ entry, entry ∈ matchedEntries config listenAddr ↔
        entry ∈ boundEntries config listenAddr := by
  unfold SameTls
  simp only [startWithAddr_https_iff loads, startAll_https_iff valid loads order]
  constructor
  · rintro ⟨both, same⟩ entry
    constructor
    · intro member
      obtain ⟨_, rfl, some_⟩ := both.mp ⟨_, rfl, List.ne_nil_of_mem member⟩
      exact (same _ _ ⟨rfl, List.ne_nil_of_mem member⟩ ⟨rfl, some_⟩ entry).mp member
    · intro member
      obtain ⟨_, rfl, some_⟩ := both.mpr ⟨_, rfl, List.ne_nil_of_mem member⟩
      exact (same _ _ ⟨rfl, some_⟩ ⟨rfl, List.ne_nil_of_mem member⟩ entry).mpr member
  · intro same
    refine ⟨⟨?_, ?_⟩, ?_⟩
    · rintro ⟨_, rfl, some_⟩
      obtain ⟨entry, member⟩ := List.exists_mem_of_ne_nil _ some_
      exact ⟨_, rfl, List.ne_nil_of_mem ((same entry).mp member)⟩
    · rintro ⟨_, rfl, some_⟩
      obtain ⟨entry, member⟩ := List.exists_mem_of_ne_nil _ some_
      exact ⟨_, rfl, List.ne_nil_of_mem ((same entry).mpr member)⟩
    · rintro _ _ ⟨rfl, _⟩ ⟨rfl, _⟩ entry
      exact same entry

theorem tlsEntry_eq_some_iff {site : SiteConfig} {entry : TlsEntry} :
    site.tlsEntry = some entry ↔
      extractHostname site.address = entry.1 ∧ site.tls = some entry.2 := by
  unfold SiteConfig.tlsEntry
  cases site.tls with
  | none => simp
  | some tls =>
      rw [Option.map_some, Option.some.injEq, Option.some.injEq, Prod.ext_iff]

theorem isTls_of_tlsEntry {site : SiteConfig} {entry : TlsEntry}
    (same : site.tlsEntry = some entry) : site.tls.isSome = true := by
  rw [(tlsEntry_eq_some_iff.mp same).2]
  rfl

theorem entries_iff_readAlike (valid : ValidSockets config) :
    (∀ entry, entry ∈ matchedEntries config listenAddr ↔
      entry ∈ boundEntries config listenAddr) ↔ ReadAlike config listenAddr := by
  simp only [mem_matchedEntries, mem_boundEntries]
  constructor
  · intro same
    have entryOf : ∀ site : SiteConfig, site.tls.isSome = true →
        ∃ entry, site.tlsEntry = some entry := by
      intro site isTls
      obtain ⟨tls, isTls⟩ := Option.isSome_iff_exists.mp isTls
      exact ⟨(extractHostname site.address, tls), tlsEntry_eq_some_iff.mpr ⟨rfl, isTls⟩⟩
    constructor
    · intro site member isTls here misread
      obtain ⟨entry, isEntry⟩ := entryOf site isTls
      obtain ⟨other, otherMember, matched, otherEntry⟩ :=
        (same entry).mpr ⟨site, member, here, isEntry⟩
      obtain ⟨name, certificate⟩ := tlsEntry_eq_some_iff.mp isEntry
      obtain ⟨otherName, otherCertificate⟩ := tlsEntry_eq_some_iff.mp otherEntry
      have resolved := listensOn_iff.mp here
      by_cases otherHere : listensOn listenAddr other = true
      · -- two sites of one name on one socket are one site, and it is not matched
        have different : other ≠ site := by
          rintro rfl
          exact (siteAddrMatches_resolved_iff resolved).mp matched misread
        apply valid.distinct.forall otherMember member different listenAddr otherHere here
          (by rw [otherCertificate]; rfl) isTls
        rw [sniName, sniName, name, otherName]
      · have stray := stray_iff.mpr ⟨matched, fun elsewhere =>
          otherHere (listensOn_iff.mpr elsewhere)⟩
        exact hostname_stray stray misread resolved (otherName.trans name.symm)
    · intro site member isTls stray
      obtain ⟨entry, isEntry⟩ := entryOf site isTls
      obtain ⟨other, otherMember, here, otherEntry⟩ :=
        (same entry).mp ⟨site, member, (stray_iff.mp stray).1, isEntry⟩
      obtain ⟨name, certificate⟩ := tlsEntry_eq_some_iff.mp isEntry
      obtain ⟨otherName, otherCertificate⟩ := tlsEntry_eq_some_iff.mp otherEntry
      exact ⟨other, otherMember, here, otherCertificate.trans certificate.symm,
        otherName.trans name.symm⟩
  · rintro ⟨read, repeated⟩ entry
    constructor
    · rintro ⟨site, member, matched, isEntry⟩
      by_cases here : listensOn listenAddr site = true
      · exact ⟨site, member, here, isEntry⟩
      · obtain ⟨name, certificate⟩ := tlsEntry_eq_some_iff.mp isEntry
        have stray := stray_iff.mpr ⟨matched, fun elsewhere =>
          here (listensOn_iff.mpr elsewhere)⟩
        obtain ⟨other, otherMember, otherHere, sameTls, sameName⟩ :=
          repeated site member (by rw [certificate]; rfl) stray
        exact ⟨other, otherMember, otherHere,
          tlsEntry_eq_some_iff.mpr ⟨sameName.trans name, sameTls.trans certificate⟩⟩
    · rintro ⟨site, member, here, isEntry⟩
      obtain ⟨_, certificate⟩ := tlsEntry_eq_some_iff.mp isEntry
      have understood := read site member (by rw [certificate]; rfl) here
      exact ⟨site, member, (siteAddrMatches_resolved_iff (listensOn_iff.mp here)).mpr understood,
        isEntry⟩

theorem start_modes_agree_iff {parser : Http.UriParser} {content : Str}
    (accepted : Config.fromStr parser content = .ok config)
    (loads : CertificatesLoad config buildTlsAcceptor)
    (order : ∀ groups, (walk groups).Perm groups) :
    SameTls (startWithAddr buildTlsAcceptor config listenAddr)
        (startAll buildTlsAcceptor walk config).listeners listenAddr ↔
      ReadAlike config listenAddr := by
  have valid := validSockets_of_accepted accepted
  rw [sameTls_iff_entries valid loads order, entries_iff_readAlike valid]

end Agreement

/-! ## Two TLS sites -/

/-- All certificates load. -/
def loadingAcceptor : List TlsEntry → Except Str Unit
  | [] => .error "Cannot build TLS acceptor: no TLS sites provided".toList
  | _ => .ok ()

def tlsSiteText (address : Str) : Str :=
  address ++ " \x7b\n tls c.pem k.pem\n respond 200 ok\n\x7d".toList

def tlsSite (address : Str) : SiteConfig :=
  ⟨address, [.respond 200 "ok".toList], some ⟨"c.pem".toList, "k.pem".toList⟩⟩

def singleSite (site : SiteConfig) : Config :=
  ⟨(∅ : AList fun _ : Str => SiteConfig).insert site.address site⟩

/-- The groups may be walked as they are. -/
theorem walk_id (groups : List (SocketAddr × List SiteConfig)) : (id groups).Perm groups :=
  List.Perm.refl groups

theorem start_modes_agree_iff_dns_name :
    SameTls
      (startWithAddr loadingAcceptor (singleSite (tlsSite "example.com:8443".toList))
        (.v4 .unspecified 8443))
      (startAll loadingAcceptor id (singleSite (tlsSite "example.com:8443".toList))).listeners
      (.v4 .unspecified 8443) := by
  have accepted : Config.fromStr Http.plainUriParser (tlsSiteText "example.com:8443".toList) =
      .ok (singleSite (tlsSite "example.com:8443".toList)) := by rfl
  have loads : CertificatesLoad (singleSite (tlsSite "example.com:8443".toList))
      loadingAcceptor := by
    intro entries some_ _
    cases entries with
    | nil => exact absurd rfl some_
    | cons => rfl
  have only : (singleSite (tlsSite "example.com:8443".toList)).values =
      [tlsSite "example.com:8443".toList] := by rfl
  refine (start_modes_agree_iff accepted loads walk_id).mpr ⟨?_, ?_⟩
  · intro site member _ _ misread
    rw [only] at member
    obtain rfl := List.mem_singleton.mp member
    obtain ⟨_, ip, named, _⟩ := misread
    have dnsName : namedInterface "example.com:8443".toList = none := by rfl
    rw [tlsSite, dnsName] at named
    cases named
  · intro site member _ stray
    rw [only] at member
    obtain rfl := List.mem_singleton.mp member
    exact absurd rfl stray.1

/-- `localhost:8443` is bound on every interface, over TLS by one mode and without it by
the other. -/
theorem local_tls_site_downgraded :
    Config.fromStr Http.plainUriParser (tlsSiteText "localhost:8443".toList) =
        .ok (singleSite (tlsSite "localhost:8443".toList)) ∧
      (startAll loadingAcceptor id (singleSite (tlsSite "localhost:8443".toList))).listeners =
        [.https (.v4 .unspecified 8443)
          [("localhost".toList, ⟨"c.pem".toList, "k.pem".toList⟩)]] ∧
      startWithAddr loadingAcceptor (singleSite (tlsSite "localhost:8443".toList))
          (.v4 .unspecified 8443) = .ok (.http (.v4 .unspecified 8443)) := by
  exact ⟨rfl, rfl, rfl⟩

end TinyProxy
