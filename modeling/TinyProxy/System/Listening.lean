import TinyProxy.Proxy.Upgrade
import TinyProxy.System.Progress

/-!
# What an update does not reach

The sockets and the certificates are set up when the server starts.  An update
replaces the configuration that requests are routed by and nothing else.
-/

set_option autoImplicit false

namespace TinyProxy

open Rust Http Linearization Transition

section Runs
variable {codec : Codec} {started : Started} {start : Config} {maxConcurrency : Nat}
variable {events : List SystemEvent} {s : System}

theorem loops_run (reached :
      run (System.step codec) (started.system start maxConcurrency) events = some s) :
    s.loops.map Prod.fst = started.listeners.map AcceptLoop.listener ++
      started.redirects.map AcceptLoop.redirect := by
  refine @Transition.run_invariant System SystemEvent (System.step codec)
    (fun s => s.loops.map Prod.fst = started.listeners.map AcceptLoop.listener ++
      started.redirects.map AcceptLoop.redirect) ?_ events _ s ?_ reached
  · intro s event next same step
    rw [loops_step step, same]
  · simp [Started.system, Started.serve, Function.comp_def]

theorem mem_loops_iff {listener : Listener} (reached :
      run (System.step codec) (started.system start maxConcurrency) events = some s) :
    (∃ state, (.listener listener, state) ∈ s.loops) ↔ listener ∈ started.listeners := by
  have same := loops_run reached
  have among : (∃ state, (AcceptLoop.listener listener, state) ∈ s.loops) ↔
      AcceptLoop.listener listener ∈ s.loops.map Prod.fst := by
    simp
  rw [among, same]
  simp

end Runs

section Updates
variable {Cert Key SigningKey : Type} {files : PemFiles Cert Key SigningKey}
variable {walk : List (SocketAddr × List SiteConfig) → List (SocketAddr × List SiteConfig)}
variable {start : Config} {listenAddr : SocketAddr}

/-- One socket for each address that a site resolves to. -/
theorem startAll_listens_iff (valid : ValidSockets start) (loads : KeysLoad files start)
    (order : ∀ groups, (walk groups).Perm groups) :
    (∃ listener ∈ (startAll (acceptorOf files) walk start).listeners,
      listener.socket = listenAddr) ↔
    ∃ site ∈ start.values, listensOn listenAddr site = true := by
  obtain ⟨groups, grouped, run, _⟩ :=
    @startAll_groups start (acceptorOf files) walk valid.resolves order
  have listeners := (startGroups_valid valid (certificatesLoad_of_keysLoad loads) grouped).1
  rw [run, listeners, ← mem_keys_iff grouped, List.mem_map]
  constructor
  · rintro ⟨listener, isListener, rfl⟩
    obtain ⟨group, member, rfl⟩ := List.mem_map.mp isListener
    exact ⟨group, member, (groupListener_socket group).symm⟩
  · rintro ⟨group, member, rfl⟩
    exact ⟨_, List.mem_map_of_mem member, groupListener_socket group⟩

/-- The certificates of a TLS socket are those of the sites it was started with. -/
theorem startAll_serves (valid : ValidSockets start) (loads : KeysLoad files start)
    (order : ∀ groups, (walk groups).Perm groups) {entries : List TlsEntry}
    (listens : .https listenAddr entries ∈ (startAll (acceptorOf files) walk start).listeners) :
    ∃ fallback ∈ start.values.filter (listensOn listenAddr), ∃ resolver,
      buildTlsAcceptor files entries none = .ok resolver ∧
      Serves files (start.values.filter (listensOn listenAddr)) fallback resolver := by
  obtain ⟨rfl, some_⟩ :=
    (startAll_https_iff valid (certificatesLoad_of_keysLoad loads) order).mp listens
  obtain ⟨entry, isEntry⟩ := List.exists_mem_of_ne_nil _ some_
  obtain ⟨secured, member, here, entryOf⟩ := mem_boundEntries.mp isEntry
  exact boundEntries_serves valid loads member here (isTls_of_tlsEntry entryOf)

/-- Whatever becomes live: the sockets are those of the configuration at the start, and a site
of the live configuration is offered the certificate of the site that had its name there, or
else that of the one site of the socket that stands in for unknown names. -/
theorem updates_keep_listeners {codec : Codec} {content : Str} {maxConcurrency : Nat}
    {events : List SystemEvent} {s : System}
    (accepted : Config.fromStr codec.parser content = .ok start) (loads : KeysLoad files start)
    (order : ∀ groups, (walk groups).Perm groups)
    (reached : run (System.step codec)
      ((startAll (acceptorOf files) walk start).system start maxConcurrency) events = some s) :
    (∀ listenAddr, (∃ listener state, (.listener listener, state) ∈ s.loops ∧
        listener.socket = listenAddr) ↔
      ∃ site ∈ start.values, listensOn listenAddr site = true) ∧
    ∀ listenAddr entries state, (.listener (.https listenAddr entries), state) ∈ s.loops →
      ∃ fallback ∈ start.values, listensOn listenAddr fallback = true ∧ ∃ resolver,
        buildTlsAcceptor files entries none = .ok resolver ∧
        ∀ site ∈ s.cell.config.values,
          (∃ old ∈ start.values, listensOn listenAddr old = true ∧ sniName old = sniName site ∧
            resolver.resolve (some (extractHostname site.address)) = siteKey files old) ∨
          (∀ old ∈ start.values, listensOn listenAddr old = true → sniName old ≠ sniName site) ∧
            resolver.resolve (some (extractHostname site.address)) = siteKey files fallback := by
  have valid := validSockets_of_accepted accepted
  constructor
  · intro listenAddr
    rw [← startAll_listens_iff valid loads order]
    constructor
    · rintro ⟨listener, state, member, socket⟩
      exact ⟨listener, (mem_loops_iff reached).mp ⟨state, member⟩, socket⟩
    · rintro ⟨listener, member, socket⟩
      obtain ⟨state, isLoop⟩ := (mem_loops_iff reached).mpr member
      exact ⟨listener, state, isLoop, socket⟩
  · intro listenAddr entries state isLoop
    obtain ⟨fallback, isFallback, resolver, built, serves⟩ :=
      startAll_serves valid loads order ((mem_loops_iff reached).mp ⟨state, isLoop⟩)
    obtain ⟨inStart, here⟩ := List.mem_filter.mp isFallback
    refine ⟨fallback, inStart, here, resolver, built, fun site _ => ?_⟩
    by_cases known : ∃ old ∈ start.values.filter (listensOn listenAddr), sniName old = sniName site
    · obtain ⟨old, isOld, sameName⟩ := known
      obtain ⟨oldIn, oldHere⟩ := List.mem_filter.mp isOld
      have ignoringCase : eqIgnoreAsciiCase (extractHostname site.address)
          (extractHostname old.address) = true := decide_eq_true sameName.symm
      exact Or.inl ⟨old, oldIn, oldHere, sameName, (serves.named old isOld _ ignoringCase).1⟩
    · push Not at known
      refine Or.inr ⟨fun old oldIn oldHere =>
        known old (List.mem_filter.mpr ⟨oldIn, oldHere⟩), serves.unnamed _ ?_⟩
      rintro _ ⟨⟩ isName
      obtain ⟨old, isOld, sameName⟩ := List.mem_map.mp isName
      exact known old isOld sameName

end Updates

/-! ## A site that is added -/

def addedSite : SiteConfig :=
  ⟨"c.org:8443".toList, [.respond 200 []], some ⟨"new.pem".toList, "new.key".toList⟩⟩

/-- The configuration at the start, and one more name on its socket. -/
def addedConfig : Config := ⟨namesConfig.sites.insert "c.org:8443".toList addedSite⟩

def addName : List SystemEvent :=
  [.connect false, .client 0 (.receive (.updateConfig addedConfig)), .client 0 .touch]

/-- Clients of the new site are offered the certificate of an old one. -/
theorem updates_keep_listeners_added : ∃ s listenAddr entries resolver,
    run (System.step plainCodec) ((startAll (acceptorOf pathFiles) id namesConfig).system
      namesConfig 1) addName = some s ∧ s.cell.config = addedConfig ∧
    .https listenAddr entries ∈ (startAll (acceptorOf pathFiles) id namesConfig).listeners ∧
    buildTlsAcceptor pathFiles entries none = .ok resolver ∧
    resolver.resolve (some "c.org".toList) = some ⟨["c.pem".toList], "k.pem".toList⟩ ∧
    siteKey pathFiles addedSite = some ⟨["new.pem".toList], "new.key".toList⟩ := by
  have both : ∀ {claim : SiteConfig → Prop}, claim (tlsSite "A.org:8443".toList) →
      claim (tlsSite "b.org:8443".toList) → ∀ site ∈ namesConfig.values, claim site := by
    intro claim first second site member
    rcases List.mem_cons.mp member with rfl | later
    · exact first
    · obtain rfl := List.mem_singleton.mp later
      exact second
  have isSite : tlsSite "A.org:8443".toList ∈ namesConfig.values := List.mem_cons_self ..
  obtain ⟨entries, _, listens, _⟩ := @startAll_secures Str Str Str pathFiles id namesConfig
    (.v4 .unspecified 8443) _ (validSockets_of_accepted names_accepted) pathFiles_load walk_id
    isSite rfl rfl
  have ran : ∃ s, run (System.step plainCodec)
      ((startAll (acceptorOf pathFiles) id namesConfig).system namesConfig 1) addName = some s ∧
      s.cell.config = addedConfig := ⟨_, rfl, rfl⟩
  obtain ⟨s, reached, live⟩ := ran
  obtain ⟨state, isLoop⟩ := (mem_loops_iff reached).mpr listens
  obtain ⟨fallback, isFallback, _, resolver, built, offers⟩ :=
    (@updates_keep_listeners Str Str Str pathFiles id namesConfig plainCodec namesText 1 addName
      s names_accepted pathFiles_load walk_id reached).2 _ entries state isLoop
  have isAdded : addedSite ∈ s.cell.config.values := by
    rw [live]
    exact List.mem_cons_self ..
  refine ⟨s, _, entries, resolver, reached, live, listens, built, ?_, rfl⟩
  rcases offers addedSite isAdded with ⟨old, isOld, _, sameName, _⟩ | ⟨_, offered⟩
  · have other : ∀ site ∈ namesConfig.values, sniName site ≠ sniName addedSite :=
      both (by decide) (by decide)
    exact absurd sameName (other old isOld)
  · have old : ∀ site ∈ namesConfig.values,
        siteKey pathFiles site = some ⟨["c.pem".toList], "k.pem".toList⟩ := both rfl rfl
    exact offered.trans (old fallback isFallback)

end TinyProxy
