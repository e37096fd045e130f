import TinyProxy.Proxy.StartModes

/-!
# The sockets that `startAll` binds

Every group has a socket of its own.  The redirect from a TLS port goes to a
port computed from it, which may be in use: by a site, or by the redirect from
another TLS port, as all ports up to 443 redirect from port 80.
-/

set_option autoImplicit false

namespace TinyProxy

open Rust

def Listener.socket : Listener → SocketAddr
  | .http listenAddr => listenAddr
  | .https listenAddr _ => listenAddr

/-- Where the redirect to a TLS socket listens. -/
def redirectAddr (tlsAddr : SocketAddr) : SocketAddr :=
  socketAddr tlsAddr.ip (tlsRedirectPort tlsAddr.port)

/-- Every address that is bound, as often as it is bound. -/
def Started.sockets (started : Started) : List SocketAddr :=
  started.listeners.map Listener.socket ++ started.redirects.map Prod.fst

/-! ## Redirect ports -/

section Groups
variable {buildTlsAcceptor : List TlsEntry → Except Str Unit}

def redirectOf (listenAddr : SocketAddr) : SocketAddr × UInt16 :=
  (redirectAddr listenAddr, listenAddr.port)

/-- One group stops the loop or adds its listener, with a redirect if it serves TLS. -/
theorem startGroups_cons (group : SocketAddr × List SiteConfig)
    (rest : List (SocketAddr × List SiteConfig)) :
    (∃ e, startGroups buildTlsAcceptor (group :: rest) = ⟨[], [], .error e⟩) ∨
    (tlsEntriesOf group.2 ≠ [] ∧ startGroups buildTlsAcceptor (group :: rest) =
      ⟨groupListener group :: (startGroups buildTlsAcceptor rest).listeners,
        (startGroups buildTlsAcceptor rest).redirects.insert (redirectOf group.1),
        (startGroups buildTlsAcceptor rest).result⟩) ∨
    (tlsEntriesOf group.2 = [] ∧ startGroups buildTlsAcceptor (group :: rest) =
      ⟨groupListener group :: (startGroups buildTlsAcceptor rest).listeners,
        (startGroups buildTlsAcceptor rest).redirects,
        (startGroups buildTlsAcceptor rest).result⟩) := by
  obtain ⟨listenAddr, sites⟩ := group
  rw [startGroups]
  dsimp only
  split
  next => exact Or.inl ⟨_, rfl⟩
  next =>
    split
    next someTls =>
      have entries : tlsEntriesOf sites ≠ [] := fun nothing =>
        someTls (tlsEntriesOf_eq_nil_iff.mp nothing)
      have isHttps : groupListener (listenAddr, sites) =
          .https listenAddr (tlsEntriesOf sites) := if_pos entries
      split
      next e _ => exact Or.inl ⟨e, rfl⟩
      next => exact Or.inr (Or.inl ⟨entries, by rw [isHttps]; rfl⟩)
    next noTls =>
      have entries : tlsEntriesOf sites = [] := tlsEntriesOf_eq_nil_iff.mpr (not_not.mp noTls)
      have isHttp : groupListener (listenAddr, sites) = .http listenAddr :=
        if_neg (not_not_intro entries)
      exact Or.inr (Or.inr ⟨entries, by rw [isHttp]⟩)

theorem groupListener_socket (group : SocketAddr × List SiteConfig) :
    (groupListener group).socket = group.1 := by
  unfold groupListener
  split <;> rfl

/-- What the loop has spawned by the time it returns. -/
structure Spawned (groups : List (SocketAddr × List SiteConfig)) (started : Started) : Prop where
  sockets : (started.listeners.map Listener.socket).Sublist (groups.map Prod.fst)
  once : started.redirects.Nodup
  all : started.result = .ok () → started.listeners = groups.map groupListener ∧
    ∀ redirect, redirect ∈ started.redirects ↔
      ∃ group ∈ groups, tlsEntriesOf group.2 ≠ [] ∧ redirect = redirectOf group.1

theorem startGroups_spawned : ∀ groups : List (SocketAddr × List SiteConfig),
    Spawned groups (startGroups buildTlsAcceptor groups) := by
  intro groups
  induction groups with
  | nil => exact ⟨List.Sublist.slnil, List.nodup_nil, fun _ => ⟨rfl, fun _ => by simp [startGroups]⟩⟩
  | cons group rest ih =>
      obtain ⟨sockets, once, all⟩ := ih
      rcases startGroups_cons group rest with ⟨e, run⟩ | ⟨someTls, run⟩ | ⟨noTls, run⟩
      · rw [run]
        refine ⟨List.nil_sublist _, List.nodup_nil, fun ok => ?_⟩
        cases ok
      · rw [run]
        refine ⟨?_, once.insert, fun ok => ?_⟩
        · rw [List.map_cons, List.map_cons, groupListener_socket]
          exact sockets.cons_cons _
        · obtain ⟨listeners, redirects⟩ := all ok
          refine ⟨by rw [listeners, List.map_cons], fun redirect => ?_⟩
          rw [List.mem_insert_iff, redirects, List.exists_mem_cons_iff]
          exact or_congr ⟨fun same => ⟨someTls, same⟩, And.right⟩ Iff.rfl
      · rw [run]
        refine ⟨?_, once, fun ok => ?_⟩
        · rw [List.map_cons, List.map_cons, groupListener_socket]
          exact sockets.cons_cons _
        · obtain ⟨listeners, redirects⟩ := all ok
          refine ⟨by rw [listeners, List.map_cons], fun redirect => ?_⟩
          rw [redirects, List.exists_mem_cons_iff]
          exact ⟨Or.inr, fun either => either.resolve_left fun this => this.1 noTls⟩

end Groups

/-! ## Sockets of a configuration -/

section Config
variable {config : Config} {groups : List (SocketAddr × List SiteConfig)}

theorem mem_keys_iff (grouped : GroupsOf config groups) {addr : SocketAddr} :
    addr ∈ groups.map Prod.fst ↔ ∃ site ∈ config.values, listensOn addr site = true := by
  rw [List.mem_map]
  constructor
  · rintro ⟨group, member, rfl⟩
    obtain ⟨site, inGroup⟩ := grouped.nonempty member
    exact ⟨site, (grouped.mem_iff member).mp inGroup⟩
  · rintro ⟨site, member, here⟩
    exact ⟨_, grouped.mem_of_listensOn member here, rfl⟩

theorem tlsGroup_iff (grouped : GroupsOf config groups) {addr : SocketAddr} :
    (∃ group ∈ groups, tlsEntriesOf group.2 ≠ [] ∧ group.1 = addr) ↔
      ∃ site ∈ config.values, site.tls.isSome = true ∧ listensOn addr site = true := by
  constructor
  · rintro ⟨group, member, someTls, rfl⟩
    obtain ⟨entry, isEntry⟩ := List.exists_mem_of_ne_nil _ someTls
    obtain ⟨site, inGroup, entryOf⟩ := mem_tlsEntriesOf.mp isEntry
    obtain ⟨inConfig, here⟩ := (grouped.mem_iff member).mp inGroup
    exact ⟨site, inConfig, isTls_of_tlsEntry entryOf, here⟩
  · rintro ⟨site, member, isTls, here⟩
    refine ⟨_, grouped.mem_of_listensOn member here, fun nothing => ?_, rfl⟩
    rw [tlsEntriesOf_eq_nil_iff, List.filter_eq_nil_iff] at nothing
    exact nothing site (List.mem_filter.mpr ⟨member, here⟩) isTls

variable {buildTlsAcceptor : List TlsEntry → Except Str Unit}
variable {walk : List (SocketAddr × List SiteConfig) → List (SocketAddr × List SiteConfig)}

end Config

/-! ## A plain site on the redirect's port -/

end TinyProxy
