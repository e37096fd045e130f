import TinyProxy.Proxy.Handler

/-!
# Site selection and the listener's protocol

Two keys made of the `Host` header are looked up without regard to the protocol;
only the scan by SNI name looks at it.
-/

set_option autoImplicit false

namespace TinyProxy

open Rust

/-- The keys that are looked up, in this order. -/
def lookupKeys (host : Str) (isTls : Bool) : List Str :=
  [host, if hasPort host then stripPort host else host ++ ':' :: decimal (defaultPort isTls)]

/-- The first key that is in use belongs to a site with the listener's protocol. -/
def FirstKeyOnListener (config : Config) (host : Str) (isTls : Bool) : Prop :=
  ∀ site, (lookupKeys host isTls).findSome? config.sites.lookup = some site →
    site.tls.isSome = isTls

theorem findSite_eq (config : Config) (host : Str) (isTls : Bool) :
    findSite config host isTls =
      ((lookupKeys host isTls).findSome? config.sites.lookup).or
        (if isTls && !hasPort host then findBySni config host else none) := by
  unfold findSite lookupKeys
  by_cases ported : hasPort host = true
  · simp only [if_pos ported]
    cases exact_ : config.sites.lookup host with
    | some site => simp [exact_]
    | none =>
        cases stripped : config.sites.lookup (stripPort host) <;>
          simp [exact_, ported, stripped]
  · simp only [if_neg ported]
    cases exact_ : config.sites.lookup host with
    | some site => simp [exact_]
    | none =>
        cases defaulted : config.sites.lookup (host ++ ':' :: decimal (defaultPort isTls)) <;>
          simp [exact_, ported, defaulted]

theorem mem_values_of_lookup {config : Config} {key : Str} {site : SiteConfig}
    (found : config.sites.lookup key = some site) : site ∈ config.values := by
  have entry : (⟨key, site⟩ : Sigma fun _ : Str => SiteConfig) ∈ config.sites.entries :=
    AList.mem_lookup_iff.mp found
  exact List.mem_map_of_mem entry

theorem exists_key_of_mem {config : Config} {site : SiteConfig} (member : site ∈ config.values) :
    ∃ key, config.sites.lookup key = some site := by
  obtain ⟨⟨key, value⟩, entry, rfl⟩ := List.mem_map.mp member
  exact ⟨key, AList.mem_lookup_iff.mpr entry⟩

theorem findBySni_sound {config : Config} {host : Str} {site : SiteConfig}
    (found : findBySni config host = some site) :
    site ∈ config.values ∧ site.tls.isSome = true := by
  unfold findBySni at found
  split at found
  · next single alone =>
      obtain rfl := Option.some.inj found
      have member := alone.symm ▸ List.mem_singleton_self single
      obtain ⟨inConfig, matched⟩ := List.mem_filter.mp member
      exact ⟨inConfig, (Bool.and_eq_true_iff.mp matched).1⟩
  · cases found

theorem findSite_mem {config : Config} {host : Str} {isTls : Bool} {site : SiteConfig}
    (found : findSite config host isTls = some site) : site ∈ config.values := by
  rw [findSite_eq, Option.or_eq_some_iff] at found
  rcases found with keyed | ⟨_, scanned⟩
  · obtain ⟨key, _, present⟩ := List.exists_of_findSome?_eq_some keyed
    exact mem_values_of_lookup present
  · split at scanned
    · exact (findBySni_sound scanned).1
    · cases scanned

theorem routing_isolated_iff (config : Config) (isTls : Bool) :
    (∀ host, (∀ site, findSite config host isTls = some site → site.tls.isSome = isTls) ↔
      FirstKeyOnListener config host isTls) ∧
    ((∀ host site, findSite config host isTls = some site → site.tls.isSome = isTls) ↔
      ∀ site ∈ config.values, site.tls.isSome = isTls) := by
  constructor
  · intro host
    constructor
    · intro isolated site keyed
      exact isolated site (by rw [findSite_eq, keyed]; rfl)
    · intro onListener site found
      rw [findSite_eq, Option.or_eq_some_iff] at found
      rcases found with keyed | ⟨_, scanned⟩
      · exact onListener site keyed
      · split at scanned
        · next tls =>
            rw [(findBySni_sound scanned).2, (Bool.and_eq_true_iff.mp tls).1]
        · cases scanned
  · constructor
    · intro isolated site member
      -- the key of a site, sent as the Host header, reaches the site
      obtain ⟨key, present⟩ := exists_key_of_mem member
      exact isolated key site (by rw [findSite, present])
    · intro uniform host site found
      exact uniform site (findSite_mem found)

def securedSite : SiteConfig :=
  ⟨"example.com:443".toList, [], some ⟨"c.pem".toList, "k.pem".toList⟩⟩

/-- A plain request for `example.com:443` is routed to a site with a certificate. -/
theorem plain_client_reaches_tls_site :
    findSite ⟨(∅ : AList fun _ : Str => SiteConfig).insert securedSite.address securedSite⟩
        "example.com:443".toList false = some securedSite ∧
      securedSite.tls.isSome = true := by
  exact ⟨rfl, rfl⟩

end TinyProxy
