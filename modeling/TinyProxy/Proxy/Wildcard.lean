import TinyProxy.Config.Acceptance
import TinyProxy.Proxy.Routing
import TinyProxy.Proxy.StartModes

/-!
# Wildcard sites and site selection

A listener takes a site without a host, or with `0.0.0.0`, for any host on its
port.  Site selection looks up the name of the host and never such an address.
-/

set_option autoImplicit false

namespace TinyProxy

open Rust

/-- The address has an empty or `0.0.0.0` host part in front of the port. -/
def wildcardOn (port : UInt16) (site : SiteConfig) : Bool :=
  parseU16 (afterLast ':' site.address) = some port &&
    (hostText site.address = [] || hostText site.address = "0.0.0.0".toList)

def isDnsChar (c : Char) : Bool := c.isAlphanum || c = '-' || c = '.'

/-- Letters, digits, hyphens and dots. -/
def IsDnsName (host : Str) : Prop := host ≠ [] ∧ host.all isDnsChar = true

/-- A listener on the port takes the site, whatever its IP address. -/
theorem siteAddrMatches_wildcard {site : SiteConfig} {listenAddr : SocketAddr}
    (wildcard : wildcardOn listenAddr.port site = true) :
    siteAddrMatches site.address listenAddr = true := by
  obtain ⟨port, host⟩ := Bool.and_eq_true_iff.mp wildcard
  rw [Bool.or_eq_true, decide_eq_true_iff, decide_eq_true_iff] at host
  unfold siteAddrMatches
  rw [of_decide_eq_true port]
  dsimp only
  rw [if_neg (not_not_intro rfl), if_pos (host.imp id Or.inl)]

section Names
variable {host : Str}

theorem IsDnsName.plain (dns : IsDnsName host) : ':' ∉ host ∧ '[' ∉ host := by
  have chars := List.all_eq_true.mp dns.2
  constructor
  · intro colon
    cases chars _ colon
  · intro bracket
    cases chars _ bracket

theorem IsDnsName.noBracket (dns : IsDnsName host) (rest : Str) :
    startsWith ['['] (host ++ rest) = false := by
  obtain ⟨c, tail, rfl⟩ := List.exists_cons_of_ne_nil dns.1
  by_contra bracket
  have first := startsWith_singleton.mp (Bool.not_eq_false _ ▸ bracket)
  obtain rfl := Option.some.inj first
  exact dns.plain.2 (List.mem_cons_self ..)

theorem IsDnsName.noColon (dns : IsDnsName host) : ∀ c ∈ host, decide (c ≠ ':') = true := by
  intro c member
  apply decide_eq_true
  rintro rfl
  exact dns.plain.1 member

theorem beforeFirst_dns (dns : IsDnsName host) (rest : Str) :
    beforeFirst ':' (host ++ ':' :: rest) = host := by
  rw [beforeFirst, List.takeWhile_append_of_pos dns.noColon, List.takeWhile_cons, if_neg (by decide),
    List.append_nil]

theorem extractHostname_dns (dns : IsDnsName host) :
    extractHostname host = host ∧ ∀ rest, extractHostname (host ++ ':' :: rest) = host := by
  constructor
  · have plain := dns.noBracket []
    rw [List.append_nil] at plain
    rw [extractHostname, plain, if_neg Bool.false_ne_true, beforeFirst]
    exact List.takeWhile_eq_self_iff.mpr dns.noColon
  · intro rest
    rw [extractHostname, dns.noBracket, if_neg Bool.false_ne_true, beforeFirst_dns dns]

theorem hasPort_dns (dns : IsDnsName host) (port : Str) :
    hasPort (host ++ ':' :: port) = true := by
  rw [hasPort, dns.noBracket, if_neg Bool.false_ne_true, List.contains_iff_mem]
  exact List.mem_append_right _ (List.mem_cons_self ..)

theorem stripPort_dns (dns : IsDnsName host) {port : Str} (clear : ':' ∉ port) :
    stripPort (host ++ ':' :: port) = host := by
  rw [stripPort, dns.noBracket, if_neg Bool.false_ne_true, rsplitOnce_append clear]

theorem decimal_noColon (n : Nat) : ':' ∉ decimal n := by
  intro colon
  have digit := decimal_isDigit colon
  cases digit

end Names

/-! ## Selection -/

section Selection
variable {parser : Http.UriParser} {content : Str} {config : Config} {host : Str}

/-- A key of an accepted configuration is the address of its site. -/
theorem lookup_eq_none_of_hostname (accepted : Config.fromStr parser content = .ok config)
    (nobody : ∀ site ∈ config.values, eqIgnoreAsciiCase (extractHostname site.address) host = false)
    {key : Str} (named : extractHostname key = host) : config.sites.lookup key = none := by
  cases found : config.sites.lookup key with
  | none => rfl
  | some site =>
      have unlike := nobody site (mem_values_of_lookup found)
      rw [keyed_of_accepted accepted key site found, named] at unlike
      exact absurd rfl (of_decide_eq_false unlike)

/-- The listener takes the wildcard site for the host, selection never does. -/
theorem wildcard_not_selected (accepted : Config.fromStr parser content = .ok config)
    {port : UInt16} {wildcard : SiteConfig}
    (only : config.values.filter (wildcardOn port) = [wildcard]) (dns : IsDnsName host)
    (nobody : ∀ site ∈ config.values,
      eqIgnoreAsciiCase (extractHostname site.address) host = false) :
    (∀ listenAddr : SocketAddr, listenAddr.port = port →
      siteAddrMatches wildcard.address listenAddr = true) ∧
    findSite config (host ++ ':' :: decimal port.toNat) wildcard.tls.isSome = none := by
  constructor
  · rintro listenAddr rfl
    have member : wildcard ∈ config.values.filter (wildcardOn listenAddr.port) :=
      only ▸ List.mem_singleton_self wildcard
    exact siteAddrMatches_wildcard (List.mem_filter.mp member).2
  · obtain ⟨bare, ported⟩ := extractHostname_dns dns
    have exact_ := lookup_eq_none_of_hostname accepted nobody (ported (decimal port.toNat))
    have stripped := lookup_eq_none_of_hostname accepted nobody bare
    rw [findSite, exact_]
    dsimp only
    rw [if_pos (hasPort_dns dns _), stripPort_dns dns (decimal_noColon _), stripped]

end Selection

/-! ## A wildcard TLS site -/

def wildcardSite : SiteConfig := tlsSite "0.0.0.0:8443".toList

theorem wildcardSite_accepted :
    Config.fromStr Http.plainUriParser (tlsSiteText "0.0.0.0:8443".toList) =
      .ok (singleSite wildcardSite) := by rfl

/-- The site of `0.0.0.0:8443` is not found for `example.com:8443`. -/
theorem wildcard_site_missed :
    Config.fromStr Http.plainUriParser (tlsSiteText "0.0.0.0:8443".toList) =
        .ok (singleSite wildcardSite) ∧
      (singleSite wildcardSite).values.filter (wildcardOn 8443) = [wildcardSite] ∧
      siteAddrMatches wildcardSite.address (.v4 .unspecified 8443) = true ∧
      findSite (singleSite wildcardSite) "example.com:8443".toList true = none :=
  ⟨rfl, rfl, rfl, rfl⟩

theorem wildcard_not_selected_example :
    (∀ listenAddr : SocketAddr, listenAddr.port = 8443 →
      siteAddrMatches wildcardSite.address listenAddr = true) ∧
    findSite (singleSite wildcardSite) ("example.com".toList ++ ':' :: decimal 8443)
      wildcardSite.tls.isSome = none := by
  have only : (singleSite wildcardSite).values.filter (wildcardOn 8443) = [wildcardSite] := rfl
  have dns : IsDnsName "example.com".toList := ⟨List.cons_ne_nil _ _, rfl⟩
  have single : (singleSite wildcardSite).values = [wildcardSite] := rfl
  refine wildcard_not_selected wildcardSite_accepted only dns fun site member => ?_
  rw [single] at member
  obtain rfl := List.mem_singleton.mp member
  rfl

end TinyProxy
