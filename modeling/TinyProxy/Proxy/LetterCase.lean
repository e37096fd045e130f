import TinyProxy.Proxy.Wildcard
import TinyProxy.Proxy.Tls
import TinyProxy.Rust.LetterCase

/-!
# Letter case in `Host` headers

The SNI scan and the table of certificates compare names without regard to case,
the two keys of site selection are looked up as they are spelled.
-/

set_option autoImplicit false

namespace TinyProxy

open Rust

/-- The key that is looked up after the host itself. -/
def secondKey (host : Str) (isTls : Bool) : Str :=
  if hasPort host then stripPort host else host ++ ':' :: decimal (defaultPort isTls)

/-- The site is a TLS site with this host name. -/
def sniMatches (host : Str) (site : SiteConfig) : Bool :=
  site.tls.isSome && eqIgnoreAsciiCase (extractHostname site.address) host

/-- No two addresses are spellings of one text. -/
def DistinctAddresses (config : Config) : Prop :=
  config.values.Pairwise fun first second =>
    eqIgnoreAsciiCase first.address second.address = false

/-- The same host, or hosts that are no site's address and whose second keys are
the same or belong at most to the only TLS site with that host name. -/
def CaseBlind (config : Config) (isTls : Bool) (host other : Str) : Prop :=
  host = other ∨
    (∀ site ∈ config.values, site.address ≠ host ∧ site.address ≠ other) ∧
    (secondKey host isTls = secondKey other isTls ∨
      ∀ site ∈ config.values,
        site.address = secondKey host isTls ∨ site.address = secondKey other isTls →
          isTls = true ∧ hasPort host = false ∧ config.values.filter (sniMatches host) = [site])

/-! ## Spellings of a host -/

section Host
variable {host other : Str}

theorem hasPort_lower (host : Str) : hasPort (toAsciiLowercase host) = hasPort host := by
  have bracket : ∀ s, startsWith ['['] (toAsciiLowercase s) = startsWith ['['] s :=
    startsWith_lower rfl
  have colon : ∀ s, (toAsciiLowercase s).contains ':' = s.contains ':' := contains_lower rfl
  rw [hasPort, hasPort, bracket, colon, splitOnce_lower rfl]
  cases Text.splitOnce [']'] host with
  | none => rfl
  | some cut => simp only [Option.map_some, lowerCut, colon]

theorem stripPort_lower (host : Str) :
    stripPort (toAsciiLowercase host) = toAsciiLowercase (stripPort host) := by
  have bracket : ∀ s, startsWith ['['] (toAsciiLowercase s) = startsWith ['['] s :=
    startsWith_lower rfl
  rw [stripPort, stripPort, bracket, splitOnce_lower rfl, rsplitOnce_lower rfl]
  by_cases ip : startsWith ['['] host = true
  · rw [if_pos ip, if_pos ip]
    cases Text.splitOnce [']'] host <;> simp [lowerCut, toAsciiLowercase]
  · rw [if_neg ip, if_neg ip]
    cases rsplitOnce ':' host <;> rfl

variable (same : eqIgnoreAsciiCase host other = true)
include same

theorem hasPort_spelling : hasPort other = hasPort host := by
  rw [← hasPort_lower other, ← hasPort_lower host, eqIgnoreAsciiCase_iff.mp same]

theorem secondKey_spelling (isTls : Bool) :
    eqIgnoreAsciiCase (secondKey host isTls) (secondKey other isTls) = true := by
  rw [secondKey, secondKey, hasPort_spelling same]
  by_cases ported : hasPort host = true
  · rw [if_pos ported, if_pos ported, eqIgnoreAsciiCase_iff, ← stripPort_lower, ← stripPort_lower,
      eqIgnoreAsciiCase_iff.mp same]
  · rw [if_neg ported, if_neg ported]
    exact eqIgnoreAsciiCase_append_right same _

theorem sniMatches_spelling : sniMatches other = sniMatches host := by
  funext site
  rw [sniMatches, sniMatches, eqIgnoreAsciiCase_congr _ same]

end Host

/-! ## Keys and scan -/

section Selection
variable {config : Config} {host other : Str} {isTls : Bool}

theorem findBySni_eq_some_iff {site : SiteConfig} :
    findBySni config host = some site ↔ config.values.filter (sniMatches host) = [site] := by
  unfold findBySni
  split
  next single alone =>
    change config.values.filter (sniMatches host) = [single] at alone
    rw [alone, Option.some.injEq, List.singleton_inj]
  next several =>
    constructor
    · intro found
      cases found
    · intro alone
      exact absurd alone (several site)

theorem findBySni_spelling (same : eqIgnoreAsciiCase host other = true) (config : Config) :
    findBySni config other = findBySni config host := by
  ext site
  rw [findBySni_eq_some_iff, findBySni_eq_some_iff, sniMatches_spelling same]

/-- The scan, where the rules get to it. -/
def sniScan (config : Config) (host : Str) (isTls : Bool) : Option SiteConfig :=
  if isTls && !hasPort host then findBySni config host else none

theorem sniScan_eq_some_iff {site : SiteConfig} :
    sniScan config host isTls = some site ↔
      isTls = true ∧ hasPort host = false ∧ config.values.filter (sniMatches host) = [site] := by
  rw [sniScan, Option.ite_none_right_eq_some, Bool.and_eq_true, Bool.not_eq_true',
    findBySni_eq_some_iff, and_assoc]

theorem sniScan_spelling (same : eqIgnoreAsciiCase host other = true) :
    sniScan config other isTls = sniScan config host isTls := by
  rw [sniScan, sniScan, hasPort_spelling same, findBySni_spelling same]

theorem findSite_secondKey (config : Config) (host : Str) (isTls : Bool) :
    findSite config host isTls = (config.sites.lookup host).or
      ((config.sites.lookup (secondKey host isTls)).or (sniScan config host isTls)) := by
  have keys : lookupKeys host isTls = [host, secondKey host isTls] := rfl
  rw [findSite_eq, keys, sniScan]
  cases first : config.sites.lookup host with
  | some site => simp [first]
  | none =>
      cases second : config.sites.lookup (secondKey host isTls) <;> simp [first, second]

/-- The second key is never as long as the host. -/
theorem secondKey_length (host : Str) (isTls : Bool) :
    (secondKey host isTls).length ≠ host.length := by
  rw [secondKey]
  by_cases ported : hasPort host = true
  · rw [if_pos ported]
    rw [hasPort] at ported
    rw [stripPort]
    by_cases ip : startsWith ['['] host = true
    · rw [if_pos ip] at ported ⊢
      cases cut : Text.splitOnce [']'] host with
      | none =>
          rw [cut] at ported
          cases ported
      | some parts =>
          have split := congrArg List.length (Text.splitOnce_eq_append cut)
          simp only [List.length_append, List.length_singleton] at split
          simp only [List.length_drop]
          omega
    · rw [if_neg ip] at ported ⊢
      cases cut : rsplitOnce ':' host with
      | none => exact absurd (List.contains_iff_mem.mp ported) (rsplitOnce_eq_none_iff.mp cut)
      | some parts =>
          have split := congrArg List.length (rsplitOnce_sound cut).1
          simp only [List.length_append, List.length_cons] at split
          dsimp only
          omega
  · rw [if_neg ported, List.length_append, List.length_cons]
    omega

end Selection

/-! ## Addresses -/

/-- A host name as long as its address is a port number. -/
theorem hasLetter_of_whole {address : Str} {listenAddr : SocketAddr}
    (resolves : resolveListenAddr address = .ok listenAddr)
    (whole : (extractHostname address).length = address.length) : hasLetter address = false := by
  have plain : ':' ∉ address := by
    intro colon
    have front : beforeFirst ':' address <+: address := List.takeWhile_prefix _
    have shorter : (beforeFirst ':' address).length < address.length := by
      refine lt_of_le_of_ne front.length_le fun long => ?_
      have cut := List.takeWhile_eq_self_iff.mp (front.eq_of_length long) ':' colon
      simp at cut
    unfold extractHostname at whole
    split at whole
    · split at whole
      next before after cut =>
        have split := congrArg List.length (Text.splitOnce_eq_append cut)
        simp only [List.length_append, List.length_singleton] at split
        rw [List.length_drop] at whole
        omega
      next => omega
    · omega
  have noAddr : parseSocketAddr address = none := by
    rw [Option.eq_none_iff_forall_ne_some]
    intro addr parsed
    obtain ⟨name, digits, rfl, _⟩ := parseSocketAddr_shape parsed
    exact plain (List.mem_append_right name (List.mem_cons_self ..))
  rw [resolveListenAddr, noAddr, afterLast_plain plain] at resolves
  apply hasLetter_of_parseU16
  cases number : parseU16 address with
  | some port => rfl
  | none =>
      rw [number] at resolves
      cases resolves

section Accepted
variable {parser : Http.UriParser} {content : Str} {config : Config} {host other : Str}
variable {isTls : Bool} {site : SiteConfig}

theorem lookup_eq_some_iff (accepted : Config.fromStr parser content = .ok config) {key : Str} :
    config.sites.lookup key = some site ↔ site ∈ config.values ∧ site.address = key := by
  have keyed := keyed_of_accepted accepted
  constructor
  · intro found
    exact ⟨mem_values_of_lookup found, keyed key site found⟩
  · rintro ⟨member, rfl⟩
    obtain ⟨key, found⟩ := exists_key_of_mem member
    rw [keyed key site found]
    exact found

theorem eq_of_addresses (distinct : DistinctAddresses config) {first second : SiteConfig}
    (isFirst : first ∈ config.values) (isSecond : second ∈ config.values)
    (same : eqIgnoreAsciiCase first.address second.address = true) : first = second := by
  by_contra differ
  have symmetric : Std.Symm fun first second : SiteConfig =>
      eqIgnoreAsciiCase first.address second.address = false := by
    refine ⟨fun a b apart => ?_⟩
    by_contra together
    rw [eqIgnoreAsciiCase_symm (Bool.not_eq_false _ ▸ together)] at apart
    cases apart
  have apart := distinct.forall isFirst isSecond differ
  rw [same] at apart
  cases apart

/-- Only one spelling of an address is a key. -/
theorem lookup_spelling (accepted : Config.fromStr parser content = .ok config)
    (distinct : DistinctAddresses config) (member : site ∈ config.values) {key : Str}
    (same : eqIgnoreAsciiCase site.address key = true) (differ : site.address ≠ key) :
    config.sites.lookup key = none := by
  rw [Option.eq_none_iff_forall_ne_some]
  intro found present
  obtain ⟨isFound, address⟩ := (lookup_eq_some_iff accepted).mp present
  obtain rfl := eq_of_addresses distinct member isFound (address.symm ▸ same)
  exact differ address

/-- A host that is another spelling of an address does not reach its site. -/
theorem findSite_misses (accepted : Config.fromStr parser content = .ok config)
    (distinct : DistinctAddresses config) (member : site ∈ config.values)
    (same : eqIgnoreAsciiCase site.address host = true) (differ : site.address ≠ host) :
    findSite config host isTls ≠ some site := by
  intro found
  rw [findSite_secondKey, lookup_spelling accepted distinct member same differ, Option.none_or,
    Option.or_eq_some_iff] at found
  rcases found with keyed | ⟨_, scanned⟩
  · have key := ((lookup_eq_some_iff accepted).mp keyed).2
    exact secondKey_length host isTls (key ▸ eqIgnoreAsciiCase_length same)
  · obtain ⟨_, _, alone⟩ := sniScan_eq_some_iff.mp scanned
    have inFilter : site ∈ config.values.filter (sniMatches host) :=
      alone ▸ List.mem_singleton_self site
    obtain ⟨_, named⟩ := Bool.and_eq_true_iff.mp (List.mem_filter.mp inFilter).2
    obtain ⟨listenAddr, resolves⟩ := (validSockets_of_accepted accepted).resolves site member
    have whole := (eqIgnoreAsciiCase_length named).trans (eqIgnoreAsciiCase_length same).symm
    exact differ (eq_of_eqIgnoreAsciiCase (hasLetter_of_whole resolves whole) same)

/-- Of two second keys at most one is an address. -/
theorem secondKey_apart (accepted : Config.fromStr parser content = .ok config)
    (distinct : DistinctAddresses config) (same : eqIgnoreAsciiCase host other = true)
    (differ : secondKey host isTls ≠ secondKey other isTls) :
    config.sites.lookup (secondKey host isTls) = none ∨
      config.sites.lookup (secondKey other isTls) = none := by
  refine or_iff_not_imp_left.mpr fun present => ?_
  obtain ⟨site, found⟩ := Option.ne_none_iff_exists'.mp present
  obtain ⟨member, address⟩ := (lookup_eq_some_iff accepted).mp found
  have keys := secondKey_spelling same isTls
  rw [← address] at keys differ
  exact lookup_spelling accepted distinct member keys differ

/-- One fallback behind two options of which one is empty. -/
theorem or_eq_or_iff {α : Type} {first second last : Option α}
    (apart : first = none ∨ second = none) :
    first.or last = second.or last ↔
      ∀ value, first = some value ∨ second = some value → last = some value := by
  rcases apart with rfl | rfl
  · cases second with
    | none => simp
    | some value => simp
  · cases first with
    | none => simp
    | some value => simp [eq_comm]

theorem findSite_spelling_iff (accepted : Config.fromStr parser content = .ok config)
    (distinct : DistinctAddresses config) (same : eqIgnoreAsciiCase host other = true) :
    findSite config other isTls = findSite config host isTls ↔
      CaseBlind config isTls host other := by
  have back := eqIgnoreAsciiCase_symm same
  by_cases equal : host = other
  · subst equal
    exact iff_of_true rfl (Or.inl rfl)
  rw [CaseBlind, or_iff_right equal]
  by_cases named : ∀ site ∈ config.values, site.address ≠ host ∧ site.address ≠ other
  · have missing : ∀ key, key = host ∨ key = other → config.sites.lookup key = none := by
      intro key isKey
      rw [Option.eq_none_iff_forall_ne_some]
      intro site present
      obtain ⟨member, rfl⟩ := (lookup_eq_some_iff accepted).mp present
      exact isKey.elim (named site member).1 (named site member).2
    rw [findSite_secondKey, findSite_secondKey, missing host (Or.inl rfl),
      missing other (Or.inr rfl), Option.none_or, Option.none_or, sniScan_spelling same,
      and_iff_right named]
    by_cases sameKey : secondKey host isTls = secondKey other isTls
    · rw [sameKey]
      exact iff_of_true rfl (Or.inl rfl)
    · have apart := secondKey_apart accepted distinct same sameKey
      rw [or_iff_right sameKey, eq_comm, or_eq_or_iff apart]
      refine forall_congr' fun site => ?_
      rw [lookup_eq_some_iff accepted, lookup_eq_some_iff accepted, ← and_or_left, and_imp,
        sniScan_eq_some_iff]
  · refine iff_of_false (fun routed => ?_) fun blind => named blind.1
    obtain ⟨site, member, isNamed⟩ : ∃ site ∈ config.values,
        site.address = host ∨ site.address = other := by
      by_contra nobody
      refine named fun site member => not_or.mp fun isNamed => nobody ⟨site, member, isNamed⟩
    rcases isNamed with rfl | rfl
    · have here := (lookup_eq_some_iff accepted).mpr ⟨member, rfl⟩
      refine @findSite_misses _ _ _ _ isTls _ accepted distinct member same equal ?_
      rw [routed, findSite, here]
    · have here := (lookup_eq_some_iff accepted).mpr ⟨member, rfl⟩
      refine @findSite_misses _ _ _ _ isTls _ accepted distinct member back (Ne.symm equal) ?_
      rw [← routed, findSite, here]

end Accepted

/-! ## Every pair of spellings -/

section Routing
variable {Cert SigningKey : Type}

/-- Both spellings have the same site and, as server names, the same certificate. -/
def RoutedAlike (Cert SigningKey : Type) (config : Config) (isTls : Bool) (host other : Str) :
    Prop :=
  findSite config other isTls = findSite config host isTls ∧
    ∀ resolver : SniCertResolver Cert SigningKey,
      resolver.resolve (some other) = resolver.resolve (some host)

theorem resolve_spelling {host other : Str} (same : eqIgnoreAsciiCase host other = true)
    (resolver : SniCertResolver Cert SigningKey) :
    resolver.resolve (some other) = resolver.resolve (some host) := by
  unfold SniCertResolver.resolve
  rw [Option.bind_some, Option.bind_some, eqIgnoreAsciiCase_iff.mp same]

/-- Two spellings of a host are routed alike exactly when `CaseBlind` holds of them,
all spellings of all hosts exactly when no address has a letter. -/
theorem host_case_iff {parser : Http.UriParser} {content : Str} {config : Config}
    (accepted : Config.fromStr parser content = .ok config)
    (distinct : DistinctAddresses config) (isTls : Bool) :
    (∀ host other, eqIgnoreAsciiCase host other = true →
      (RoutedAlike Cert SigningKey config isTls host other ↔
        CaseBlind config isTls host other)) ∧
    ((∀ host other, eqIgnoreAsciiCase host other = true →
        RoutedAlike Cert SigningKey config isTls host other) ↔
      ∀ site ∈ config.values, hasLetter site.address = false) := by
  have pair : ∀ host other, eqIgnoreAsciiCase host other = true →
      (RoutedAlike Cert SigningKey config isTls host other ↔
        CaseBlind config isTls host other) := by
    intro host other same
    rw [RoutedAlike, and_iff_left (resolve_spelling same)]
    exact findSite_spelling_iff accepted distinct same
  refine ⟨pair, ?_⟩
  constructor
  · intro alike site member
    by_contra letters
    -- the address, sent as the host, and a second spelling of it
    obtain ⟨other, same, differ⟩ :=
      exists_other_spelling (Bool.not_eq_false _ ▸ letters) site.address
    rcases (pair site.address other same).mp (alike site.address other same) with equal | blind
    · exact differ equal.symm
    · exact (blind.1 site member).1 rfl
  · intro plain host other same
    rw [pair host other same, CaseBlind, or_iff_not_imp_left]
    intro differ
    have back := eqIgnoreAsciiCase_symm same
    constructor
    · intro site member
      have letters := plain site member
      constructor
      · rintro rfl
        exact differ (eq_of_eqIgnoreAsciiCase letters same)
      · rintro rfl
        exact differ (eq_of_eqIgnoreAsciiCase letters back).symm
    · rw [or_iff_not_imp_left]
      intro apart site member key
      have keys := secondKey_spelling same isTls
      have letters := plain site member
      rcases key with address | address
      · rw [address] at letters
        exact absurd (eq_of_eqIgnoreAsciiCase letters keys) apart
      · rw [address] at letters
        exact absurd (eq_of_eqIgnoreAsciiCase letters (eqIgnoreAsciiCase_symm keys)).symm apart

end Routing

/-! ## A TLS site on its own port -/

def namedSite : SiteConfig := tlsSite "example.com:8443".toList

theorem namedSite_accepted :
    Config.fromStr Http.plainUriParser (tlsSiteText "example.com:8443".toList) =
      .ok (singleSite namedSite) := by rfl

theorem namedSite_distinct : DistinctAddresses (singleSite namedSite) :=
  List.pairwise_singleton _ _

/-- The host as the site has it is found, with a capital it is not, although the
scan by server name takes both. -/
theorem host_case_missed :
    Config.fromStr Http.plainUriParser (tlsSiteText "example.com:8443".toList) =
        .ok (singleSite namedSite) ∧
      DistinctAddresses (singleSite namedSite) ∧
      eqIgnoreAsciiCase "example.com:8443".toList "Example.com:8443".toList = true ∧
      findSite (singleSite namedSite) "example.com:8443".toList true = some namedSite ∧
      findSite (singleSite namedSite) "Example.com:8443".toList true = none ∧
      findBySni (singleSite namedSite) "Example.com".toList = some namedSite :=
  ⟨rfl, List.pairwise_singleton _ _, rfl, rfl, rfl, rfl⟩

/-- Without the port the scan finds the site for both spellings. -/
theorem host_case_iff_scanned :
    RoutedAlike Unit Unit (singleSite namedSite) true "example.com".toList
      "Example.com".toList := by
  have blind : CaseBlind (singleSite namedSite) true "example.com".toList
      "Example.com".toList := by
    have values : (singleSite namedSite).values = [namedSite] := rfl
    refine Or.inr ⟨fun site member => ?_, Or.inr fun site member key => ?_⟩
    · rw [values] at member
      obtain rfl := List.mem_singleton.mp member
      decide
    · rw [values] at member
      obtain rfl := List.mem_singleton.mp member
      exact absurd key (by decide)
  exact ((host_case_iff namedSite_accepted namedSite_distinct true).1 _ _ rfl).mpr blind

end TinyProxy
