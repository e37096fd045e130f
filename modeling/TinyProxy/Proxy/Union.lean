import TinyProxy.Proxy.LetterCase
import TinyProxy.Proxy.Serve

/-!
# Two sets of sites in one server

A configuration knows a host by an address, by an address that the default port
or a cut makes of the host, or by an SNI name.  Of two sets of sites the one that
knows a host better serves it; when both know only its SNI name, neither does.
-/

set_option autoImplicit false

namespace TinyProxy

open Rust Http

def Config.union (left right : Config) : Config := ⟨left.sites ∪ right.sites⟩

/-- How well the configuration knows the host, by the rule that applies to it. -/
def Config.rank (config : Config) (host : Str) (isTls : Bool) : Nat :=
  if host ∈ config.sites then 3
  else if secondKey host isTls ∈ config.sites then 2
  else if isTls && !hasPort host && config.values.any (sniMatches host) then 1
  else 0

/-- The one that knows the host better, and no sites when there is none. -/
def Config.better (left right : Config) (host : Str) (isTls : Bool) : Config :=
  if right.rank host isTls < left.rank host isTls then left
  else if left.rank host isTls < right.rank host isTls then right
  else ⟨∅⟩

/-! ## The sites of a union -/

theorem kunion_of_disjoint {α : Type} {β : α → Type} [DecidableEq α]
    {left right : List (Sigma β)} (apart : ∀ key ∈ left.keys, key ∉ right.keys) :
    left.kunion right = left ++ right := by
  induction left with
  | nil => rfl
  | cons entry rest ih =>
      rw [List.keys_cons, List.forall_mem_cons] at apart
      rw [List.kunion_cons, List.kerase_of_notMem_keys apart.1, ih apart.2, List.cons_append]

section Union
variable {left right config : Config} {host : Str} {isTls : Bool}

theorem values_union (apart : left.sites.Disjoint right.sites) :
    (left.union right).values = left.values ++ right.values := by
  rw [Config.values, Config.union, AList.union_entries, kunion_of_disjoint apart, List.map_append]
  rfl

/-! ## The rules one by one -/

theorem rank_exact (known : host ∈ config.sites) : config.rank host isTls = 3 := if_pos known

theorem rank_le (unknown : host ∉ config.sites) : config.rank host isTls ≤ 2 := by
  rw [Config.rank, if_neg unknown]
  split
  · omega
  · split <;> omega

theorem rank_second (unknown : host ∉ config.sites)
    (second : secondKey host isTls ∈ config.sites) : config.rank host isTls = 2 := by
  rw [Config.rank, if_neg unknown, if_pos second]

theorem rank_named (unknown : host ∉ config.sites)
    (noSecond : secondKey host isTls ∉ config.sites) :
    config.rank host isTls =
      if isTls && !hasPort host && config.values.any (sniMatches host) then 1 else 0 := by
  rw [Config.rank, if_neg unknown, if_neg noSecond]

theorem rank_le_one (unknown : host ∉ config.sites)
    (noSecond : secondKey host isTls ∉ config.sites) : config.rank host isTls ≤ 1 := by
  rw [rank_named unknown noSecond]
  split <;> omega

theorem mem_sites_iff {sites : AList fun _ : Str => SiteConfig} {key : Str} :
    key ∈ sites ↔ ∃ site, sites.lookup key = some site := by
  rw [← AList.lookup_isSome, Option.isSome_iff_exists]

theorem findSite_first (same : left.sites.lookup host = right.sites.lookup host)
    (known : host ∈ right.sites) : findSite left host isTls = findSite right host isTls := by
  obtain ⟨site, found⟩ := mem_sites_iff.mp known
  rw [findSite, findSite, same, found]

theorem findSite_second (unknownLeft : host ∉ left.sites) (unknown : host ∉ right.sites)
    (same : left.sites.lookup (secondKey host isTls) = right.sites.lookup (secondKey host isTls))
    (known : secondKey host isTls ∈ right.sites) :
    findSite left host isTls = findSite right host isTls := by
  obtain ⟨site, found⟩ := mem_sites_iff.mp known
  rw [findSite_secondKey, findSite_secondKey, AList.lookup_eq_none.mpr unknownLeft,
    AList.lookup_eq_none.mpr unknown, same, found]
  rfl

theorem findSite_scan (unknown : host ∉ config.sites)
    (noSecond : secondKey host isTls ∉ config.sites) :
    findSite config host isTls = sniScan config host isTls := by
  rw [findSite_secondKey, AList.lookup_eq_none.mpr unknown, AList.lookup_eq_none.mpr noSecond,
    Option.none_or, Option.none_or]

/-- The scan depends on the matching sites only. -/
theorem sniScan_congr
    (same : left.values.filter (sniMatches host) = right.values.filter (sniMatches host)) :
    sniScan left host isTls = sniScan right host isTls := by
  ext site
  rw [sniScan_eq_some_iff, sniScan_eq_some_iff, same]

theorem filter_nil (nobody : ¬ config.values.any (sniMatches host) = true) :
    config.values.filter (sniMatches host) = [] := by
  rw [List.filter_eq_nil_iff]
  intro site member named
  exact nobody (List.any_eq_true.mpr ⟨site, member, named⟩)

theorem findSite_noSites (host : Str) (isTls : Bool) : findSite ⟨∅⟩ host isTls = none := by
  rw [findSite_scan (AList.notMem_empty host) (AList.notMem_empty _), sniScan, findBySni]
  simp [Config.values]

/-! ## The union -/

theorem better_left (less : right.rank host isTls < left.rank host isTls) :
    left.better right host isTls = left := if_pos less

theorem better_right (less : left.rank host isTls < right.rank host isTls) :
    left.better right host isTls = right := by
  rw [Config.better, if_neg (by omega), if_pos less]

theorem better_none (same : left.rank host isTls = right.rank host isTls) :
    left.better right host isTls = ⟨∅⟩ := by
  rw [Config.better, if_neg (by omega), if_neg (by omega)]

/-- No key of the host is an address: the matching sites of both sides are counted together. -/
theorem findSite_union_scan (apart : left.sites.Disjoint right.sites)
    (hostLeft : host ∉ left.sites) (hostRight : host ∉ right.sites)
    (keyLeft : secondKey host isTls ∉ left.sites) (keyRight : secondKey host isTls ∉ right.sites) :
    findSite (left.union right) host isTls =
      findSite (left.better right host isTls) host isTls := by
  have neither : ∀ key : Str, key ∉ left.sites → key ∉ right.sites →
      key ∉ (left.union right).sites := by
    intro key inLeft inRight present
    exact (AList.mem_union.mp present).elim inLeft inRight
  have rankLeft := rank_named hostLeft keyLeft
  have rankRight := rank_named hostRight keyRight
  have both : (left.union right).values.filter (sniMatches host) =
      left.values.filter (sniMatches host) ++ right.values.filter (sniMatches host) := by
    rw [values_union apart, List.filter_append]
  rw [findSite_scan (neither host hostLeft hostRight) (neither _ keyLeft keyRight)]
  cases scanned : isTls && !hasPort host with
  | false =>
      rw [scanned, Bool.false_and] at rankLeft rankRight
      rw [better_none (rankLeft.trans rankRight.symm), findSite_noSites, sniScan, scanned]
      rfl
  | true =>
      rw [scanned, Bool.true_and] at rankLeft rankRight
      by_cases namedLeft : left.values.any (sniMatches host) = true
      · rw [if_pos namedLeft] at rankLeft
        by_cases namedRight : right.values.any (sniMatches host) = true
        · -- at least two sites match, so the scan finds none
          rw [if_pos namedRight] at rankRight
          rw [better_none (rankLeft.trans rankRight.symm), findSite_noSites,
            Option.eq_none_iff_forall_ne_some]
          intro site found
          obtain ⟨_, _, alone⟩ := sniScan_eq_some_iff.mp found
          have count := congrArg List.length (both.symm.trans alone)
          rw [List.length_append, List.length_singleton] at count
          rw [List.any_eq_true] at namedLeft namedRight
          obtain ⟨one, inLeft, oneNamed⟩ := namedLeft
          obtain ⟨two, inRight, twoNamed⟩ := namedRight
          have oneCounted := List.length_pos_of_mem (List.mem_filter.mpr ⟨inLeft, oneNamed⟩)
          have twoCounted := List.length_pos_of_mem (List.mem_filter.mpr ⟨inRight, twoNamed⟩)
          omega
        · rw [if_neg namedRight] at rankRight
          rw [better_left (by omega), findSite_scan hostLeft keyLeft]
          apply sniScan_congr
          rw [both, filter_nil namedRight, List.append_nil]
      · rw [if_neg namedLeft] at rankLeft
        rw [filter_nil namedLeft, List.nil_append] at both
        by_cases namedRight : right.values.any (sniMatches host) = true
        · rw [if_pos namedRight] at rankRight
          rw [better_right (by omega), findSite_scan hostRight keyRight]
          exact sniScan_congr both
        · rw [if_neg namedRight] at rankRight
          rw [better_none (by omega), findSite_noSites, ← findSite_noSites host isTls,
            findSite_scan (AList.notMem_empty host) (AList.notMem_empty _)]
          apply sniScan_congr
          rw [both, filter_nil namedRight]
          rfl

theorem findSite_union (apart : left.sites.Disjoint right.sites) (host : Str) (isTls : Bool) :
    findSite (left.union right) host isTls =
      findSite (left.better right host isTls) host isTls := by
  have ofLeft : ∀ key : Str, key ∈ left.sites →
      (left.union right).sites.lookup key = left.sites.lookup key :=
    fun key present => AList.lookup_union_left present
  have ofRight : ∀ key : Str, key ∉ left.sites →
      (left.union right).sites.lookup key = right.sites.lookup key :=
    fun key missing => AList.lookup_union_right missing
  by_cases hostLeft : host ∈ left.sites
  · have less := @rank_le right host isTls (apart host hostLeft)
    rw [better_left (by rw [rank_exact hostLeft]; omega)]
    exact findSite_first (ofLeft host hostLeft) hostLeft
  by_cases hostRight : host ∈ right.sites
  · have less := @rank_le left host isTls hostLeft
    rw [better_right (by rw [rank_exact hostRight]; omega)]
    exact findSite_first (ofRight host hostLeft) hostRight
  have hostUnknown : host ∉ (left.union right).sites :=
    fun present => (AList.mem_union.mp present).elim hostLeft hostRight
  by_cases keyLeft : secondKey host isTls ∈ left.sites
  · have less := rank_le_one hostRight (apart _ keyLeft)
    rw [better_left (by rw [rank_second hostLeft keyLeft]; omega)]
    exact findSite_second hostUnknown hostLeft (ofLeft _ keyLeft) keyLeft
  by_cases keyRight : secondKey host isTls ∈ right.sites
  · have less := rank_le_one hostLeft keyLeft
    rw [better_right (by rw [rank_second hostRight keyRight]; omega)]
    exact findSite_second hostUnknown hostRight (ofRight _ keyLeft) keyRight
  exact findSite_union_scan apart hostLeft hostRight keyLeft keyRight

end Union

/-- What a request is answered depends on the site of its host only. -/
theorem proxy_congr {parser : UriParser} {world : World} {left right : Config}
    {remoteAddr : SocketAddr} {isTls : Bool} {incoming : Request}
    (same : findSite left (requestHost (ensureRequestId (world.uuids 0) incoming).2) isTls =
      findSite right (requestHost (ensureRequestId (world.uuids 0) incoming).2) isTls) :
    proxy parser world left remoteAddr isTls incoming =
      proxy parser world right remoteAddr isTls incoming := by
  rw [proxy, proxy]
  dsimp only
  rw [same]

/-- The sites on the right change who serves the host. -/
def Config.Disturbs (right left : Config) (host : Str) (isTls : Bool) : Prop :=
  (left.rank host isTls < right.rank host isTls ∧ findSite right host isTls ≠ none) ∨
    (left.rank host isTls = right.rank host isTls ∧ findSite left host isTls ≠ none)

section Disturbance
variable {left right : Config} {host : Str} {isTls : Bool}

/-- No site is on both sides. -/
theorem findSite_apart (keyedLeft : Keyed left.sites) (keyedRight : Keyed right.sites)
    (apart : left.sites.Disjoint right.sites) {site : SiteConfig}
    (found : findSite left host isTls = some site) : findSite right host isTls ≠ some site := by
  intro again
  obtain ⟨key, inLeft⟩ := exists_key_of_mem (findSite_mem found)
  obtain ⟨other, inRight⟩ := exists_key_of_mem (findSite_mem again)
  have same : key = other := (keyedLeft key site inLeft).symm.trans (keyedRight other site inRight)
  apply apart key
  · exact mem_sites_iff.mpr ⟨site, inLeft⟩
  · exact mem_sites_iff.mpr ⟨site, same ▸ inRight⟩

theorem findSite_of_key (known : 2 ≤ left.rank host isTls) : findSite left host isTls ≠ none := by
  intro missing
  rw [findSite_secondKey, Option.or_eq_none_iff, Option.or_eq_none_iff] at missing
  obtain ⟨noHost, noSecond, _⟩ := missing
  have low := @rank_le_one left host isTls (AList.lookup_eq_none.mp noHost)
    (AList.lookup_eq_none.mp noSecond)
  omega

theorem findSite_of_rank_zero (unknown : left.rank host isTls = 0) :
    findSite left host isTls = none := by
  have noHost : host ∉ left.sites := by
    intro known
    rw [rank_exact known] at unknown
    omega
  have noSecond : secondKey host isTls ∉ left.sites := by
    intro known
    rw [rank_second noHost known] at unknown
    omega
  rw [rank_named noHost noSecond] at unknown
  rw [findSite_scan noHost noSecond, Option.eq_none_iff_forall_ne_some]
  intro site found
  obtain ⟨tls, noPort, alone⟩ := sniScan_eq_some_iff.mp found
  have named : left.values.any (sniMatches host) = true := by
    by_contra nobody
    rw [filter_nil nobody] at alone
    cases alone
  simp [tls, noPort, named] at unknown

theorem findSite_union_iff (keyedLeft : Keyed left.sites) (keyedRight : Keyed right.sites)
    (apart : left.sites.Disjoint right.sites) :
    findSite (left.union right) host isTls = findSite left host isTls ↔
      ¬ right.Disturbs left host isTls := by
  rw [findSite_union apart, Config.Disturbs]
  rcases Nat.lt_trichotomy (left.rank host isTls) (right.rank host isTls) with less | same | more
  · rw [better_right less]
    have unequal : left.rank host isTls ≠ right.rank host isTls := by omega
    cases found : findSite right host isTls with
    | none =>
        -- a better rank without a site is an ambiguous name, and then the left knows nothing
        have nobody : findSite left host isTls = none := by
          have low : ¬ 2 ≤ right.rank host isTls := fun known => findSite_of_key known found
          exact findSite_of_rank_zero (by omega)
        simp [nobody]
    | some site =>
        have differ : findSite left host isTls ≠ some site := by
          intro also
          exact findSite_apart keyedLeft keyedRight apart also found
        simp [less, Ne.symm differ]
  · rw [better_none same, findSite_noSites]
    simp [same, eq_comm]
  · rw [better_left more]
    have notLess : ¬ left.rank host isTls < right.rank host isTls := by omega
    have unequal : left.rank host isTls ≠ right.rank host isTls := by omega
    simp [notLess, unequal]

end Disturbance

/-- A request is answered as by the side that knows its host better, and as by no sites when both
know it alike.  A host of the left keeps its site where the right does not disturb it. -/
theorem served_by_better {left right : Config} (keyedLeft : Keyed left.sites)
    (keyedRight : Keyed right.sites) (apart : left.sites.Disjoint right.sites)
    (parser : UriParser) (world : World) (remoteAddr : SocketAddr) (isTls : Bool)
    (incoming : Request) :
    let host := requestHost (ensureRequestId (world.uuids 0) incoming).2
    proxy parser world (left.union right) remoteAddr isTls incoming =
        proxy parser world (left.better right host isTls) remoteAddr isTls incoming ∧
      (findSite (left.union right) host isTls = findSite left host isTls ↔
        ¬ right.Disturbs left host isTls) :=
  ⟨proxy_congr (findSite_union apart _ isTls), findSite_union_iff keyedLeft keyedRight apart⟩

/-! ## A second port for a name -/

theorem keyed_singleSite (site : SiteConfig) : Keyed (singleSite site).sites := by
  intro key other found
  by_cases same : key = site.address
  · rw [same, singleSite, AList.lookup_insert] at found
    rw [← Option.some.inj found, same]
  · rw [singleSite, AList.lookup_insert_ne same] at found
    cases found

/-- `GET /` with `Host: a.org`. -/
def namedHostRequest : Request :=
  { exampleRequest with headers := [(.host, ⟨utf8 "a.org".toList, by decide⟩)] }

/-- With a second port for `a.org`, a request that names no port is not found any more. -/
theorem served_by_better_two_ports :
    proxy plainUriParser quietWorld
        ((singleSite (tlsSite "a.org:8443".toList)).union
          (singleSite (tlsSite "a.org:9443".toList))) exampleAddr true namedHostRequest =
      proxy plainUriParser quietWorld ⟨∅⟩ exampleAddr true namedHostRequest ∧
    findSite (singleSite (tlsSite "a.org:8443".toList)) "a.org".toList true =
      some (tlsSite "a.org:8443".toList) := by
  have apart : (singleSite (tlsSite "a.org:8443".toList)).sites.Disjoint
      (singleSite (tlsSite "a.org:9443".toList)).sites := by
    unfold AList.Disjoint
    decide
  obtain ⟨served, _⟩ := served_by_better (keyed_singleSite _) (keyed_singleSite _) apart
    plainUriParser quietWorld exampleAddr true namedHostRequest
  exact ⟨served, rfl⟩

end TinyProxy
