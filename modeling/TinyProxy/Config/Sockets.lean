import TinyProxy.Config.Parser

/-!
# Validated listen sockets

What an accepted configuration guarantees about the sockets of its sites.
-/

set_option autoImplicit false

namespace TinyProxy

open Rust

def listensOn (listenAddr : SocketAddr) (site : SiteConfig) : Bool :=
  (resolveListenAddr site.address).toOption = some listenAddr

theorem listensOn_iff {listenAddr : SocketAddr} {site : SiteConfig} :
    listensOn listenAddr site = true ↔ resolveListenAddr site.address = .ok listenAddr := by
  unfold listensOn
  cases resolveListenAddr site.address <;> simp [Except.toOption]

def sniName (site : SiteConfig) : Str := toAsciiLowercase (extractHostname site.address)

/-- The table knows the site's socket, and its SNI name if it has one. -/
def Recorded (seen : SocketTable) (site : SiteConfig) : Prop :=
  ∃ listenAddr, resolveListenAddr site.address = .ok listenAddr ∧
    seen.tls.lookup listenAddr = some site.tls.isSome ∧
    (site.tls.isSome = true → (seen.sni.lookup (listenAddr, sniName site)).isSome = true)

/-- Nothing that is known is forgotten or changed. -/
def SocketTable.Extends (seen later : SocketTable) : Prop :=
  (∀ listenAddr isTls, seen.tls.lookup listenAddr = some isTls →
    later.tls.lookup listenAddr = some isTls) ∧
  ∀ key, (seen.sni.lookup key).isSome = true → (later.sni.lookup key).isSome = true

theorem SocketTable.Extends.trans {first second third : SocketTable}
    (start : first.Extends second) (finish : second.Extends third) : first.Extends third :=
  ⟨fun listenAddr isTls known => finish.1 listenAddr isTls (start.1 listenAddr isTls known),
    fun key known => finish.2 key (start.2 key known)⟩

theorem Recorded.mono {seen later : SocketTable} {site : SiteConfig} (extends_ : seen.Extends later)
    (recorded : Recorded seen site) : Recorded later site := by
  obtain ⟨listenAddr, resolved, known, named⟩ := recorded
  exact ⟨listenAddr, resolved, extends_.1 _ _ known, fun isTls => extends_.2 _ (named isTls)⟩

/-- No site on record has the TLS site's socket and SNI name. -/
def Fresh (seen : SocketTable) (site : SiteConfig) : Prop :=
  ∀ listenAddr, resolveListenAddr site.address = .ok listenAddr → site.tls.isSome = true →
    seen.sni.lookup (listenAddr, sniName site) = none

theorem checkSni_ok {site : SiteConfig} {listenAddr : SocketAddr} {seen later : SocketTable}
    (passed : checkSite.checkSni site listenAddr site.tls.isSome seen = .ok later) :
    seen.Extends later ∧ later.tls = seen.tls ∧
      (site.tls.isSome = true → seen.sni.lookup (listenAddr, sniName site) = none ∧
        (later.sni.lookup (listenAddr, sniName site)).isSome = true) := by
  unfold checkSite.checkSni at passed
  by_cases isTls : site.tls.isSome = true
  · rw [if_pos isTls] at passed
    dsimp only at passed
    split at passed
    next => cases passed
    next unknown =>
      obtain rfl := Except.ok.inj passed
      refine ⟨⟨fun _ _ known => known, fun key known => ?_⟩, rfl, fun _ => ⟨unknown, ?_⟩⟩
      · rw [List.lookup_cons]
        split
        · rfl
        · exact known
      · simp [sniName]
  · rw [if_neg isTls] at passed
    obtain rfl := Except.ok.inj passed
    exact ⟨⟨fun _ _ known => known, fun _ known => known⟩, rfl, fun tls => absurd tls isTls⟩

theorem checkSite_ok {site : SiteConfig} {seen later : SocketTable}
    (passed : checkSite site seen = .ok later) :
    seen.Extends later ∧ Recorded later site ∧ Fresh seen site := by
  unfold checkSite at passed
  cases resolved : resolveListenAddr site.address with
  | error e =>
      rw [resolved] at passed
      cases passed
  | ok listenAddr =>
      rw [resolved] at passed
      dsimp only at passed
      have fresh : (site.tls.isSome = true →
          seen.sni.lookup (listenAddr, sniName site) = none) → Fresh seen site := by
        intro unknown addr same isTls
        rw [resolved] at same
        obtain rfl := Except.ok.inj same
        exact unknown isTls
      cases known : seen.tls.lookup listenAddr with
      | some prevTls =>
          rw [known] at passed
          dsimp only at passed
          split at passed
          next => cases passed
          next sameTls =>
            obtain ⟨extends_, tls, sni⟩ := checkSni_ok passed
            have isTls : prevTls = site.tls.isSome := Decidable.not_not.mp sameTls
            refine ⟨extends_, ⟨listenAddr, resolved, ?_, fun isTls => (sni isTls).2⟩,
              fresh fun isTls => (sni isTls).1⟩
            rw [tls, known, isTls]
      | none =>
          rw [known] at passed
          obtain ⟨⟨extendsTls, extendsSni⟩, tls, sni⟩ := checkSni_ok passed
          refine ⟨⟨fun addr isTls before => ?_, extendsSni⟩,
            ⟨listenAddr, resolved, ?_, fun isTls => (sni isTls).2⟩, fresh fun isTls => (sni isTls).1⟩
          · apply extendsTls
            rw [List.lookup_cons]
            split
            next same =>
              rw [eq_of_beq same, known] at before
              cases before
            next => exact before
          · rw [tls]
            simp

/-- Two TLS sites on one socket have different SNI names. -/
def SniApart (first second : SiteConfig) : Prop :=
  ∀ listenAddr, listensOn listenAddr first = true → listensOn listenAddr second = true →
    first.tls.isSome = true → second.tls.isSome = true → sniName first ≠ sniName second

instance : Std.Symm SniApart where
  symm _ _ apart listenAddr isFirst isSecond firstTls secondTls same :=
    apart listenAddr isSecond isFirst secondTls firstTls same.symm

theorem checkSites_ok : ∀ {sites : List SiteConfig} {seen later : SocketTable},
    checkSites sites seen = .ok later →
      seen.Extends later ∧ (∀ site ∈ sites, Recorded later site ∧ Fresh seen site) ∧
        sites.Pairwise SniApart := by
  intro sites
  induction sites with
  | nil =>
      intro seen later passed
      obtain rfl := Except.ok.inj passed
      exact ⟨⟨fun _ _ known => known, fun _ known => known⟩, by simp, List.Pairwise.nil⟩
  | cons site rest ih =>
      intro seen later passed
      obtain ⟨middle, first, others⟩ := bind_ok passed
      obtain ⟨start, recorded, fresh⟩ := checkSite_ok first
      obtain ⟨finish, all, distinct⟩ := ih others
      have freshBefore : ∀ other, Fresh middle other → Fresh seen other := by
        intro other unknown listenAddr resolved isTls
        have later := unknown listenAddr resolved isTls
        cases before : seen.sni.lookup (listenAddr, sniName other) with
        | none => rfl
        | some existing =>
            have known := start.2 (listenAddr, sniName other) (by rw [before]; rfl)
            rw [later] at known
            cases known
      refine ⟨start.trans finish, ?_, List.Pairwise.cons ?_ distinct⟩
      · intro other member
        rcases List.mem_cons.mp member with rfl | member
        · exact ⟨recorded.mono finish, fresh⟩
        · exact ⟨(all other member).1, freshBefore other (all other member).2⟩
      · intro other member listenAddr here there firstTls secondTls same
        obtain ⟨addr, resolved, _, named⟩ := recorded
        rw [listensOn_iff, resolved] at here
        obtain rfl := Except.ok.inj here
        have known := named firstTls
        rw [same, (all other member).2 addr (listensOn_iff.mp there) secondTls] at known
        cases known

/-- The sockets of a configuration that passes validation. -/
structure ValidSockets (config : Config) : Prop where
  resolves : ∀ site ∈ config.values, ∃ listenAddr,
    resolveListenAddr site.address = .ok listenAddr
  uniform : ∀ first ∈ config.values, ∀ second ∈ config.values, ∀ listenAddr,
    listensOn listenAddr first = true → listensOn listenAddr second = true →
      first.tls.isSome = second.tls.isSome
  distinct : config.values.Pairwise SniApart

theorem validSockets_of_validated {config : Config}
    (validated : validateListenSockets config = .ok ()) : ValidSockets config := by
  unfold validateListenSockets at validated
  cases sites : checkSites config.values ⟨[], []⟩ with
  | error e =>
      rw [sites] at validated
      cases validated
  | ok later =>
      obtain ⟨_, all, distinct⟩ := checkSites_ok sites
      refine ⟨fun site member => ?_, fun first isFirst second isSecond listenAddr here there => ?_,
        distinct⟩
      · obtain ⟨listenAddr, resolved, _⟩ := (all site member).1
        exact ⟨listenAddr, resolved⟩
      · obtain ⟨a, resolvedA, knownA, _⟩ := (all first isFirst).1
        obtain ⟨b, resolvedB, knownB, _⟩ := (all second isSecond).1
        rw [listensOn_iff, resolvedA] at here
        rw [listensOn_iff, resolvedB] at there
        obtain rfl := Except.ok.inj here
        obtain rfl := Except.ok.inj there
        rw [knownA] at knownB
        exact Option.some.inj knownB

theorem validated_of_accepted {parser : Http.UriParser} {content : Str} {config : Config}
    (accepted : Config.fromStr parser content = .ok config) :
    validateListenSockets config = .ok () := by
  obtain ⟨s, _, checked⟩ := bind_ok accepted
  obtain ⟨_, validated, same⟩ := bind_ok checked
  obtain rfl := Except.ok.inj same
  exact validated

theorem validSockets_of_accepted {parser : Http.UriParser} {content : Str} {config : Config}
    (accepted : Config.fromStr parser content = .ok config) : ValidSockets config :=
  validSockets_of_validated (validated_of_accepted accepted)

/-! ## What passes validation -/

/-- The site agrees with what the table has on its socket. -/
def Agrees (seen : SocketTable) (site : SiteConfig) : Prop :=
  ∀ listenAddr isTls, listensOn listenAddr site = true →
    seen.tls.lookup listenAddr = some isTls → isTls = site.tls.isSome

/-- A site that agrees and is fresh goes on record, and nothing else does. -/
theorem checkSite_of_fresh {site : SiteConfig} {seen : SocketTable} {listenAddr : SocketAddr}
    (resolved : resolveListenAddr site.address = .ok listenAddr) (agrees : Agrees seen site)
    (fresh : Fresh seen site) :
    ∃ later, checkSite site seen = .ok later ∧
      (∀ addr isTls, later.tls.lookup addr = some isTls →
        seen.tls.lookup addr = some isTls ∨ (addr = listenAddr ∧ isTls = site.tls.isSome)) ∧
      ∀ key, later.sni.lookup key ≠ none →
        seen.sni.lookup key ≠ none ∨ (site.tls.isSome = true ∧ key = (listenAddr, sniName site)) := by
  have checked : ∀ seen' : SocketTable, seen'.sni = seen.sni →
      ∃ later, checkSite.checkSni site listenAddr site.tls.isSome seen' = .ok later ∧
        later.tls = seen'.tls ∧ ∀ key, later.sni.lookup key ≠ none →
          seen.sni.lookup key ≠ none ∨
            (site.tls.isSome = true ∧ key = (listenAddr, sniName site)) := by
    intro seen' sameSni
    unfold checkSite.checkSni
    by_cases isTls : site.tls.isSome = true
    · have unknown := fresh listenAddr resolved isTls
      rw [sniName] at unknown
      rw [if_pos isTls]
      dsimp only
      rw [sameSni, unknown]
      refine ⟨_, rfl, rfl, fun key known => ?_⟩
      rw [List.lookup_cons] at known
      split at known
      next same => exact Or.inr ⟨isTls, eq_of_beq same⟩
      next => exact Or.inl known
    · rw [if_neg isTls]
      exact ⟨_, rfl, rfl, fun key known => Or.inl (sameSni ▸ known)⟩
  unfold checkSite
  rw [resolved]
  dsimp only
  cases known : seen.tls.lookup listenAddr with
  | some prevTls =>
      dsimp only
      have same := agrees listenAddr prevTls (listensOn_iff.mpr resolved) known
      rw [if_neg (not_not_intro same)]
      obtain ⟨later, passed, tls, sni⟩ := checked seen rfl
      exact ⟨later, passed, fun addr isTls found => Or.inl (tls ▸ found), sni⟩
  | none =>
      obtain ⟨later, passed, tls, sni⟩ :=
        checked { seen with tls := (listenAddr, site.tls.isSome) :: seen.tls } rfl
      refine ⟨later, passed, fun addr isTls found => ?_, sni⟩
      rw [tls, List.lookup_cons] at found
      split at found
      next same => exact Or.inr ⟨eq_of_beq same, (Option.some.inj found).symm⟩
      next => exact Or.inl found

theorem checkSites_of_valid : ∀ {sites : List SiteConfig} {seen : SocketTable},
    (∀ site ∈ sites, ∃ listenAddr, resolveListenAddr site.address = .ok listenAddr) →
    (∀ first ∈ sites, ∀ second ∈ sites, ∀ listenAddr, listensOn listenAddr first = true →
      listensOn listenAddr second = true → first.tls.isSome = second.tls.isSome) →
    sites.Pairwise SniApart → (∀ site ∈ sites, Agrees seen site ∧ Fresh seen site) →
    ∃ later, checkSites sites seen = .ok later := by
  intro sites
  induction sites with
  | nil => exact fun _ _ _ _ => ⟨_, rfl⟩
  | cons site rest ih =>
      intro seen resolves uniform distinct known
      obtain ⟨listenAddr, resolved⟩ := resolves site (List.mem_cons_self ..)
      have here := listensOn_iff.mpr resolved
      obtain ⟨agrees, fresh⟩ := known site (List.mem_cons_self ..)
      obtain ⟨middle, first, tls, sni⟩ := checkSite_of_fresh resolved agrees fresh
      obtain ⟨apart, others⟩ := List.pairwise_cons.mp distinct
      obtain ⟨later, passed⟩ := @ih middle
        (fun other member => resolves other (List.mem_cons_of_mem _ member))
        (fun one isOne two isTwo => uniform one (List.mem_cons_of_mem _ isOne) two
          (List.mem_cons_of_mem _ isTwo)) others fun other member => by
        have among : other ∈ site :: rest := List.mem_cons_of_mem _ member
        refine ⟨fun addr isTls there found => ?_, fun addr there isTls => ?_⟩
        · rcases tls addr isTls found with before | ⟨rfl, rfl⟩
          · exact (known other among).1 addr isTls there before
          · exact uniform site (List.mem_cons_self ..) other among addr here there
        · by_contra found
          rcases sni _ found with before | ⟨siteTls, same⟩
          · exact before ((known other among).2 addr there isTls)
          · obtain ⟨rfl, sameName⟩ := Prod.mk.inj same
            exact apart other member addr here (listensOn_iff.mpr there) siteTls isTls
              sameName.symm
      refine ⟨later, ?_⟩
      rw [checkSites, first]
      exact passed

theorem validateListenSockets_iff {config : Config} :
    validateListenSockets config = .ok () ↔ ValidSockets config := by
  constructor
  · exact validSockets_of_validated
  · intro valid
    have nothing : ∀ site ∈ config.values, Agrees ⟨[], []⟩ site ∧ Fresh ⟨[], []⟩ site :=
      fun site _ => ⟨fun _ _ _ found => (nomatch found), fun _ _ _ => rfl⟩
    obtain ⟨later, passed⟩ :=
      checkSites_of_valid valid.resolves valid.uniform valid.distinct nothing
    rw [validateListenSockets, passed]
    rfl

/-- Validation does not depend on the order of the map. -/
theorem ValidSockets.perm {config other : Config} (valid : ValidSockets config)
    (same : other.values.Perm config.values) : ValidSockets other where
  resolves site member := valid.resolves site (same.mem_iff.mp member)
  uniform first isFirst second isSecond :=
    valid.uniform first (same.mem_iff.mp isFirst) second (same.mem_iff.mp isSecond)
  distinct := (same.pairwise_iff symm).mpr valid.distinct

/-! ## Exactness -/

/-- The sites of different keys, each with each other. -/
theorem pairwise_entries_iff {config : Config} {related : SiteConfig → SiteConfig → Prop}
    [Std.Symm related] :
    config.values.Pairwise related ↔ ∀ first ∈ config.sites.entries,
      ∀ second ∈ config.sites.entries, first.1 ≠ second.1 → related first.2 second.2 := by
  have keys : config.sites.entries.Pairwise fun first second => first.1 ≠ second.1 :=
    List.pairwise_map.mp config.sites.nodupKeys
  have symmetric : Std.Symm fun first second : (_ : Str) × SiteConfig =>
      first.1 ≠ second.1 → related first.2 second.2 :=
    ⟨fun _ _ holds apart => symm (holds (Ne.symm apart))⟩
  rw [Config.values, List.pairwise_map]
  constructor
  · intro pairwise first isFirst second isSecond apart
    have kept := pairwise.imp fun {first second} holds
      (_ : first.1 ≠ second.1) => holds
    exact kept.forall isFirst isSecond (fun same => apart (congrArg Sigma.fst same)) apart
  · intro all
    refine keys.imp_of_mem fun {first second} isFirst isSecond apart => ?_
    exact all first isFirst second isSecond apart

/-- Validation passes exactly on sites whose sockets fit together, in any order of the map. -/
theorem validateListenSockets_exact (config : Config) :
    (validateListenSockets config = .ok () ↔
      (∀ site ∈ config.sites.entries, ∃ listenAddr,
        resolveListenAddr site.2.address = .ok listenAddr) ∧
      (∀ first ∈ config.sites.entries, ∀ second ∈ config.sites.entries, ∀ listenAddr,
        resolveListenAddr first.2.address = .ok listenAddr →
        resolveListenAddr second.2.address = .ok listenAddr →
        first.2.tls.isSome = second.2.tls.isSome) ∧
      (∀ first ∈ config.sites.entries, ∀ second ∈ config.sites.entries, first.1 ≠ second.1 →
        ∀ listenAddr, resolveListenAddr first.2.address = .ok listenAddr →
        resolveListenAddr second.2.address = .ok listenAddr →
        first.2.tls.isSome = true → second.2.tls.isSome = true →
        eqIgnoreAsciiCase (extractHostname first.2.address)
          (extractHostname second.2.address) = false)) ∧
    ∀ order : Config, order.sites.entries.Perm config.sites.entries →
      (validateListenSockets order = .ok () ↔ validateListenSockets config = .ok ()) := by
  have sites : ∀ {claim : SiteConfig → Prop}, (∀ site ∈ config.values, claim site) ↔
      ∀ entry ∈ config.sites.entries, claim entry.2 := by
    intro claim
    rw [Config.values, List.forall_mem_map]
  have apart_iff : ∀ first second : SiteConfig, SniApart first second ↔ ∀ listenAddr,
      resolveListenAddr first.address = .ok listenAddr →
      resolveListenAddr second.address = .ok listenAddr →
      first.tls.isSome = true → second.tls.isSome = true →
      eqIgnoreAsciiCase (extractHostname first.address)
        (extractHostname second.address) = false := by
    intro first second
    simp only [SniApart, listensOn_iff, sniName, eqIgnoreAsciiCase, decide_eq_false_iff_not, ne_eq]
  constructor
  · rw [validateListenSockets_iff]
    constructor
    · intro valid
      refine ⟨sites.mp valid.resolves, fun first isFirst second isSecond listenAddr here there => ?_,
        fun first isFirst second isSecond apart => ?_⟩
      · exact valid.uniform first.2 (List.mem_map_of_mem isFirst) second.2
          (List.mem_map_of_mem isSecond) listenAddr (listensOn_iff.mpr here)
          (listensOn_iff.mpr there)
      · apply (apart_iff first.2 second.2).mp
        exact pairwise_entries_iff.mp valid.distinct first isFirst second isSecond apart
    · rintro ⟨resolves, uniform, distinct⟩
      refine ⟨sites.mpr resolves, ?_, ?_⟩
      · refine sites.mpr fun first isFirst => sites.mpr fun second isSecond listenAddr here there => ?_
        exact uniform first isFirst second isSecond listenAddr (listensOn_iff.mp here)
          (listensOn_iff.mp there)
      · refine pairwise_entries_iff.mpr fun first isFirst second isSecond apart => ?_
        exact (apart_iff first.2 second.2).mpr (distinct first isFirst second isSecond apart)
  · intro order same
    have values : order.values.Perm config.values := by
      rw [Config.values, Config.values]
      exact same.map _
    rw [validateListenSockets_iff, validateListenSockets_iff]
    constructor
    · intro valid
      exact valid.perm values.symm
    · intro valid
      exact valid.perm values

end TinyProxy
