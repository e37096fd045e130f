import TinyProxy.Config.Independence
import TinyProxy.Config.Render
import TinyProxy.Proxy.Wildcard

/-!
# Bare host names as site addresses

Site selection has a rule for a site without a port; the validation of listen
sockets asks every address for one.
-/

set_option autoImplicit false

namespace TinyProxy

open Rust Http

/-! ## A text with one site -/

section Single
variable {parser : UriParser} {opening closing address : Str} {args inner : List Str}
variable {body : List Stmt}

/-- The state in which the body of the first site is read. -/
def ParserState.firstSite (address : Str) : ParserState :=
  { ParserState.initial with currentSiteAddress := some address }

/-- The state in which a text may end after its only site. -/
def ParserState.afterSite (address : Str) (directives : List Directive) (inside : ParserState) :
    ParserState where
  sites := (∅ : AList fun _ : Str => SiteConfig).insert address
    ⟨address, directives, inside.currentSiteTls⟩
  currentSiteAddress := none
  currentSiteTls := none
  directiveStack := [[]]
  blockStack := inside.blockStack

/-- The brace after the body closes the site. -/
theorem closeBlock_firstSite (laid : Laid inner body) {inside : ParserState}
    (run : parseLines parser 2 inner (.firstSite address) = .ok inside) :
    ∃ directives, inside.directiveStack = [directives] ∧
      ∀ line, closeBlock parser line inside = .ok (.afterSite address directives inside) := by
  obtain ⟨produced, grown, _⟩ := laid_run laid run (Option.some_ne_none address)
    (List.cons_ne_nil [] [])
  have stack : inside.directiveStack = [produced] := grown.stack [] [] rfl
  refine ⟨produced, stack, fun line => ?_⟩
  have site : inside.currentSiteAddress = some address := grown.site
  have sites : inside.sites = ∅ := grown.sites
  have fresh : address ∉ (∅ : AList fun _ : Str => SiteConfig) := AList.notMem_empty address
  rw [closeBlock, stack]
  dsimp only
  rw [closeSite, site, stack]
  dsimp only
  rw [sites, if_neg fresh]
  rfl

theorem fromStr_singleSite_iff (opens : lineKind opening = .opener (address :: args))
    (closes : lineKind closing = .closer) (laid : Laid inner body) {content : Str}
    (text : lines content = opening :: (inner ++ [closing])) {config : Config} :
    Config.fromStr parser content = .ok config ↔
      ∃ inside directives, parseLines parser 2 inner (.firstSite address) = .ok inside ∧
        inside.directiveStack = [directives] ∧
        config = singleSite ⟨address, directives, inside.currentSiteTls⟩ ∧
        validateListenSockets config = .ok () := by
  have opened : openBlock (address :: args) .initial = .firstSite address :=
    openBlock_site between_initial
  have split : parseLines parser 1 (lines content) .initial =
      (parseLines parser 2 inner (.firstSite address) >>= fun inside =>
        closeBlock parser (2 + inner.length) inside >>=
          parseLines parser (2 + inner.length + 1) []) := by
    rw [text, parseLines_block_eq opens closes, opened]
  constructor
  · intro accepted
    obtain ⟨s, run, checked⟩ := bind_ok accepted
    obtain ⟨_, validated, same⟩ := bind_ok checked
    obtain rfl := Except.ok.inj same
    rw [split] at run
    obtain ⟨inside, bodyRun, rest⟩ := bind_ok run
    obtain ⟨directives, stack, closes⟩ := closeBlock_firstSite laid bodyRun
    rw [closes] at rest
    obtain rfl := Except.ok.inj rest
    exact ⟨inside, directives, bodyRun, stack, rfl, validated⟩
  · rintro ⟨inside, directives, bodyRun, stack, rfl, validated⟩
    obtain ⟨directives', stack', closes⟩ := closeBlock_firstSite laid bodyRun
    obtain rfl := List.singleton_inj.mp (stack.symm.trans stack')
    rw [Config.fromStr, split, bodyRun]
    change (closeBlock parser _ inside >>= _) >>= _ = _
    rw [closes]
    change (validateListenSockets (singleSite _) >>= _) = _
    rw [validated]
    rfl

end Single

theorem validate_singleSite {site : SiteConfig} :
    validateListenSockets (singleSite site) = .ok () ↔
      ∃ listenAddr, resolveListenAddr site.address = .ok listenAddr := by
  have values : (singleSite site).values = [site] := rfl
  rw [validateListenSockets_iff]
  constructor
  · intro valid
    exact valid.resolves site (values ▸ List.mem_singleton_self site)
  · intro resolves
    refine ⟨?_, ?_, ?_⟩
    · rw [values]
      exact List.forall_mem_singleton.mpr resolves
    · rw [values]
      intro first isFirst second isSecond _ _ _
      rw [List.mem_singleton.mp isFirst, List.mem_singleton.mp isSecond]
    · rw [values]
      exact List.pairwise_singleton _ _

/-! ## Host names -/

section Names
variable {host : Str}

theorem isDnsChar_visible {c : Char} (dns : isDnsChar c = true) :
    isWhitespace c = false ∧ c ≠ '#' := by
  have range : (65 ≤ c.toNat ∧ c.toNat ≤ 90) ∨ (97 ≤ c.toNat ∧ c.toNat ≤ 122) ∨
      (48 ≤ c.toNat ∧ c.toNat ≤ 57) ∨ c.toNat = 45 ∨ c.toNat = 46 := by
    simp only [isDnsChar, Char.isAlphanum, Char.isAlpha, Char.isUpper, Char.isLower, Char.isDigit,
      Bool.or_eq_true, Bool.and_eq_true, decide_eq_true_eq] at dns
    rcases dns with (((upper | lower) | digit) | rfl) | rfl
    · exact Or.inl upper
    · exact Or.inr (Or.inl lower)
    · exact Or.inr (Or.inr (Or.inl digit))
    · decide
    · decide
  constructor
  · simp only [isWhitespace, Bool.or_eq_false_iff, Bool.and_eq_false_iff, decide_eq_false_iff_not,
      beq_eq_false_iff_ne]
    omega
  · rintro rfl
    revert range
    decide

theorem IsDnsName.isWord (dns : IsDnsName host) : IsWord host :=
  ⟨dns.1, fun c member => (isDnsChar_visible (List.all_eq_true.mp dns.2 c member)).1⟩

theorem IsDnsName.noComment (dns : IsDnsName host) (rest : Str) :
    (host ++ rest).head? ≠ some '#' := by
  obtain ⟨c, tail, rfl⟩ := List.exists_cons_of_ne_nil dns.1
  intro comment
  exact (isDnsChar_visible (List.all_eq_true.mp dns.2 c (List.mem_cons_self ..))).2
    (Option.some.inj comment)

/-- Without a port the name itself has to be one. -/
theorem resolve_bare_iff (dns : IsDnsName host) :
    (∃ listenAddr, resolveListenAddr host = .ok listenAddr) ↔ (parseU16 host).isSome = true := by
  have noAddr : parseSocketAddr host = none := by
    cases parsed : parseSocketAddr host with
    | none => rfl
    | some addr =>
        obtain ⟨name, digits, rfl, _⟩ := parseSocketAddr_shape parsed
        exact absurd (List.mem_append_right name (List.mem_cons_self ..)) dns.plain.1
  rw [resolveListenAddr, noAddr, afterLast_plain dns.plain.1]
  cases parseU16 host with
  | none => simp
  | some port => simp

/-- A site without a port is found for its name, with and without a port. -/
theorem findSite_singleSite (dns : IsDnsName host) {site : SiteConfig} (address : site.address = host)
    (isTls : Bool) :
    findSite (singleSite site) host isTls = some site ∧ ∀ port : UInt16,
      findSite (singleSite site) (host ++ ':' :: decimal port.toNat) isTls = some site := by
  subst address
  have here : (singleSite site).sites.lookup site.address = some site := AList.lookup_insert _
  refine ⟨by rw [findSite, here], fun port => ?_⟩
  have other : site.address ++ ':' :: decimal port.toNat ≠ site.address := by
    intro same
    have colon : ':' ∈ site.address := same ▸ List.mem_append_right _ (List.mem_cons_self ..)
    exact dns.plain.1 colon
  have missing : (singleSite site).sites.lookup (site.address ++ ':' :: decimal port.toNat) =
      none := AList.lookup_insert_ne other
  rw [findSite, missing]
  dsimp only
  rw [if_pos (hasPort_dns dns _), stripPort_dns dns (decimal_noColon _), here]

end Names

/-! ## The same body without the port -/

/-- Where the address with the port is accepted, the bare name is, and its site is found,
exactly when the name can be read as a port. -/
theorem bare_host_iff {parser : UriParser} {host content bare closing : Str} {inner : List Str}
    {body : List Stmt} {config : Config} (dns : IsDnsName host)
    (closes : lineKind closing = .closer) (laid : Laid inner body)
    (ported : lines content = openingLine [host ++ ":80".toList] :: (inner ++ [closing]))
    (unported : lines bare = openingLine [host] :: (inner ++ [closing]))
    (accepted : Config.fromStr parser content = .ok config) :
    (∃ config' before site, Config.fromStr parser bare = .ok config' ∧
      config.sites.lookup (host ++ ":80".toList) = some before ∧
      site = { before with address := host } ∧ ∀ isTls,
        findSite config' host isTls = some site ∧ ∀ port : UInt16,
          findSite config' (host ++ ':' :: decimal port.toNat) isTls = some site) ↔
      (parseU16 host).isSome = true := by
  have isWord := dns.isWord
  have isPorted : IsWord (host ++ ":80".toList) := by
    refine ⟨fun empty => dns.1 (List.append_eq_nil_iff.mp empty).1, fun c member => ?_⟩
    rcases List.mem_append.mp member with inHost | inPort
    · exact isWord.solid c inHost
    · exact (isWord_of_all rfl : IsWord ":80".toList).solid c inPort
  have bareComment := dns.noComment []
  rw [List.append_nil] at bareComment
  have opensPorted := (isLine_opening (List.forall_mem_singleton.mpr isPorted)
    (dns.noComment _)).kind
  have opensBare := (isLine_opening (List.forall_mem_singleton.mpr isWord) bareComment).kind
  obtain ⟨inside, directives, bodyRun, stack, rfl, _⟩ :=
    (fromStr_singleSite_iff opensPorted closes laid ported).mp accepted
  have bareRun : parseLines parser 2 inner
      ((ParserState.firstSite (host ++ ":80".toList)).onSite ∅ (some host)) =
        .ok (inside.onSite ∅ (some host)) :=
    laid_onSite laid (Option.some_ne_none host) bodyRun (Option.some_ne_none _)
      (List.cons_ne_nil _ _)
  have bareText := @fromStr_singleSite_iff parser _ _ _ _ _ _ opensBare closes laid _ unported
  constructor
  · rintro ⟨config', before, site, bareAccepted, _⟩
    obtain ⟨_, _, _, _, rfl, validated⟩ := bareText.mp bareAccepted
    exact (resolve_bare_iff dns).mp (validate_singleSite.mp validated)
  · intro number
    have validated : validateListenSockets
        (singleSite ⟨host, directives, inside.currentSiteTls⟩) = .ok () :=
      validate_singleSite.mpr ((resolve_bare_iff dns).mpr number)
    refine ⟨_, _, _, bareText.mpr ⟨_, directives, bareRun, stack, rfl, validated⟩,
      AList.lookup_insert _, rfl, fun isTls => ?_⟩
    exact findSite_singleSite dns rfl isTls

/-! ## A site of the documentation -/

def bareText : Str := "example.com \x7b\nrespond 200 ok\n\x7d".toList

def portedText : Str := "example.com:80 \x7b\nrespond 200 ok\n\x7d".toList

/-- With the port the site is accepted, without it the address cannot be resolved. -/
theorem bare_host_rejected :
    IsDnsName "example.com".toList ∧
      Config.fromStr plainUriParser portedText =
        .ok (singleSite ⟨"example.com:80".toList, [.respond 200 "ok".toList], none⟩) ∧
      Config.fromStr plainUriParser bareText =
        .error (.parse "Cannot parse address: example.com".toList) :=
  ⟨⟨List.cons_ne_nil _ _, rfl⟩, rfl, rfl⟩

/-- A name that is a port number. -/
theorem bare_host_iff_port :
    (∃ config' before site,
      Config.fromStr plainUriParser "8080 \x7b\nrespond 200 ok\n\x7d".toList = .ok config' ∧
      (singleSite ⟨"8080:80".toList, [.respond 200 "ok".toList], none⟩).sites.lookup
        ("8080".toList ++ ":80".toList) = some before ∧
      site = { before with address := "8080".toList } ∧ ∀ isTls,
        findSite config' "8080".toList isTls = some site ∧ ∀ port : UInt16,
          findSite config' ("8080".toList ++ ':' :: decimal port.toNat) isTls = some site) ↔
      (parseU16 "8080".toList).isSome = true := by
  have body : Laid ["respond 200 ok".toList]
      [.line "respond".toList ["200".toList, "ok".toList]] := .line rfl .nil
  have dns : IsDnsName "8080".toList := ⟨List.cons_ne_nil _ _, rfl⟩
  have accepted : Config.fromStr plainUriParser "8080:80 \x7b\nrespond 200 ok\n\x7d".toList =
      .ok (singleSite ⟨"8080:80".toList, [.respond 200 "ok".toList], none⟩) := rfl
  exact @bare_host_iff _ _ _ _ ['\x7d'] _ _ _ dns rfl body rfl rfl accepted

end TinyProxy
