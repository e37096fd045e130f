import TinyProxy.Rust.Words

/-!
# Authorities of URLs

A host is a name or an address in brackets; neither can be built with a
character that delimits a part of a URL.  What is displayed is read back.
-/

set_option autoImplicit false

namespace Http

open Rust

/-! ## Hosts -/

/-- Not a delimiter. -/
def isNameChar (c : Char) : Bool := !":/?#[]@".toList.contains c

/-- A character of an IPv6 address. -/
def isAddressChar (c : Char) : Bool := (toDigit 16 c).isSome || c == ':' || c == '.'

def isHostName (text : Str) : Bool := !text.isEmpty && text.all isNameChar

def isAddressText (text : Str) : Bool := !text.isEmpty && text.all isAddressChar

inductive UrlHost where
  | name (text : Str) (valid : isHostName text = true)
  | literal (address : Str) (valid : isAddressText address = true)
deriving DecidableEq

def UrlHost.display : UrlHost → Str
  | .name text _ => text
  | .literal address _ => '[' :: (address ++ [']'])

def UrlHost.isName : UrlHost → Bool
  | .name _ _ => true
  | .literal _ _ => false

def UrlHost.ofName (text : Str) : Option UrlHost :=
  if valid : isHostName text = true then some (.name text valid) else none

def UrlHost.ofLiteral (address : Str) : Option UrlHost :=
  if valid : isAddressText address = true then some (.literal address valid) else none

/-! ## Authorities -/

structure Authority where
  host : UrlHost
  port : Option UInt16
deriving DecidableEq

def portText : Option UInt16 → Str
  | none => []
  | some port => ':' :: decimal port.toNat

def Authority.display (authority : Authority) : Str :=
  authority.host.display ++ portText authority.port

/-- What follows the host. -/
def readPortText (text : Str) : Option (Option UInt16) :=
  if text = [] then some none
  else (stripPrefix [':'] text).bind fun digits => (parseU16 digits).map some

def Authority.parse (text : Str) : Option Authority :=
  if startsWith ['['] text then
    (Text.splitOnce [']'] (text.drop 1)).bind fun cut =>
      (UrlHost.ofLiteral cut.1).bind fun host =>
        (readPortText cut.2).map fun port => ⟨host, port⟩
  else
    (UrlHost.ofName (text.takeWhile (· ≠ ':'))).bind fun host =>
      (readPortText (text.dropWhile (· ≠ ':'))).map fun port => ⟨host, port⟩

/-! ## URLs -/

def inAuthority (c : Char) : Bool := !"/?#".toList.contains c

/-- The authority of a URL with this scheme, and what follows it. -/
def readUrl (scheme url : Str) : Option (Authority × Str) :=
  (stripPrefix (scheme ++ "://".toList) url).bind fun rest =>
    (Authority.parse (rest.takeWhile inAuthority)).map fun authority =>
      (authority, rest.dropWhile inAuthority)

/-- The text can follow an authority. -/
def StartsTarget (target : Str) : Prop := ∀ c ∈ target.head?, inAuthority c = false

/-! ## Reading back -/

theorem readPortText_portText (port : Option UInt16) :
    readPortText (portText port) = some port := by
  cases port with
  | none => rfl
  | some port =>
      have stripped : stripPrefix [':'] (':' :: decimal port.toNat) = some (decimal port.toNat) :=
        stripPrefix_eq_some_iff.mpr rfl
      rw [portText, readPortText, if_neg (List.cons_ne_nil _ _), stripped, Option.bind_some,
        parseU16_decimal]
      rfl

theorem nameChar_of_host {text : Str} (valid : isHostName text = true) :
    text ≠ [] ∧ ∀ c ∈ text, isNameChar c = true := by
  rw [isHostName, Bool.and_eq_true, List.all_eq_true] at valid
  refine ⟨fun empty => ?_, valid.2⟩
  rw [empty] at valid
  cases valid.1

theorem addressChar_of_literal {text : Str} (valid : isAddressText text = true) :
    text ≠ [] ∧ ∀ c ∈ text, isAddressChar c = true := by
  rw [isAddressText, Bool.and_eq_true, List.all_eq_true] at valid
  refine ⟨fun empty => ?_, valid.2⟩
  rw [empty] at valid
  cases valid.1

theorem portText_head {port : Option UInt16} : ∀ c ∈ (portText port).head?, c = ':' := by
  cases port with
  | none => simp [portText]
  | some port => simp [portText]

/-- A part of a text up to a first symbol. -/
theorem takeWhile_append_stop {p : Char → Bool} {front back : Str}
    (inside : ∀ c ∈ front, p c = true) (stop : ∀ c ∈ back.head?, p c = false) :
    (front ++ back).takeWhile p = front ∧ (front ++ back).dropWhile p = back := by
  rw [List.takeWhile_append_of_pos inside, List.dropWhile_append_of_pos inside]
  cases back with
  | nil => simp
  | cons c rest =>
      have out : p c = false := stop c rfl
      simp [out]

theorem name_noBracket {text : Str} (valid : isHostName text = true) (rest : Str) :
    ¬ startsWith ['['] (text ++ rest) = true := by
  obtain ⟨nonempty, chars⟩ := nameChar_of_host valid
  obtain ⟨first, tail, rfl⟩ := List.exists_cons_of_ne_nil nonempty
  intro bracket
  obtain ⟨_, split⟩ := List.isPrefixOf_iff_prefix.mp bracket
  have firstChar := chars first (List.mem_cons_self ..)
  rw [← (List.cons.inj split).1] at firstChar
  exact absurd firstChar (by decide)

/-- A name ends where a colon follows it. -/
theorem name_stop {text rest : Str} (valid : isHostName text = true)
    (stop : ∀ c ∈ rest.head?, c = ':') :
    (text ++ rest).takeWhile (· ≠ ':') = text ∧ (text ++ rest).dropWhile (· ≠ ':') = rest := by
  refine takeWhile_append_stop (fun c member => decide_eq_true ?_) fun c head => ?_
  · rintro rfl
    exact absurd ((nameChar_of_host valid).2 _ member) (by decide)
  · simp [stop c head]

theorem Authority.parse_display (authority : Authority) :
    Authority.parse authority.display = some authority := by
  obtain ⟨host, port⟩ := authority
  cases host with
  | name text valid =>
      obtain ⟨front, back⟩ := name_stop valid (@portText_head port)
      rw [parse, display, UrlHost.display, if_neg (name_noBracket valid _), front, back, UrlHost.ofName,
        dif_pos valid, Option.bind_some, readPortText_portText]
      rfl
  | literal address valid =>
      obtain ⟨_, chars⟩ := addressChar_of_literal valid
      have absent : ']' ∉ address := fun member => absurd (chars _ member) (by decide)
      have shape : display ⟨.literal address valid, port⟩ =
          '[' :: (address ++ ']' :: portText port) := by
        simp [display, UrlHost.display]
      rw [shape, parse, if_pos (by simp [startsWith]), List.drop_one, List.tail_cons,
        Text.splitOnce_singleton ']' (portText port) absent, Option.bind_some, UrlHost.ofLiteral,
        dif_pos valid, Option.bind_some, readPortText_portText]
      rfl

/-- Whatever no delimiter satisfies stays inside an authority. -/
theorem inAuthority_of {P : Char → Bool} (slash : P '/' = false) (mark : P '?' = false)
    (hash : P '#' = false) {c : Char} (holds : P c = true) : inAuthority c = true := by
  by_contra outside
  rw [inAuthority, Bool.not_eq_true, Bool.not_eq_false', List.contains_iff_mem] at outside
  have delimiter : c = '/' ∨ c = '?' ∨ c = '#' := by simpa using outside
  rcases delimiter with rfl | rfl | rfl
  · exact Bool.false_ne_true (slash.symm.trans holds)
  · exact Bool.false_ne_true (mark.symm.trans holds)
  · exact Bool.false_ne_true (hash.symm.trans holds)

theorem inAuthority_portText {port : Option UInt16} : ∀ c ∈ portText port, inAuthority c = true := by
  cases port with
  | none => simp [portText]
  | some port =>
      intro c member
      rcases List.mem_cons.mp member with rfl | digit
      · decide
      · exact inAuthority_of (by decide) (by decide) (by decide) (decimal_isDigit digit)

theorem inAuthority_display (authority : Authority) :
    ∀ c ∈ authority.display, inAuthority c = true := by
  obtain ⟨host, port⟩ := authority
  intro c member
  rcases List.mem_append.mp member with inHost | inPort
  · cases host with
    | name text valid =>
        exact inAuthority_of (by decide) (by decide) (by decide)
          ((nameChar_of_host valid).2 c inHost)
    | literal address valid =>
        rcases List.mem_cons.mp inHost with rfl | inside
        · decide
        rcases List.mem_append.mp inside with inAddress | last
        · exact inAuthority_of (by decide) (by decide) (by decide)
            ((addressChar_of_literal valid).2 c inAddress)
        · obtain rfl := List.mem_singleton.mp last
          decide
  · exact inAuthority_portText c inPort

/-- A URL is read back as what it was made of. -/
theorem readUrl_display (scheme : Str) (authority : Authority) {target : Str}
    (starts : StartsTarget target) :
    readUrl scheme (scheme ++ "://".toList ++ (authority.display ++ target)) =
      some (authority, target) := by
  obtain ⟨front, back⟩ := takeWhile_append_stop (inAuthority_display authority) starts
  rw [readUrl, stripPrefix_eq_some_iff.mpr rfl, Option.bind_some, front, back,
    Authority.parse_display]
  rfl

/-- What is read after the authority can follow one. -/
theorem readUrl_target {scheme url target : Str} {authority : Authority}
    (read : readUrl scheme url = some (authority, target)) : StartsTarget target := by
  obtain ⟨rest, _, parsed⟩ := Option.bind_eq_some_iff.mp read
  obtain ⟨_, _, same⟩ := Option.map_eq_some_iff.mp parsed
  obtain ⟨_, rfl⟩ := Prod.mk.inj same
  intro c head
  have stop := List.head?_dropWhile_not inAuthority rest
  rw [Option.mem_def.mp head] at stop
  exact stop

theorem Authority.parse_isName {text : Str} {authority : Authority}
    (noBracket : ¬ startsWith ['['] text = true) (parsed : parse text = some authority) :
    authority.host.isName = true := by
  rw [parse, if_neg noBracket] at parsed
  obtain ⟨host, made, found⟩ := Option.bind_eq_some_iff.mp parsed
  obtain ⟨_, _, rfl⟩ := Option.map_eq_some_iff.mp found
  rw [UrlHost.ofName] at made
  split at made
  · rw [← Option.some.inj made]
    rfl
  · cases made

/-- An address is only read from brackets. -/
theorem readUrl_isName {scheme rest target : Str} {authority : Authority}
    (noBracket : rest.head? ≠ some '[')
    (read : readUrl scheme (scheme ++ "://".toList ++ rest) = some (authority, target)) :
    authority.host.isName = true := by
  rw [readUrl, stripPrefix_eq_some_iff.mpr rfl, Option.bind_some] at read
  obtain ⟨_, parsed, same⟩ := Option.map_eq_some_iff.mp read
  rw [(Prod.mk.inj same).1] at parsed
  refine Authority.parse_isName (fun bracket => noBracket ?_) parsed
  obtain ⟨tail, split⟩ := List.isPrefixOf_iff_prefix.mp bracket
  obtain ⟨after, whole⟩ := List.takeWhile_prefix (p := inAuthority) (l := rest)
  rw [← whole, ← split]
  rfl

end Http
