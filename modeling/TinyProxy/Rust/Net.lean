import TinyProxy.Rust.Str

/-!
# Socket addresses

`IpAddr` and `SocketAddr` with the standard library's parser and `Display`.
The parser functions take a text and return what they read and what is left.
-/

set_option autoImplicit false

namespace Rust

inductive Ipv4Addr where
  | octets (a b c d : UInt8)
deriving DecidableEq

/-- Eight 16-bit segments. -/
structure Ipv6Addr where
  segments : List UInt16
  eight : segments.length = 8
deriving DecidableEq

inductive IpAddr where
  | v4 (ip : Ipv4Addr)
  | v6 (ip : Ipv6Addr)
deriving DecidableEq

inductive SocketAddr where
  | v4 (ip : Ipv4Addr) (port : UInt16)
  | v6 (ip : Ipv6Addr) (port : UInt16) (scopeId : UInt32)
deriving DecidableEq

def Ipv4Addr.unspecified : Ipv4Addr := .octets 0 0 0 0

def Ipv4Addr.localhost : Ipv4Addr := .octets 127 0 0 1

def SocketAddr.ip : SocketAddr → IpAddr
  | .v4 ip _ => .v4 ip
  | .v6 ip _ _ => .v6 ip

def SocketAddr.port : SocketAddr → UInt16
  | .v4 _ port => port
  | .v6 _ port _ => port

/-! ## Parsing -/

def readGivenChar (c : Char) : Str → Option Str
  | [] => none
  | d :: rest => if d = c then some rest else none

/-- A number below `bound`: at least one digit, at most `maxDigits` of them. -/
def readNumber (radix bound : Nat) (maxDigits : Option Nat) (allowZeroPrefix : Bool)
    (s : Str) : Option (Nat × Str) :=
  let digits := s.takeWhile fun c => (toDigit radix c).isSome
  let rest := s.dropWhile fun c => (toDigit radix c).isSome
  if digits = [] then none
  else if maxDigits.any (· < digits.length) then none
  else if !allowZeroPrefix && digits.head? == some '0' && 1 < digits.length then none
  else ((readDigits radix 0 digits).filter (· < bound)).map fun n => (n, rest)

def readOctet (s : Str) : Option (UInt8 × Str) :=
  (readNumber 10 (2 ^ 8) (some 3) false s).map fun r => (UInt8.ofNat r.1, r.2)

def readIpv4 (s : Str) : Option (Ipv4Addr × Str) := do
  let (a, s) ← readOctet s
  let (b, s) ← (readGivenChar '.' s).bind readOctet
  let (c, s) ← (readGivenChar '.' s).bind readOctet
  let (d, s) ← (readGivenChar '.' s).bind readOctet
  some (.octets a b c d, s)

def octetPair (high low : UInt8) : UInt16 := UInt16.ofNat (high.toNat * 256 + low.toNat)

/-- Up to `left` colon-separated groups; an embedded IPv4 address fills two and
ends the run.  The flag says that one was read. -/
def readGroups : Nat → Bool → Str → List UInt16 × Bool × Str
  | 0, _, s => ([], false, s)
  | left + 1, first, s =>
      let start := if first then some s else readGivenChar ':' s
      match (if left = 0 then none else start.bind readIpv4) with
      | some (.octets a b c d, rest) => ([octetPair a b, octetPair c d], true, rest)
      | none =>
          match start.bind (readNumber 16 (2 ^ 16) (some 4) true) with
          | some (group, rest) =>
              let (groups, ipv4, after) := readGroups left false rest
              (UInt16.ofNat group :: groups, ipv4, after)
          | none => ([], false, s)

def Ipv6Addr.ofSegments (segments : List UInt16) : Option Ipv6Addr :=
  if eight : segments.length = 8 then some ⟨segments, eight⟩ else none

def readIpv6 (s : Str) : Option (Ipv6Addr × Str) :=
  let (head, headIpv4, rest) := readGroups 8 true s
  if head.length = 8 then (Ipv6Addr.ofSegments head).map fun ip => (ip, rest)
  else if headIpv4 then none
  else do
    let rest ← readGivenChar ':' rest
    let rest ← readGivenChar ':' rest
    let (tail, _, rest) := readGroups (8 - (head.length + 1)) true rest
    let zeroes := List.replicate (8 - head.length - tail.length) 0
    let ip ← Ipv6Addr.ofSegments (head ++ zeroes ++ tail)
    some (ip, rest)

def readPort (s : Str) : Option (UInt16 × Str) := do
  let s ← readGivenChar ':' s
  let (port, s) ← readNumber 10 (2 ^ 16) none true s
  some (UInt16.ofNat port, s)

/-- `read_scope_id().unwrap_or(0)`. -/
def readScopeId (s : Str) : UInt32 × Str :=
  match (readGivenChar '%' s).bind (readNumber 10 (2 ^ 32) none true) with
  | some (scope, rest) => (UInt32.ofNat scope, rest)
  | none => (0, s)

def readSocketAddrV4 (s : Str) : Option (SocketAddr × Str) := do
  let (ip, s) ← readIpv4 s
  let (port, s) ← readPort s
  some (.v4 ip port, s)

def readSocketAddrV6 (s : Str) : Option (SocketAddr × Str) := do
  let s ← readGivenChar '[' s
  let (ip, s) ← readIpv6 s
  let (scope, s) := readScopeId s
  let s ← readGivenChar ']' s
  let (port, s) ← readPort s
  some (.v6 ip port scope, s)

/-- A parse counts only when nothing is left over. -/
def parseAll {β : Type} (read : Str → Option (β × Str)) (s : Str) : Option β :=
  match read s with
  | some (value, []) => some value
  | _ => none

def readIpAddr (s : Str) : Option (IpAddr × Str) :=
  ((readIpv4 s).map fun r => (IpAddr.v4 r.1, r.2)).or
    ((readIpv6 s).map fun r => (IpAddr.v6 r.1, r.2))

/-- `str::parse::<IpAddr>()`. -/
def parseIpAddr (s : Str) : Option IpAddr := parseAll readIpAddr s

/-- `str::parse::<SocketAddr>()`. -/
def parseSocketAddr (s : Str) : Option SocketAddr :=
  parseAll (fun s => (readSocketAddrV4 s).or (readSocketAddrV6 s)) s

/-! ## Display -/

def Ipv4Addr.display : Ipv4Addr → Str
  | .octets a b c d => join ['.'] ([a, b, c, d].map fun o => decimal o.toNat)

def hex (segment : UInt16) : Str := Nat.toDigits 16 segment.toNat

/-- The first longest run of zero segments, as start and length. -/
def longestZeroRun (segments : List UInt16) : Nat × Nat :=
  let step := fun (state : Nat × (Nat × Nat) × (Nat × Nat)) (segment : UInt16) =>
    let (index, longest, current) := state
    if segment = 0 then
      let current := if current.2 = 0 then (index, 1) else (current.1, current.2 + 1)
      (index + 1, if longest.2 < current.2 then current else longest, current)
    else (index + 1, longest, (0, 0))
  (segments.foldl step (0, (0, 0), (0, 0))).2.1

def Ipv6Addr.display (ip : Ipv6Addr) : Str :=
  match ip.segments with
  | [0, 0, 0, 0, 0, 0xffff, ab, cd] =>
      "::ffff:".toList ++ (Ipv4Addr.octets (UInt8.ofNat (ab.toNat / 256)) (UInt8.ofNat ab.toNat)
        (UInt8.ofNat (cd.toNat / 256)) (UInt8.ofNat cd.toNat)).display
  | segments =>
      let (start, len) := longestZeroRun segments
      if 1 < len then
        join [':'] ((segments.take start).map hex) ++ "::".toList ++
          join [':'] ((segments.drop (start + len)).map hex)
      else join [':'] (segments.map hex)

def IpAddr.display : IpAddr → Str
  | .v4 ip => ip.display
  | .v6 ip => ip.display

def SocketAddr.display : SocketAddr → Str
  | .v4 ip port => ip.display ++ ':' :: decimal port.toNat
  | .v6 ip port scope =>
      '[' :: ip.display ++ (if scope = 0 then [] else '%' :: decimal scope.toNat) ++
        "]:".toList ++ decimal port.toNat

/-! ## What was read -/

/-- No digit continues a number here. -/
def Stops (radix : Nat) (t : Str) : Prop := ∀ c ∈ t.head?, (toDigit radix c).isSome = false

theorem readNumber_shape {radix bound : Nat} {maxDigits : Option Nat} {allowZeroPrefix : Bool}
    {s rest : Str} {n : Nat}
    (read : readNumber radix bound maxDigits allowZeroPrefix s = some (n, rest)) :
    ∃ digits, s = digits ++ rest ∧ digits ≠ [] ∧
      (∀ c ∈ digits, (toDigit radix c).isSome = true) ∧
      (readDigits radix 0 digits).filter (· < bound) = some n ∧
      ∀ t, Stops radix t →
        readNumber radix bound maxDigits allowZeroPrefix (digits ++ t) = some (n, t) := by
  unfold readNumber at read
  dsimp only at read
  generalize taken : s.takeWhile (fun c => (toDigit radix c).isSome) = digits at read
  have allDigits : ∀ c ∈ digits, (toDigit radix c).isSome = true := by
    intro c member
    rw [← taken] at member
    have kept := List.mem_takeWhile_imp member
    exact kept
  split at read
  · cases read
  next someDigit =>
  split at read
  · cases read
  next short =>
  split at read
  · cases read
  next noZeroPrefix =>
  obtain ⟨value, inRange, same⟩ := Option.map_eq_some_iff.mp read
  obtain ⟨rfl, left⟩ := Prod.mk.inj same
  refine ⟨digits, ?_, someDigit, allDigits, inRange, ?_⟩
  · rw [← left, ← taken, List.takeWhile_append_dropWhile]
  · intro t stops
    have takenAgain : (digits ++ t).takeWhile (fun c => (toDigit radix c).isSome) = digits := by
      rw [List.takeWhile_append_of_pos allDigits]
      cases t with
      | nil => rw [List.takeWhile_nil, List.append_nil]
      | cons c rest =>
          rw [List.takeWhile_cons_of_neg (by simpa using stops c rfl), List.append_nil]
    have droppedAgain : (digits ++ t).dropWhile (fun c => (toDigit radix c).isSome) = t := by
      rw [List.dropWhile_append_of_pos allDigits]
      cases t with
      | nil => rfl
      | cons c rest => exact List.dropWhile_cons_of_neg (by simpa using stops c rfl)
    unfold readNumber
    dsimp only
    rw [takenAgain, droppedAgain, if_neg someDigit, if_neg short, if_neg noZeroPrefix, inRange]
    rfl

theorem stops_nil (radix : Nat) : Stops radix [] := by
  intro c member
  cases member

theorem stops_dot (t : Str) : Stops 10 ('.' :: t) := by
  intro c member
  cases member
  decide

theorem readOctet_shape {s rest : Str} {octet : UInt8} (read : readOctet s = some (octet, rest)) :
    ∃ digits, s = digits ++ rest ∧ digits ≠ [] ∧
      (∀ c ∈ digits, (toDigit 10 c).isSome = true) ∧
      ∀ t, Stops 10 t → readOctet (digits ++ t) = some (octet, t) := by
  obtain ⟨⟨n, left⟩, number, same⟩ := Option.map_eq_some_iff.mp read
  obtain ⟨rfl, rfl⟩ := Prod.mk.inj same
  obtain ⟨digits, split, someDigit, allDigits, _, again⟩ := readNumber_shape number
  refine ⟨digits, split, someDigit, allDigits, fun t stops => ?_⟩
  rw [readOctet, again t stops]
  rfl

theorem readGivenChar_eq_some_iff {c : Char} {s rest : Str} :
    readGivenChar c s = some rest ↔ s = c :: rest := by
  cases s with
  | nil => simp [readGivenChar]
  | cons d tail =>
      by_cases same : d = c
      · simp [readGivenChar, same]
      · simp [readGivenChar, same]

theorem readDotOctet_shape {s rest : Str} {octet : UInt8}
    (read : (readGivenChar '.' s).bind readOctet = some (octet, rest)) :
    ∃ digits, s = '.' :: digits ++ rest ∧ ∀ t, Stops 10 t →
      (readGivenChar '.' ('.' :: digits ++ t)).bind readOctet = some (octet, t) := by
  obtain ⟨tail, dot, octetRead⟩ := Option.bind_eq_some_iff.mp read
  obtain rfl := readGivenChar_eq_some_iff.mp dot
  obtain ⟨digits, rfl, _, _, again⟩ := readOctet_shape octetRead
  exact ⟨digits, rfl, fun t stops => again t stops⟩

/-- An IPv4 address is read the same way when something else follows it. -/
theorem readIpv4_shape {s rest : Str} {ip : Ipv4Addr} (read : readIpv4 s = some (ip, rest)) :
    ∃ text, s = text ++ rest ∧ (∃ c ∈ text.head?, (toDigit 10 c).isSome = true) ∧
      ∀ t, Stops 10 t → readIpv4 (text ++ t) = some (ip, t) := by
  unfold readIpv4 at read
  obtain ⟨⟨a, s₁⟩, readA, read⟩ := Option.bind_eq_some_iff.mp read
  obtain ⟨⟨b, s₂⟩, readB, read⟩ := Option.bind_eq_some_iff.mp read
  obtain ⟨⟨c, s₃⟩, readC, read⟩ := Option.bind_eq_some_iff.mp read
  obtain ⟨⟨d, s₄⟩, readD, read⟩ := Option.bind_eq_some_iff.mp read
  obtain ⟨rfl, rfl⟩ := Prod.mk.inj (Option.some.inj read)
  obtain ⟨first, rfl, someDigit, allDigits, againA⟩ := readOctet_shape readA
  obtain ⟨second, rfl, againB⟩ := readDotOctet_shape readB
  obtain ⟨third, rfl, againC⟩ := readDotOctet_shape readC
  obtain ⟨fourth, rfl, againD⟩ := readDotOctet_shape readD
  refine ⟨first ++ ('.' :: second ++ ('.' :: third ++ '.' :: fourth)), by simp, ?_, ?_⟩
  · obtain ⟨c, tail, rfl⟩ := List.exists_cons_of_ne_nil someDigit
    exact ⟨c, rfl, allDigits c (List.mem_cons_self ..)⟩
  · intro t stops
    have stepA := againA _ (stops_dot (second ++ ('.' :: third ++ ('.' :: fourth ++ t))))
    have stepB := againB _ (stops_dot (third ++ ('.' :: fourth ++ t)))
    have stepC := againC _ (stops_dot (fourth ++ t))
    have stepD := againD t stops
    simp only [List.append_assoc, List.cons_append] at stepA stepB stepC stepD ⊢
    simp only [readIpv4, Option.bind_eq_bind, stepA, Option.bind_some, stepB, stepC, stepD]

theorem readPort_shape {s : Str} {port : UInt16} (read : readPort s = some (port, [])) :
    ∃ digits, s = ':' :: digits ∧ ':' ∉ digits ∧ parseU16 digits = some port := by
  obtain ⟨digits, colon, read⟩ := Option.bind_eq_some_iff.mp read
  obtain rfl := readGivenChar_eq_some_iff.mp colon
  obtain ⟨⟨n, rest⟩, number, same⟩ := Option.bind_eq_some_iff.mp read
  obtain ⟨rfl, rfl⟩ := Prod.mk.inj (Option.some.inj same)
  obtain ⟨all, split, someDigit, allDigits, inRange, _⟩ := readNumber_shape number
  rw [List.append_nil] at split
  subst split
  refine ⟨digits, rfl, ?_, ?_⟩
  · intro colon
    have notDigit := allDigits ':' colon
    revert notDigit
    decide
  · have unsigned : stripPrefix ['+'] digits = none := by
      rw [Option.eq_none_iff_forall_ne_some]
      intro tail stripped
      obtain rfl := stripPrefix_eq_some_iff.mp stripped
      have notDigit := allDigits '+' (by simp)
      revert notDigit
      decide
    rw [parseU16, parseUnsigned, unsigned, Option.getD_none, if_neg someDigit, inRange]
    rfl

theorem readGroups_suffix (left : Nat) : ∀ (first : Bool) (s : Str),
    (readGroups left first s).2.2 <:+ s := by
  induction left with
  | zero =>
      intro first s
      exact List.suffix_refl s
  | succ left ih =>
      intro first s
      have dropped : ∀ start, (if first then some s else readGivenChar ':' s) = some start →
          start <:+ s := by
        intro start same
        by_cases isFirst : first = true
        · rw [if_pos isFirst] at same
          rw [Option.some.inj same]
        · rw [if_neg isFirst] at same
          rw [readGivenChar_eq_some_iff.mp same]
          exact List.suffix_cons ':' start
      unfold readGroups
      dsimp only
      split
      next a b c d rest embedded =>
        split at embedded
        · cases embedded
        obtain ⟨start, begin_, read⟩ := Option.bind_eq_some_iff.mp embedded
        obtain ⟨text, split, _⟩ := readIpv4_shape read
        exact List.IsSuffix.trans ⟨text, split.symm⟩ (dropped start begin_)
      next noIpv4 =>
        split
        next group rest read =>
          obtain ⟨start, begin_, number⟩ := Option.bind_eq_some_iff.mp read
          obtain ⟨digits, split, _⟩ := readNumber_shape number
          exact (ih false rest).trans
            (List.IsSuffix.trans ⟨digits, split.symm⟩ (dropped start begin_))
        next => exact List.suffix_refl s

theorem readIpv6_suffix {s rest : Str} {ip : Ipv6Addr} (read : readIpv6 s = some (ip, rest)) :
    rest <:+ s := by
  unfold readIpv6 at read
  have headSuffix := readGroups_suffix 8 true s
  generalize readGroups 8 true s = head at read headSuffix
  obtain ⟨groups, ipv4, after⟩ := head
  dsimp only at read headSuffix
  split at read
  · obtain ⟨_, _, same⟩ := Option.map_eq_some_iff.mp read
    obtain ⟨_, rfl⟩ := Prod.mk.inj same
    exact headSuffix
  split at read
  · cases read
  obtain ⟨s₁, colon₁, second⟩ := Option.bind_eq_some_iff.mp read
  obtain ⟨s₂, colon₂, third⟩ := Option.bind_eq_some_iff.mp second
  obtain rfl := readGivenChar_eq_some_iff.mp colon₁
  obtain rfl := readGivenChar_eq_some_iff.mp colon₂
  have tailSuffix := readGroups_suffix (8 - (groups.length + 1)) true s₂
  generalize readGroups (8 - (groups.length + 1)) true s₂ = tail at third tailSuffix
  obtain ⟨tailGroups, tailIpv4, rest'⟩ := tail
  obtain ⟨_, _, same⟩ := Option.bind_eq_some_iff.mp third
  obtain ⟨_, rfl⟩ := Prod.mk.inj (Option.some.inj same)
  exact (tailSuffix.trans ((List.suffix_cons ':' s₂).trans (List.suffix_cons ':' _))).trans
    headSuffix

theorem readScopeId_suffix (s : Str) : (readScopeId s).2 <:+ s := by
  unfold readScopeId
  split
  next scope rest read =>
    obtain ⟨tail, percent, number⟩ := Option.bind_eq_some_iff.mp read
    obtain rfl := readGivenChar_eq_some_iff.mp percent
    obtain ⟨digits, rfl, _⟩ := readNumber_shape number
    exact ⟨'%' :: digits, by simp⟩
  next => exact List.suffix_refl s

theorem readGroups_nil {left : Nat} {first : Bool} {s : Str}
    (nothing : (readGroups left first s).1 = []) : (readGroups left first s).2.2 = s := by
  cases left with
  | zero => rfl
  | succ left =>
      unfold readGroups at nothing ⊢
      dsimp only at nothing ⊢
      split at nothing
      next => cases nothing
      next =>
        split at nothing
        next => cases nothing
        next => rfl

theorem readGroups_later {left : Nat} {s : Str} (some_ : (readGroups left false s).1 ≠ []) :
    ∃ rest, s = ':' :: rest := by
  cases colon : readGivenChar ':' s with
  | some rest => exact ⟨rest, readGivenChar_eq_some_iff.mp colon⟩
  | none =>
      refine absurd ?_ some_
      cases left with
      | zero => rfl
      | succ left => simp [readGroups, colon]

/-- A colon stands at the start or right after the first group. -/
theorem readIpv6_colon {s rest : Str} {ip : Ipv6Addr} (read : readIpv6 s = some (ip, rest)) :
    ∃ lead tail, s = lead ++ ':' :: tail ∧ ∀ c ∈ lead, (toDigit 16 c).isSome = true := by
  unfold readIpv6 at read
  have shape : (readGroups 8 true s).1.length = 8 ∨ (readGroups 8 true s).2.1 = false ∧
      ∃ tail, (readGroups 8 true s).2.2 = ':' :: tail := by
    dsimp only at read
    split at read
    next eight => exact Or.inl eight
    next =>
      split at read
      · cases read
      next noIpv4 =>
        obtain ⟨tail, colon, _⟩ := Option.bind_eq_some_iff.mp read
        exact Or.inr ⟨Bool.eq_false_iff.mpr noIpv4, tail, readGivenChar_eq_some_iff.mp colon⟩
  clear read
  by_cases nothing : (readGroups 8 true s).1 = []
  · rcases shape with eight | ⟨_, tail, colon⟩
    · rw [nothing] at eight
      cases eight
    · rw [readGroups_nil nothing] at colon
      exact ⟨[], tail, colon, by simp⟩
  · unfold readGroups at shape nothing
    dsimp only at shape nothing
    split at nothing
    next a b c d after embedded =>
      rw [embedded] at shape
      rcases shape with eight | ⟨ipv4, _⟩
      · cases eight
      · cases ipv4
    next noIpv4 =>
      split at nothing
      next group after number =>
        obtain ⟨start, whole, readGroup⟩ := Option.bind_eq_some_iff.mp number
        obtain rfl := Option.some.inj whole
        obtain ⟨digits, rfl, _, allDigits, _⟩ := readNumber_shape readGroup
        by_cases last : (readGroups 7 false after).1 = []
        · rw [noIpv4] at shape
          dsimp only at shape
          rw [number] at shape
          dsimp only at shape
          rw [last, readGroups_nil last] at shape
          rcases shape with eight | ⟨_, tail, rfl⟩
          · cases eight
          · exact ⟨digits, tail, rfl, allDigits⟩
        · obtain ⟨tail, rfl⟩ := readGroups_later last
          exact ⟨digits, tail, rfl, allDigits⟩
      next => exact absurd rfl nothing

/-- Every socket address is written as a host, a colon and a port; the host is an
IPv4 address, or it starts with a bracket and has a colon inside. -/
theorem parseSocketAddr_shape {s : Str} {addr : SocketAddr}
    (parsed : parseSocketAddr s = some addr) :
    ∃ host digits, s = host ++ ':' :: digits ∧ ':' ∉ digits ∧
      parseU16 digits = some addr.port ∧
      ((∃ ip, addr = .v4 ip addr.port ∧ parseIpAddr host = some (.v4 ip)) ∨
        ∃ lead tail, host = '[' :: (lead ++ ':' :: tail ++ [']']) ∧ ']' ∉ lead) := by
  unfold parseSocketAddr parseAll at parsed
  split at parsed
  next addr' read =>
    obtain rfl := Option.some.inj parsed
    rcases Option.or_eq_some_iff.mp read with v4 | ⟨_, v6⟩
    · obtain ⟨⟨ip, s₁⟩, ipRead, read⟩ := Option.bind_eq_some_iff.mp v4
      obtain ⟨⟨port, s₂⟩, portRead, same⟩ := Option.bind_eq_some_iff.mp read
      obtain ⟨rfl, rfl⟩ := Prod.mk.inj (Option.some.inj same)
      obtain ⟨host, rfl, _, again⟩ := readIpv4_shape ipRead
      obtain ⟨digits, rfl, clear, port⟩ := readPort_shape portRead
      refine ⟨host, digits, rfl, clear, port, Or.inl ⟨ip, rfl, ?_⟩⟩
      have alone := again [] (stops_nil 10)
      rw [List.append_nil] at alone
      rw [parseIpAddr, parseAll, readIpAddr, alone]
      rfl
    · obtain ⟨s₁, bracket, read⟩ := Option.bind_eq_some_iff.mp v6
      obtain rfl := readGivenChar_eq_some_iff.mp bracket
      obtain ⟨⟨ip, s₂⟩, ipRead, scopeRead⟩ := Option.bind_eq_some_iff.mp read
      have scopeSuffix := readScopeId_suffix s₂
      dsimp only at scopeRead
      generalize readScopeId s₂ = zone at scopeRead scopeSuffix
      obtain ⟨scope, s₃⟩ := zone
      obtain ⟨s₄, close, last⟩ := Option.bind_eq_some_iff.mp scopeRead
      obtain ⟨⟨port, s₅⟩, portRead, same⟩ := Option.bind_eq_some_iff.mp last
      obtain ⟨rfl, rfl⟩ := Prod.mk.inj (Option.some.inj same)
      obtain ⟨digits, rfl, clear, port⟩ := readPort_shape portRead
      obtain ⟨inside, closed⟩ := scopeSuffix.trans (readIpv6_suffix ipRead)
      obtain rfl : s₃ = ']' :: ':' :: digits := readGivenChar_eq_some_iff.mp close
      obtain ⟨lead, tail, split, hexDigits⟩ := readIpv6_colon ipRead
      refine ⟨'[' :: inside ++ [']'], digits, ?_, clear, port, Or.inr ?_⟩
      · rw [← closed]
        simp
      · have noBracket : ']' ∉ lead := by
          intro bracket
          have notDigit := hexDigits ']' bracket
          revert notDigit
          decide
        obtain ⟨more, rfl⟩ := Text.append_cons_extends (closed.trans split) noBracket (by decide)
        exact ⟨lead, more, by simp, noBracket⟩
  next => cases parsed

theorem parseIpAddr_bracket (rest : Str) : parseIpAddr ('[' :: rest) = none := by
  rfl

end Rust
