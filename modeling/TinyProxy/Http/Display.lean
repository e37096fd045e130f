import TinyProxy.Http.Header
import TinyProxy.Rust.Net
import TinyProxy.Rust.Words

/-!
# Displayed values in headers

Numbers and addresses are displayed with visible characters only, so they can be
sent as header values.
-/

set_option autoImplicit false

namespace Http

open Rust

/-! ## Texts -/

theorem HeaderValue.fromStr_isSome_iff {s : Str} :
    (HeaderValue.fromStr s).isSome = true ↔ (utf8 s).all isValidByte = true := by
  rw [HeaderValue.fromStr]
  split
  · next valid => simp [valid]
  · next invalid => simp [invalid]

theorem HeaderValue.fromStr_append_isSome {first second : Str} :
    (HeaderValue.fromStr (first ++ second)).isSome = true ↔
      (HeaderValue.fromStr first).isSome = true ∧ (HeaderValue.fromStr second).isSome = true := by
  rw [fromStr_isSome_iff, fromStr_isSome_iff, fromStr_isSome_iff, utf8, List.flatMap_append,
    List.all_append, Bool.and_eq_true]
  rfl

theorem HeaderValue.isSome_of_visible {s : Str} (visible : VisibleText s) :
    (HeaderValue.fromStr s).isSome = true := by
  obtain ⟨value, made, _⟩ := HeaderValue.ofVisible visible
  rw [made]
  rfl

theorem append_visible {first second : Str} (left : VisibleText first)
    (right : VisibleText second) : VisibleText (first ++ second) := fun c member =>
  (List.mem_append.mp member).elim (left c) (right c)

theorem join_visible {sep : Str} {words : List Str} (separates : VisibleText sep)
    (visible : ∀ word ∈ words, VisibleText word) : VisibleText (join sep words) := by
  intro c member
  rcases mem_join member with inSep | ⟨word, among, inWord⟩
  · exact separates c inSep
  · exact visible word among c inWord

/-! ## Numbers -/

theorem digitChar_visible : ∀ n < 16,
    32 ≤ (Nat.digitChar n).toNat ∧ (Nat.digitChar n).toNat < 127 := by decide

theorem toDigits_visible {base : Nat} (big : 1 < base) (small : base ≤ 16) (n : Nat) :
    VisibleText (Nat.toDigits base n) := by
  induction n using Nat.strong_induction_on with
  | _ n ih =>
      rw [Nat.toDigits_eq_if big]
      split
      · next digit =>
          intro c member
          obtain rfl := List.mem_singleton.mp member
          exact Or.inl (digitChar_visible n (by omega))
      · next large =>
          have smaller : n / base < n := Nat.div_lt_self (by omega) big
          have digit : n % base < base := Nat.mod_lt _ (by omega)
          intro c member
          rcases List.mem_append.mp member with front | last
          · exact ih _ smaller c front
          · obtain rfl := List.mem_singleton.mp last
            exact Or.inl (digitChar_visible _ (by omega))

/-! ## Addresses -/

theorem ipv4_visible (ip : Ipv4Addr) : VisibleText ip.display := by
  cases ip with
  | octets a b c d =>
      refine join_visible (by decide) fun word member => ?_
      obtain ⟨octet, _, rfl⟩ := List.mem_map.mp member
      exact toDigits_visible (by decide) (by decide) octet.toNat

theorem hex_visible (segments : List UInt16) : VisibleText (join [':'] (segments.map hex)) := by
  refine join_visible (by decide) fun word member => ?_
  obtain ⟨segment, _, rfl⟩ := List.mem_map.mp member
  exact toDigits_visible (by decide) (by decide) segment.toNat

theorem ip_visible (ip : IpAddr) : VisibleText ip.display := by
  cases ip with
  | v4 ip => exact ipv4_visible ip
  | v6 ip =>
      change VisibleText ip.display
      unfold Ipv6Addr.display
      split
      · exact append_visible (by decide) (ipv4_visible _)
      · dsimp only
        split
        · exact append_visible (append_visible (hex_visible _) (by decide)) (hex_visible _)
        · exact hex_visible _

end Http
