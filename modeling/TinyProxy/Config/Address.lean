import TinyProxy.Config.Models

/-!
# Listen addresses
-/

set_option autoImplicit false

namespace TinyProxy

open Rust

/-- A socket address as written, else every interface on the port after the last `:`. -/
def resolveListenAddr (address : Str) : Except Str SocketAddr :=
  match parseSocketAddr address with
  | some addr => .ok addr
  | none =>
      match parseU16 (afterLast ':' address) with
      | some port => .ok (.v4 .unspecified port)
      | none => .error ("Cannot parse address: ".toList ++ address)

/-- The text between `[` and the first `]`, else the text before the first `:`. -/
def extractHostname (address : Str) : Str :=
  if startsWith ['['] address then
    match Text.splitOnce [']'] address with
    | some (before, _) => before.drop 1
    | none => beforeFirst ':' address
  else beforeFirst ':' address

/-- `saturating_sub` and `saturating_add` at 16 bits. -/
def tlsRedirectPort (tlsPort : UInt16) : UInt16 :=
  UInt16.ofNat (min (tlsPort.toNat - 443 + 80) 65535)

example : extractHostname "[::1]:443".toList = "::1".toList := by decide

example : resolveListenAddr "example.com:443".toList = .ok (.v4 .unspecified 443) := by rfl

end TinyProxy
