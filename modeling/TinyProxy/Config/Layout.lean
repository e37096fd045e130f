import TinyProxy.Config.Parser

/-!
# The layout of a configuration text

The lines of a text whose braces are balanced spell a sequence of statements.
`Represents` says which directive tree stands for a statement; neither mentions
the parser's stacks.
-/

set_option autoImplicit false

namespace TinyProxy

open Rust Http

/-! ## Lines -/

/-- What a line is by itself. -/
inductive LineKind where
  | skip
  | opener (parts : List Str)
  | closer
  | simple (parts : List Str)
deriving DecidableEq

def lineKind (raw : Str) : LineKind :=
  let text := trim raw
  if text = [] ∨ startsWith ['#'] text then .skip
  else if endsWith ['\x7b'] text then .opener (splitWhitespace text)
  else if text = ['\x7d'] then .closer
  else .simple (splitWhitespace text)

theorem parseLine_eq (parser : UriParser) (line : Nat) (raw : Str) (s : ParserState) :
    parseLine parser line raw s =
      match lineKind raw with
      | .skip => .ok s
      | .opener parts => .ok (openBlock parts s)
      | .closer => closeBlock parser line s
      | .simple [] => .ok s
      | .simple (name :: args) => simpleLine name args line s := by
  unfold parseLine lineKind
  dsimp only
  split
  · rfl
  split
  · rfl
  split
  · rfl
  cases splitWhitespace (trim raw) <;> rfl

/-! ## Statements -/

inductive Stmt where
  | line (name : Str) (args : List Str)
  | block (head : Str) (args : List Str) (body : List Stmt)

def Stmt.isBlock : Stmt → Bool
  | .line _ _ => false
  | .block _ _ _ => true

/-- The lines spell the statements; every brace that opens a block has its closing line. -/
inductive Laid : List Str → List Stmt → Prop where
  | nil : Laid [] []
  | skip {raw : Str} {raws : List Str} {stmts : List Stmt} (kind : lineKind raw = .skip)
      (rest : Laid raws stmts) : Laid (raw :: raws) stmts
  | line {raw name : Str} {args raws : List Str} {stmts : List Stmt}
      (kind : lineKind raw = .simple (name :: args)) (rest : Laid raws stmts) :
      Laid (raw :: raws) (.line name args :: stmts)
  | block {opening closing head : Str} {args inner raws : List Str} {body stmts : List Stmt}
      (opens : lineKind opening = .opener (head :: args)) (closes : lineKind closing = .closer)
      (inside : Laid inner body) (rest : Laid raws stmts) :
      Laid (opening :: (inner ++ closing :: raws)) (.block head args body :: stmts)

/-- A setting of what encloses the line, not a directive: `tls` in a site, every line
in `forward_auth` and `reverse_proxy`. -/
def Stmt.isSetting (enclosing : Option Str) : Stmt → Bool
  | .line name _ =>
      match enclosing with
      | none => name = "tls".toList
      | some head => head = "forward_auth".toList || head = "reverse_proxy".toList
  | .block _ _ _ => false

theorem Stmt.isSetting_site_iff {name : Str} {args : List Str} :
    (Stmt.line name args).isSetting none = true ↔ name = "tls".toList := by
  rw [Stmt.isSetting]
  exact decide_eq_true_iff

theorem Stmt.isSetting_block_iff {name head : Str} {args : List Str} :
    (Stmt.line name args).isSetting (some head) = true ↔
      head = "forward_auth".toList ∨ head = "reverse_proxy".toList := by
  rw [Stmt.isSetting, Bool.or_eq_true, decide_eq_true_iff, decide_eq_true_iff]

def directiveStmts (enclosing : Option Str) (body : List Stmt) : List Stmt :=
  body.filter fun stmt => !stmt.isSetting enclosing

/-- The arguments without the brace. -/
def blockArgs (args : List Str) : List Str := args.filter fun arg => arg ≠ ['\x7b']

/-- The directive is what a block with this heading makes. -/
def Directive.OpenedBy (head : Str) (args : List Str) : Directive → Prop
  | .handlePath pattern _ => head = "handle_path".toList ∧ pattern = args.head?.getD []
  | .method methods _ => head = "method".toList ∧ methods = args
  | .reverseProxy to_ _ _ _ => head = "reverse_proxy".toList ∧ to_ = args.head?.getD []
  | .forwardAuth _ => head = "forward_auth".toList
  | _ => False

/-- The directive stands for the statement, and its children for the directive
statements written inside, one for one and in order. -/
inductive Represents : Stmt → Directive → Prop where
  | line {name : Str} {args : List Str} {number : Nat} {directive : Directive}
      (parsed : parseDirective name args number = .ok directive) :
      Represents (.line name args) directive
  | block {head : Str} {args : List Str} {body : List Stmt} {directive : Directive}
      (opened : directive.OpenedBy head (blockArgs args))
      (inside : List.Forall₂ Represents (directiveStmts (some head) body) directive.block) :
      Represents (.block head args body) directive

/-! ## Blocks inside `reverse_proxy` -/

inductive Within (stmt : Stmt) : Stmt → Prop where
  | refl : Within stmt stmt
  | inside {head : Str} {args : List Str} {body : List Stmt} {child : Stmt}
      (member : child ∈ body) (deeper : Within stmt child) : Within stmt (.block head args body)

/-- A `reverse_proxy` block with a block directly inside. -/
def Stmt.DropsBlock : Stmt → Prop
  | .line _ _ => False
  | .block head _ body => head = "reverse_proxy".toList ∧ ∃ child ∈ body, child.isBlock = true

def KeepsBlocks (stmts : List Stmt) : Prop :=
  ∀ top ∈ stmts, ∀ stmt, Within stmt top → ¬ stmt.DropsBlock

theorem KeepsBlocks.tail {first : Stmt} {rest : List Stmt} (keeps : KeepsBlocks (first :: rest)) :
    KeepsBlocks rest :=
  fun top member => keeps top (List.mem_cons_of_mem _ member)

theorem KeepsBlocks.body {head : Str} {args : List Str} {body rest : List Stmt}
    (keeps : KeepsBlocks (.block head args body :: rest)) : KeepsBlocks body :=
  fun _ member stmt within => keeps _ (List.mem_cons_self ..) stmt (.inside member within)

/-- In a `reverse_proxy` block that keeps blocks there is no directive statement. -/
theorem directiveStmts_reverseProxy {args : List Str} {body rest : List Stmt}
    (keeps : KeepsBlocks (.block "reverse_proxy".toList args body :: rest)) :
    directiveStmts (some "reverse_proxy".toList) body = [] := by
  apply List.filter_eq_nil_iff.mpr
  intro child member
  cases child with
  | line name args =>
      have isSetting : (Stmt.line name args).isSetting (some "reverse_proxy".toList) = true := rfl
      rw [isSetting]
      decide
  | block head args inner =>
      exact absurd ⟨rfl, _, member, rfl⟩ (keeps _ (List.mem_cons_self ..) _ .refl)

theorem exists_related {β γ : Type} {related : β → γ → Prop} {lefts : List β} {rights : List γ}
    (pairs : List.Forall₂ related lefts rights) :
    ∀ left ∈ lefts, ∃ right ∈ rights, related left right := by
  induction pairs with
  | nil => simp
  | cons first _ ih =>
      intro left member
      rcases List.mem_cons.mp member with rfl | member
      · exact ⟨_, List.mem_cons_self .., first⟩
      · obtain ⟨right, later, found⟩ := ih left member
        exact ⟨right, List.mem_cons_of_mem _ later, found⟩

theorem Stmt.sizeOf_child {head : Str} {args : List Str} {body : List Stmt} {child : Stmt}
    (member : child ∈ body) : sizeOf child < sizeOf (Stmt.block head args body) := by
  have smaller := List.sizeOf_lt_of_mem member
  simp only [Stmt.block.sizeOf_spec]
  omega

/-- A statement with a block that no directive stands for is not represented. -/
theorem Represents.keeps : ∀ {top : Stmt} {directive : Directive}, Represents top directive →
    ∀ stmt, Within stmt top → ¬ stmt.DropsBlock
  | .line name args, directive, _, stmt, within => by
      cases within with
      | refl => exact id
  | .block head args body, directive, represented, stmt, within => by
      cases represented with
      | block opened inside =>
          have isDirective : ∀ child ∈ body, child.isBlock = true →
              child ∈ directiveStmts (some head) body := by
            intro child member isBlock
            refine List.mem_filter.mpr ⟨member, ?_⟩
            cases child with
            | line name args => cases isBlock
            | block head args inner => rfl
          cases within with
          | refl =>
              rintro ⟨rfl, child, member, isBlock⟩
              have noChildren : directive.block = [] := by
                cases directive <;> simp_all [Directive.OpenedBy, Directive.block]
              rw [noChildren, List.forall₂_nil_right_iff] at inside
              have among := isDirective child member isBlock
              rw [inside] at among
              cases among
          | @inside _ _ _ child member deeper =>
              cases child with
              | line name args =>
                  cases deeper with
                  | refl => exact id
              | block childHead childArgs childBody =>
                  obtain ⟨_, _, represented⟩ :=
                    exists_related inside _ (isDirective _ member rfl)
                  exact represented.keeps stmt deeper
termination_by top => sizeOf top
decreasing_by exact Stmt.sizeOf_child member

end TinyProxy
