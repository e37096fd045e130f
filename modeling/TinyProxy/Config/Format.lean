import TinyProxy.Config.Independence

/-!
# Layout of a text

What a line is to the parser depends on its words only, and lines without words
and comments are nothing to it.
-/

set_option autoImplicit false

namespace TinyProxy

open Rust Http

/-- The kind of a line, from its words. -/
def kindOfWords (words : List Str) : LineKind :=
  match words.head?, words.getLast? with
  | some first, some last =>
      if startsWith ['#'] first then .skip
      else if endsWith ['\x7b'] last then .opener words
      else if words = [['\x7d']] then .closer
      else .simple words
  | _, _ => .skip

theorem lineKind_words (raw : Str) : lineKind raw = kindOfWords (splitWhitespace raw) := by
  rw [lineKind, ← splitWhitespace_of_trim raw]
  by_cases empty : trim raw = []
  · rw [if_pos (Or.inl empty), empty]
    rfl
  have nonblank := splitWhitespace_trim empty
  cases words : splitWhitespace (trim raw) with
  | nil => exact absurd words nonblank
  | cons first others =>
      have starts := splitWhitespace_trim_head words
      have solid : ∀ c ∈ (trim raw).getLast?, isWhitespace c = false := by
        intro c isLast
        have final := List.rdropWhile_last_not isWhitespace (raw.dropWhile isWhitespace) empty
        obtain rfl := Option.some.inj ((List.getLast?_eq_some_getLast empty).symm.trans isLast)
        exact Bool.eq_false_iff.mpr final
      obtain ⟨⟨last, isLast, ends⟩, alone⟩ := splitWhitespace_last solid empty
      have front : ∀ c ∈ (trim raw).head?, isWhitespace c = false := by
        intro c isFirst
        rw [← starts] at isFirst
        have isWord : IsWord first := splitWhitespace_isWord first (words ▸ List.mem_cons_self ..)
        exact isWord.solid c (List.mem_of_head? isFirst)
      have comment : startsWith ['#'] (trim raw) = startsWith ['#'] first := by
        rw [Bool.eq_iff_iff, startsWith_singleton, startsWith_singleton, starts]
      have brace : endsWith ['\x7b'] (trim raw) = endsWith ['\x7b'] last := by
        rw [Bool.eq_iff_iff, endsWith_singleton, endsWith_singleton, ends]
      have closing : trim raw = ['\x7d'] ↔ first :: others = [['\x7d']] := by
        constructor
        · intro isBrace
          rw [isBrace] at words
          exact words.symm.trans rfl
        · intro single
          exact alone _ front (words.trans single)
      rw [words] at isLast
      rw [kindOfWords, List.head?_cons, isLast]
      simp only [empty, false_or, comment, brace, closing]

/-- The line has a word and is no comment. -/
def isStatement (words : List Str) : Bool :=
  match words with
  | [] => false
  | first :: _ => !startsWith ['#'] first

/-- The words of the lines, without blank lines and comments. -/
def wordLines (content : Str) : List (List Str) :=
  ((lines content).map splitWhitespace).filter isStatement

theorem kindOfWords_skip_iff (words : List Str) :
    kindOfWords words = .skip ↔ isStatement words = false := by
  cases words with
  | nil => exact iff_of_true rfl rfl
  | cons first others =>
      obtain ⟨last, isLast⟩ : ∃ last, (first :: others).getLast? = some last :=
        ⟨_, List.getLast?_eq_some_getLast (List.cons_ne_nil _ _)⟩
      rw [kindOfWords, List.head?_cons, isLast, isStatement, Bool.not_eq_false']
      dsimp only
      by_cases comment : startsWith ['#'] first = true
      · rw [if_pos comment]
        exact iff_of_true rfl comment
      · rw [if_neg comment]
        refine iff_of_false (fun skipped => ?_) comment
        split at skipped
        · cases skipped
        · split at skipped <;> cases skipped

theorem kinds_lines (content : Str) :
    kinds (lines content) = (wordLines content).map kindOfWords := by
  have each : (lines content).map lineKind =
      ((lines content).map splitWhitespace).map kindOfWords := by
    rw [List.map_map]
    exact List.map_congr_left fun raw _ => lineKind_words raw
  rw [kinds, wordLines, each, List.filter_map]
  congr 2
  funext words
  rw [Function.comp_apply, Bool.eq_iff_iff, decide_eq_true_eq, ne_eq, kindOfWords_skip_iff,
    Bool.not_eq_false]

/-- Indentation, the blanks between words, blank lines and comments do not matter. -/
theorem layout_insignificant {parser : UriParser} {content other : Str}
    (same : wordLines content = wordLines other) (config : Config) :
    Config.fromStr parser content = .ok config ↔ Config.fromStr parser other = .ok config := by
  have alike : kinds (lines content) = kinds (lines other) := by
    rw [kinds_lines, kinds_lines, same]
  rw [fromStr_iff, fromStr_iff]
  refine exists_congr fun s => and_congr_left fun _ => ?_
  rw [parseLines_iff, parseLines_iff, alike]

def tidyText : Str := "a:80 {
  respond 200 ok
}".toList

def ruffledText : Str :=
  "# the only site

	a:80   { 
respond	200  ok
  # done
   }

".toList

theorem layout_insignificant_ruffled :
    Config.fromStr plainUriParser ruffledText =
      .ok (oneSite "a:80".toList [.respond 200 "ok".toList]) := by
  have same : wordLines ruffledText = wordLines tidyText := rfl
  exact (layout_insignificant same _).mpr rfl

end TinyProxy
