import TinyProxy.Rust.Str

/-!
# Words, lines and numbers as they are written

What the readers of `str` make of a text put together from words: words joined
by single spaces, lines each closed by a line feed, numbers in decimal.
-/

set_option autoImplicit false

namespace Rust

/-! ## Words -/

/-- A non-empty text without white space. -/
structure IsWord (word : Str) : Prop where
  nonempty : word ≠ []
  solid : ∀ c ∈ word, isWhitespace c = false

theorem isWord_of_all {c : Char} {rest : Str}
    (solid : ((c :: rest).all fun d => !isWhitespace d) = true) : IsWord (c :: rest) := by
  refine ⟨List.cons_ne_nil _ _, fun d member => ?_⟩
  have checked := List.all_eq_true.mp solid d member
  rwa [Bool.not_eq_true'] at checked

theorem IsWord.not_mem {word : Str} {c : Char} (isWord : IsWord word)
    (blank : isWhitespace c = true) : c ∉ word := by
  intro member
  have solid := isWord.solid c member
  rw [blank] at solid
  cases solid

theorem splitWhitespace_blank {c : Char} (rest : Str) (blank : isWhitespace c = true) :
    splitWhitespace (c :: rest) = splitWhitespace rest := by
  rw [splitWhitespace.eq_def]
  dsimp only
  rw [if_pos blank]

theorem splitWhitespace_char {c d : Char} {rest word : Str} {words : List Str}
    (solid : isWhitespace c = false) (next : isWhitespace d = false)
    (split : splitWhitespace (d :: rest) = word :: words) :
    splitWhitespace (c :: d :: rest) = (c :: word) :: words := by
  rw [splitWhitespace.eq_def]
  simp only [solid, next, split, Bool.false_eq_true, if_false]

/-- A word that the text ends with, or that a space follows. -/
theorem splitWhitespace_word {word : Str} (isWord : IsWord word) :
    splitWhitespace word = [word] ∧
      ∀ rest, splitWhitespace (word ++ ' ' :: rest) = word :: splitWhitespace rest := by
  obtain ⟨nonempty, solid⟩ := isWord
  induction word with
  | nil => exact absurd rfl nonempty
  | cons c tail ih =>
      have first : isWhitespace c = false := solid c (List.mem_cons_self ..)
      cases tail with
      | nil =>
          refine ⟨?_, fun rest => ?_⟩
          · rw [splitWhitespace.eq_def]
            simp only [first, Bool.false_eq_true, if_false]
            rfl
          · have blank : isWhitespace ' ' = true := by decide
            rw [List.cons_append, List.nil_append, splitWhitespace.eq_def]
            simp only [first, splitWhitespace_blank rest blank, Bool.false_eq_true, if_false]
            cases splitWhitespace rest <;> rfl
      | cons d tail =>
          have next : isWhitespace d = false :=
            solid d (List.mem_cons_of_mem _ (List.mem_cons_self ..))
          obtain ⟨alone, followed⟩ := ih (List.cons_ne_nil _ _)
            fun e member => solid e (List.mem_cons_of_mem _ member)
          exact ⟨splitWhitespace_char first next alone,
            fun rest => splitWhitespace_char first next (followed rest)⟩

theorem splitWhitespace_head {c : Char} (solid : isWhitespace c = false) (rest : Str) :
    ∃ tail words, splitWhitespace (c :: rest) = (c :: tail) :: words := by
  rw [splitWhitespace.eq_def]
  simp only [solid, Bool.false_eq_true, if_false]
  split
  · split
    · exact ⟨[], _, rfl⟩
    · exact ⟨_, _, rfl⟩
  · exact ⟨[], _, rfl⟩

theorem splitWhitespace_solid {s : Str} {c : Char} (member : c ∈ s)
    (solid : isWhitespace c = false) : splitWhitespace s ≠ [] := by
  induction s with
  | nil => cases member
  | cons d rest ih =>
      rw [splitWhitespace.eq_def]
      dsimp only
      split
      next blank =>
        rcases List.mem_cons.mp member with rfl | later
        · rw [solid] at blank
          cases blank
        · exact ih later
      next =>
        split
        · split <;> exact List.cons_ne_nil _ _
        · exact List.cons_ne_nil _ _

theorem splitWhitespace_isWord {s : Str} : ∀ word ∈ splitWhitespace s, IsWord word := by
  induction s with
  | nil => exact fun _ member => absurd member List.not_mem_nil
  | cons c rest ih =>
      cases blank : isWhitespace c with
      | true =>
          rw [splitWhitespace_blank rest blank]
          exact ih
      | false =>
          have single : IsWord [c] := ⟨List.cons_ne_nil _ _, List.forall_mem_singleton.mpr blank⟩
          rw [splitWhitespace.eq_def]
          simp only [blank, Bool.false_eq_true, if_false]
          cases rest with
          | nil => exact List.forall_mem_singleton.mpr single
          | cons d more =>
              cases split : splitWhitespace (d :: more) with
              | nil => exact List.forall_mem_singleton.mpr single
              | cons word words =>
                  rw [split, List.forall_mem_cons] at ih
                  dsimp only
                  split
                  · exact List.forall_mem_cons.mpr ⟨single, List.forall_mem_cons.mpr ih⟩
                  · refine List.forall_mem_cons.mpr ⟨⟨List.cons_ne_nil _ _, ?_⟩, ih.2⟩
                    exact List.forall_mem_cons.mpr ⟨blank, ih.1.solid⟩

/-- A text that is not blank has a word. -/
theorem splitWhitespace_trim {s : Str} (nonempty : trim s ≠ []) :
    splitWhitespace (trim s) ≠ [] := by
  have solid := List.rdropWhile_last_not isWhitespace (s.dropWhile isWhitespace) nonempty
  exact splitWhitespace_solid (List.getLast_mem nonempty) (Bool.eq_false_iff.mpr solid)

/-- The first word starts as the text does. -/
theorem splitWhitespace_trim_head {s first : Str} {words : List Str}
    (split : splitWhitespace (trim s) = first :: words) : first.head? = (trim s).head? := by
  cases text : trim s with
  | nil =>
      rw [text] at split
      cases split
  | cons c rest =>
      have kept : (trim s) <+: s.dropWhile isWhitespace := List.rdropWhile_prefix _ _
      obtain ⟨more, whole⟩ := kept
      have solid : isWhitespace c = false := by
        have nonempty : s.dropWhile isWhitespace ≠ [] := by simp [← whole, text]
        have first := List.head_dropWhile_not isWhitespace nonempty
        simpa [← whole, text] using first
      obtain ⟨tail, others, same⟩ := splitWhitespace_head solid rest
      rw [text, same] at split
      obtain ⟨rfl, _⟩ := List.cons.inj split
      rfl

theorem splitWhitespace_single {c : Char} (solid : isWhitespace c = false) :
    splitWhitespace [c] = [[c]] :=
  (splitWhitespace_word ⟨List.cons_ne_nil _ _, List.forall_mem_singleton.mpr solid⟩).1

theorem splitWhitespace_before_blank {c d : Char} (solid : isWhitespace c = false)
    (blank : isWhitespace d = true) (rest : Str) :
    splitWhitespace (c :: d :: rest) = [c] :: splitWhitespace (d :: rest) := by
  rw [splitWhitespace.eq_def]
  simp only [solid, Bool.false_eq_true, if_false]
  cases splitWhitespace (d :: rest) with
  | nil => rfl
  | cons word words => simp only [blank, if_true]

theorem splitWhitespace_concat {c : Char} (blank : isWhitespace c = true) (s : Str) :
    splitWhitespace (s ++ [c]) = splitWhitespace s := by
  induction s with
  | nil => exact splitWhitespace_blank [] blank
  | cons d rest ih =>
      rw [List.cons_append]
      cases first : isWhitespace d with
      | true => rw [splitWhitespace_blank _ first, splitWhitespace_blank _ first, ih]
      | false =>
          cases rest with
          | nil =>
              rw [List.nil_append, splitWhitespace_before_blank first blank,
                splitWhitespace_blank [] blank, splitWhitespace_single first]
              rfl
          | cons e more =>
              rw [List.cons_append] at ih ⊢
              cases second : isWhitespace e with
              | true =>
                  rw [splitWhitespace_before_blank first second,
                    splitWhitespace_before_blank first second, ih]
              | false =>
                  obtain ⟨tail, words, split⟩ := splitWhitespace_head second more
                  rw [splitWhitespace_char first second split,
                    splitWhitespace_char first second (ih.trans split)]

/-- Blanks at the ends do not count. -/
theorem splitWhitespace_of_trim (s : Str) : splitWhitespace (trim s) = splitWhitespace s := by
  have front : splitWhitespace (s.dropWhile isWhitespace) = splitWhitespace s := by
    induction s with
    | nil => rfl
    | cons c rest ih =>
        rw [List.dropWhile_cons]
        cases blank : isWhitespace c with
        | true => rw [if_pos rfl, splitWhitespace_blank rest blank, ih]
        | false => rw [if_neg Bool.false_ne_true]
  rw [← front, trim]
  induction s.dropWhile isWhitespace using List.reverseRecOn with
  | nil => rfl
  | append_singleton front c ih =>
      cases blank : isWhitespace c with
      | true => rw [List.rdropWhile_concat_pos _ _ _ blank, ih, splitWhitespace_concat blank]
      | false => rw [List.rdropWhile_concat_neg _ _ _ (by simp [blank])]

/-- A text that ends in a word ends as its last word does, and it is that word if it has no other
and no blank in front. -/
theorem splitWhitespace_last {s : Str} (solid : ∀ c ∈ s.getLast?, isWhitespace c = false)
    (nonempty : s ≠ []) :
    (∃ last, (splitWhitespace s).getLast? = some last ∧ last.getLast? = s.getLast?) ∧
      ∀ word, (∀ c ∈ s.head?, isWhitespace c = false) → splitWhitespace s = [word] →
        s = word := by
  induction s with
  | nil => exact absurd rfl nonempty
  | cons c rest ih =>
      cases rest with
      | nil =>
          have isSolid := solid c rfl
          rw [splitWhitespace_single isSolid]
          refine ⟨⟨[c], rfl, rfl⟩, fun word _ single => (List.cons.inj single).1⟩
      | cons d more =>
          rw [List.getLast?_cons_cons] at solid ⊢
          obtain ⟨⟨last, isLast, ends⟩, alone⟩ := ih solid (List.cons_ne_nil _ _)
          cases first : isWhitespace c with
          | true =>
              rw [splitWhitespace_blank _ first]
              refine ⟨⟨last, isLast, ends⟩, fun word front => ?_⟩
              rw [front c rfl] at first
              cases first
          | false =>
              cases second : isWhitespace d with
              | true =>
                  rw [splitWhitespace_before_blank first second]
                  refine ⟨⟨last, ?_, ends⟩, fun word _ single => ?_⟩
                  · rw [List.getLast?_cons, isLast]
                    rfl
                  · rw [(List.cons.inj single).2] at isLast
                    cases isLast
              | false =>
                  obtain ⟨tail, words, split⟩ := splitWhitespace_head second more
                  rw [splitWhitespace_char first second split]
                  rw [split] at isLast alone
                  constructor
                  · cases words with
                    | nil =>
                        obtain rfl := Option.some.inj isLast
                        exact ⟨_, rfl, ends⟩
                    | cons word others => exact ⟨last, isLast, ends⟩
                  · intro word _ single
                    obtain ⟨rfl, rfl⟩ := List.cons.inj single
                    have solidHead : ∀ e ∈ (d :: more).head?, isWhitespace e = false := by
                      rintro _ ⟨⟩
                      exact second
                    rw [alone _ solidHead rfl]

theorem join_cons_cons (sep first second : Str) (rest : List Str) :
    join sep (first :: second :: rest) = first ++ (sep ++ join sep (second :: rest)) := by
  simp [join, List.intercalate]

theorem join_singleton (sep word : Str) : join sep [word] = word :=
  List.intercalate_singleton

/-- The words of words joined by spaces. -/
theorem splitWhitespace_join {words : List Str} (areWords : ∀ word ∈ words, IsWord word) :
    splitWhitespace (join [' '] words) = words := by
  induction words with
  | nil => rfl
  | cons first rest ih =>
      obtain ⟨alone, followed⟩ := splitWhitespace_word (areWords first (List.mem_cons_self ..))
      cases rest with
      | nil => rw [join_singleton, alone]
      | cons second rest =>
          have later := ih fun word member => areWords word (List.mem_cons_of_mem _ member)
          rw [join_cons_cons, List.singleton_append, followed, later]

/-! ## Both ends of a text -/

theorem trim_eq_self {s : Str} (front : ∀ c ∈ s.head?, isWhitespace c = false)
    (back : ∀ c ∈ s.getLast?, isWhitespace c = false) : trim s = s := by
  have kept : s.dropWhile isWhitespace = s := by
    cases s with
    | nil => rfl
    | cons c rest => rw [List.dropWhile_cons, if_neg (by rw [front c rfl]; exact Bool.false_ne_true)]
  rw [trim, kept, List.rdropWhile_eq_self_iff]
  intro nonempty blank
  rw [back _ (List.getLast?_eq_some_getLast nonempty)] at blank
  cases blank

theorem head?_join {first : Str} (sep : Str) (rest : List Str) (nonempty : first ≠ []) :
    (join sep (first :: rest)).head? = first.head? := by
  cases rest with
  | nil => rw [join_singleton]
  | cons second rest =>
      rw [join_cons_cons]
      exact List.head?_append_of_ne_nil _ nonempty

theorem getLast?_join (sep : Str) {words : List Str} {last : Str}
    (isLast : words.getLast? = some last) (nonempty : last ≠ []) :
    (join sep words).getLast? = last.getLast? := by
  induction words with
  | nil => cases isLast
  | cons first rest ih =>
      cases rest with
      | nil =>
          have same : first = last := Option.some.inj isLast
          rw [join_singleton, same]
      | cons second rest =>
          rw [List.getLast?_cons_cons] at isLast
          have later := ih isLast
          have filled : join sep (second :: rest) ≠ [] := by
            intro empty
            rw [empty, List.getLast?_nil] at later
            exact nonempty (List.getLast?_eq_none_iff.mp later.symm)
          rw [join_cons_cons, ← List.append_assoc, List.getLast?_append_of_ne_nil _ filled, later]

theorem mem_join {sep : Str} {words : List Str} {c : Char} (member : c ∈ join sep words) :
    c ∈ sep ∨ ∃ word ∈ words, c ∈ word := by
  induction words with
  | nil => cases member
  | cons first rest ih =>
      cases rest with
      | nil =>
          rw [join_singleton] at member
          exact Or.inr ⟨first, List.mem_cons_self .., member⟩
      | cons second rest =>
          rw [join_cons_cons, List.mem_append, List.mem_append] at member
          rcases member with here | between | later
          · exact Or.inr ⟨first, List.mem_cons_self .., here⟩
          · exact Or.inl between
          · rcases ih later with between | ⟨word, among, inside⟩
            · exact Or.inl between
            · exact Or.inr ⟨word, List.mem_cons_of_mem _ among, inside⟩

/-- A longer word makes the joined text longer. -/
theorem length_join_set (sep : Str) (c : Char) {words : List Str} : ∀ {i : Nat} {word : Str},
    words[i]? = some word →
      (join sep (words.set i (c :: word))).length = (join sep words).length + 1 := by
  induction words with
  | nil => exact fun found => by cases found
  | cons first rest ih =>
      intro i word found
      cases i with
      | zero =>
          obtain rfl := Option.some.inj found
          cases rest with
          | nil => simp [join_singleton]
          | cons second rest => simp [join_cons_cons]
      | succ j =>
          have later := ih found
          cases rest with
          | nil => cases found
          | cons second rest =>
              obtain ⟨next, others, shape⟩ : ∃ next others,
                  (second :: rest).set j (c :: word) = next :: others := by
                cases j <;> exact ⟨_, _, rfl⟩
              rw [List.set_cons_succ, shape, join_cons_cons, join_cons_cons, ← shape]
              simp [later]
              omega

/-- Words joined by spaces begin and end with a character of a word. -/
theorem trim_join {words : List Str} (areWords : ∀ word ∈ words, IsWord word) :
    trim (join [' '] words) = join [' '] words := by
  cases words with
  | nil => rfl
  | cons first rest =>
      have isFirst := areWords first (List.mem_cons_self ..)
      obtain ⟨last, isLast⟩ : ∃ last, (first :: rest).getLast? = some last :=
        ⟨_, List.getLast?_eq_some_getLast (List.cons_ne_nil _ _)⟩
      have isWord := areWords last (List.mem_of_getLast? isLast)
      apply trim_eq_self
      · rw [head?_join _ _ isFirst.nonempty]
        exact fun c member => isFirst.solid c (List.mem_of_mem_head? member)
      · rw [getLast?_join _ isLast isWord.nonempty]
        exact fun c member => isWord.solid c (List.mem_of_getLast? member)

theorem endsWith_singleton {c : Char} {s : Str} :
    endsWith [c] s = true ↔ s.getLast? = some c := by
  rw [endsWith, List.isSuffixOf_iff_suffix]
  constructor
  · rintro ⟨front, rfl⟩
    exact List.getLast?_concat
  · intro last
    exact List.singleton_suffix_iff_getLast?_eq_some.mpr last

theorem startsWith_singleton {c : Char} {s : Str} :
    startsWith [c] s = true ↔ s.head? = some c := by
  cases s with
  | nil => simp [startsWith]
  | cons d rest =>
      simp only [startsWith, List.isPrefixOf, Bool.and_true, beq_iff_eq, List.head?_cons,
        Option.some.injEq]
      exact eq_comm

theorem stripSuffix_concat (number : Str) (letter other : Char) :
    stripSuffix [other] (number ++ [letter]) = if letter = other then some number else none := by
  by_cases same : letter = other
  · rw [if_pos same, same, stripSuffix_eq_some_iff]
  · rw [if_neg same, stripSuffix, if_neg]
    rw [endsWith_singleton, List.getLast?_concat]
    exact fun last => same (Option.some.inj last)

/-! ## Lines -/

theorem lines_newline (rest : Str) : lines ('\n' :: rest) = [] :: lines rest := rfl

/-- A character that ends no line goes to the line that follows. -/
theorem lines_cons {c : Char} {rest : Str} (notFeed : c ≠ '\n')
    (notReturn : c = '\r' → ∀ more, rest ≠ '\n' :: more) :
    lines (c :: rest) = match lines rest with
      | [] => [[c]]
      | line :: more => (c :: line) :: more := by
  rw [lines.eq_def]
  split
  next => contradiction
  next same => exact absurd (List.cons.inj same).1 notFeed
  next same =>
    obtain ⟨isReturn, followed⟩ := List.cons.inj same
    exact absurd followed (notReturn isReturn _)
  next same =>
    obtain ⟨rfl, rfl⟩ := List.cons.inj same
    rfl

theorem lines_eq_nil {s : Str} (empty : lines s = []) : s = [] := by
  rw [lines.eq_def] at empty
  split at empty
  next => rfl
  next => cases empty
  next => cases empty
  next => split at empty <;> cases empty

/-- A line with its line feed, before more text. -/
theorem lines_line {line : Str} (noFeed : '\n' ∉ line) (noReturn : line.getLast? ≠ some '\r')
    (rest : Str) : lines (line ++ '\n' :: rest) = line :: lines rest := by
  induction line with
  | nil => rfl
  | cons c tail ih =>
      have notFeed : c ≠ '\n' := fun same => noFeed (same ▸ List.mem_cons_self ..)
      have later : lines (tail ++ '\n' :: rest) = tail :: lines rest := by
        refine ih (fun member => noFeed (List.mem_cons_of_mem _ member)) fun last => noReturn ?_
        rw [List.getLast?_cons, last]
        rfl
      have notReturn : c = '\r' → ∀ more, tail ++ '\n' :: rest ≠ '\n' :: more := by
        rintro rfl more same
        cases tail with
        | nil => exact noReturn rfl
        | cons d tail =>
            obtain ⟨rfl, _⟩ := List.cons.inj same
            exact noFeed (List.mem_cons_of_mem _ (List.mem_cons_self ..))
      rw [List.cons_append, lines_cons notFeed notReturn, later]

/-- A text of lines, each closed by a line feed. -/
def unlines (text : List Str) : Str := text.flatMap fun line => line ++ ['\n']

theorem lines_unlines {text : List Str} (noFeed : ∀ line ∈ text, '\n' ∉ line)
    (noReturn : ∀ line ∈ text, line.getLast? ≠ some '\r') : lines (unlines text) = text := by
  induction text with
  | nil => rfl
  | cons line rest ih =>
      have later := ih (fun other member => noFeed other (List.mem_cons_of_mem _ member))
        fun other member => noReturn other (List.mem_cons_of_mem _ member)
      have first := lines_line (noFeed line (List.mem_cons_self ..))
        (noReturn line (List.mem_cons_self ..)) (unlines rest)
      rw [later] at first
      rwa [unlines, List.flatMap_cons, List.append_assoc, List.singleton_append]

/-! ## Numbers -/

theorem readDigits_digits {radix : Nat} : ∀ {digits : Str} {total n : Nat},
    readDigits radix total digits = some n → ∀ c ∈ digits, (toDigit radix c).isSome = true := by
  intro digits
  induction digits with
  | nil => simp
  | cons c rest ih =>
      intro total n read
      obtain ⟨value, digit, later⟩ := Option.bind_eq_some_iff.mp read
      refine List.forall_mem_cons.mpr ⟨?_, ih later⟩
      rw [digit]
      rfl

/-- A number is written as digits, at least one, behind a plus sign or not. -/
theorem parseUnsigned_digits {bound n : Nat} {s : Str} (parsed : parseUnsigned bound s = some n) :
    ∃ sign digits, s = sign ++ digits ∧ (sign = [] ∨ sign = ['+']) ∧ digits ≠ [] ∧
      ∀ c ∈ digits, (toDigit 10 c).isSome = true := by
  unfold parseUnsigned at parsed
  dsimp only at parsed
  split at parsed
  · cases parsed
  next nonempty =>
    have all := readDigits_digits (Option.filter_eq_some_iff.mp parsed).1
    cases signed : stripPrefix ['+'] s with
    | none =>
        rw [signed] at nonempty all
        exact ⟨[], s, rfl, Or.inl rfl, nonempty, all⟩
    | some digits =>
        rw [signed] at nonempty all
        exact ⟨['+'], digits, stripPrefix_eq_some_iff.mp signed, Or.inr rfl, nonempty, all⟩

/-- A number ends in a digit. -/
theorem parseU64_concat {letter : Char} (notDigit : toDigit 10 letter = none) (number : Str) :
    parseU64 (number ++ [letter]) = none := by
  rw [parseU64, Option.map_eq_none_iff, Option.eq_none_iff_forall_ne_some]
  intro n parsed
  obtain ⟨sign, digits, split, _, nonempty, all⟩ := parseUnsigned_digits parsed
  have last := congrArg List.getLast? split
  rw [List.getLast?_concat, List.getLast?_append_of_ne_nil _ nonempty] at last
  have digit := all letter (List.mem_of_getLast? last.symm)
  rw [notDigit] at digit
  cases digit

theorem toDigit_isDigit {c : Char} (digit : c.isDigit = true) :
    toDigit 10 c = some (c.toNat - '0'.toNat) := by
  rw [Char.isDigit, Bool.and_eq_true, decide_eq_true_eq, decide_eq_true_eq] at digit
  have low : '0' ≤ c := digit.1
  have high : c ≤ '9' := digit.2
  have top : c.toNat ≤ 57 := high
  have small : c.toNat - '0'.toNat < 10 := by
    change c.toNat - 48 < 10
    omega
  rw [toDigit, if_pos ⟨low, high⟩, Option.filter_some, if_pos (decide_eq_true small)]

theorem readDigits_isDigit {digits : Str} (all : ∀ c ∈ digits, c.isDigit = true) :
    ∀ total, readDigits 10 total digits = some (Nat.ofDigitChars 10 digits total) := by
  induction digits with
  | nil =>
      intro total
      rw [readDigits, Nat.ofDigitChars_nil]
  | cons c rest ih =>
      intro total
      rw [readDigits, toDigit_isDigit (all c (List.mem_cons_self ..)), Option.bind_some,
        ih (fun d member => all d (List.mem_cons_of_mem _ member)), Nat.ofDigitChars_cons,
        Nat.mul_comm]

theorem decimal_isDigit {n : Nat} {c : Char} (member : c ∈ decimal n) : c.isDigit = true :=
  Nat.isDigit_of_mem_toDigits (by decide) (by decide) member

theorem decimal_isWord (n : Nat) : IsWord (decimal n) := by
  refine ⟨Nat.toDigits_ne_nil, fun c member => ?_⟩
  have digit := decimal_isDigit member
  rw [Char.isDigit, Bool.and_eq_true, decide_eq_true_eq, decide_eq_true_eq] at digit
  have low : 48 ≤ c.toNat := digit.1
  have high : c.toNat ≤ 57 := digit.2
  simp only [isWhitespace, Bool.or_eq_false_iff, Bool.and_eq_false_iff, decide_eq_false_iff_not,
    beq_eq_false_iff_ne]
  omega

theorem parseUnsigned_decimal {n bound : Nat} (small : n < bound) :
    parseUnsigned bound (decimal n) = some n := by
  have noSign : stripPrefix ['+'] (decimal n) = none := by
    cases signed : stripPrefix ['+'] (decimal n) with
    | none => rfl
    | some rest =>
        have plus : '+' ∈ decimal n := by
          rw [stripPrefix_eq_some_iff.mp signed]
          exact List.mem_cons_self ..
        exact absurd (decimal_isDigit plus) (by decide)
  have read : readDigits 10 0 (decimal n) = some n := by
    rw [readDigits_isDigit fun c member => decimal_isDigit member, decimal,
      Nat.ofDigitChars_ten_toDigits]
  rw [parseUnsigned, noSign, Option.getD_none, if_neg (decimal_isWord n).nonempty, read,
    Option.filter_some, if_pos (decide_eq_true small)]

theorem parseU16_decimal (n : UInt16) : parseU16 (decimal n.toNat) = some n := by
  rw [parseU16, parseUnsigned_decimal n.toNat_lt, Option.map_some, UInt16.ofNat_toNat]

theorem parseU64_decimal (n : UInt64) : parseU64 (decimal n.toNat) = some n := by
  rw [parseU64, parseUnsigned_decimal n.toNat_lt, Option.map_some, UInt64.ofNat_toNat]

end Rust
