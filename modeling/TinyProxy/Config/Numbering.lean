import TinyProxy.Config.Conservation
import TinyProxy.Rust.Words

/-!
# Line numbers and blank lines

Line numbers are for messages only: what a run makes of its lines depends on
the kinds of the lines that are not skipped, in their order.
-/

set_option autoImplicit false

namespace TinyProxy

open Rust Http

section Anywhere
variable {parser : UriParser} {line : Nat} (line' : Nat)

theorem withContext_ok {β : Type} {context : Str} {result : Except Failure β} {value : β}
    (success : withContext context result = .ok value) : result = .ok value := by
  unfold withContext at success
  split at success
  · exact success
  · cases success
  · cases success

theorem parseHeaders_anywhere {what : Str} : ∀ {names : List Str} {headers : List HeaderName},
    parseHeaders what line names = .ok headers → parseHeaders what line' names = .ok headers := by
  intro names
  unfold parseHeaders
  induction names with
  | nil => exact fun parsed => parsed
  | cons name rest ih =>
      intro headers parsed
      rw [List.mapM_cons] at parsed ⊢
      obtain ⟨first, made, later⟩ := bind_ok parsed
      obtain ⟨others, restMade, same⟩ := bind_ok later
      split at made
      next header known =>
        rw [ih restMade]
        obtain rfl := Except.ok.inj made
        exact same
      next => cases made

/-- A header list that may have been left out, and what is made of it. -/
theorem givenHeaders_anywhere {what : Str} {given : Option (List Str)}
    {missing : List HeaderName} {directive : Directive}
    {rest rest' : List HeaderName → Except Failure Directive}
    (restAnywhere : ∀ headers, rest headers = .ok directive → rest' headers = .ok directive)
    (built : (match given with
      | some names => parseHeaders what line names >>= rest
      | none => Except.ok missing >>= rest) = .ok directive) :
    (match given with
      | some names => parseHeaders what line' names >>= rest'
      | none => Except.ok missing >>= rest') = .ok directive := by
  cases given with
  | none => exact restAnywhere missing built
  | some names =>
      obtain ⟨headers, parsed, later⟩ := bind_ok built
      dsimp only
      rw [parseHeaders_anywhere line' parsed]
      exact restAnywhere headers later

theorem buildForwardAuth_anywhere {pending : ForwardAuthBlock} {directive : Directive}
    (built : buildForwardAuth parser pending line = .ok directive) :
    buildForwardAuth parser pending line' = .ok directive := by
  unfold buildForwardAuth at built ⊢
  split at built
  next => cases built
  next =>
    split at built
    next => cases built
    next =>
      split at built
      next => cases built
      next =>
        exact givenHeaders_anywhere line'
          (fun _ => givenHeaders_anywhere line' fun _ => id) built

theorem completeBlock_anywhere {block : PendingBlock} {finished : List Directive}
    {directive : Directive}
    (completed : completeBlock parser block finished line = .ok directive) :
    completeBlock parser block finished line' = .ok directive := by
  unfold completeBlock at completed ⊢
  split_ifs at completed ⊢
  · exact completed
  · exact completed
  · exact completed
  · split at completed
    next => cases completed
    next pending held => exact buildForwardAuth_anywhere line' completed

theorem parseFailureMode_anywhere {raw : Str} {mode : FailureMode}
    (parsed : parseFailureMode raw line = .ok mode) : parseFailureMode raw line' = .ok mode := by
  unfold parseFailureMode at parsed ⊢
  split_ifs at parsed ⊢
  · exact parsed
  · exact parsed

theorem forwardAuthSetting_anywhere {name : Str} {args : List Str}
    {pending pending' : ForwardAuthBlock}
    (set : forwardAuthSetting name args line pending = .ok pending') :
    forwardAuthSetting name args line' pending = .ok pending' := by
  unfold forwardAuthSetting at set ⊢
  split_ifs at set ⊢
  · split at set
    next => cases set
    next => exact set
  · exact set
  · exact set
  · split at set
    next => cases set
    next raw _ =>
      obtain ⟨mode, parsed, same⟩ := bind_ok set
      rw [parseFailureMode_anywhere line' parsed]
      exact same
  · split at set
    next => cases set
    next raw _ =>
      obtain ⟨seconds, parsed, same⟩ := bind_ok set
      rw [withContext_ok parsed]
      exact same

theorem timeoutSetting_anywhere {name : Str} {args : List Str} {seconds : UInt64}
    (set : timeoutSetting name args line = .ok seconds) :
    timeoutSetting name args line' = .ok seconds := by
  unfold timeoutSetting at set ⊢
  split at set
  next => cases set
  next raw _ =>
    rw [withContext_ok set]
    rfl

theorem headerUpSetting_anywhere {args : List Str} {directive : HeaderDirective}
    (set : headerUpSetting args line = .ok directive) :
    headerUpSetting args line' = .ok directive := by
  unfold headerUpSetting at set ⊢
  split at set
  next => cases set
  next rawName values =>
    split at set
    next =>
      split_ifs at set ⊢
      exact set
    next =>
      dsimp only at set ⊢
      split_ifs at set ⊢
      exact set

theorem reverseProxySetting_anywhere {name : Str} {args : List Str}
    {block block' : PendingBlock} (set : reverseProxySetting name args line block = .ok block') :
    reverseProxySetting name args line' block = .ok block' := by
  unfold reverseProxySetting at set ⊢
  split_ifs at set ⊢
  · obtain ⟨seconds, parsed, same⟩ := bind_ok set
    rw [timeoutSetting_anywhere line' parsed]
    exact same
  · obtain ⟨seconds, parsed, same⟩ := bind_ok set
    rw [timeoutSetting_anywhere line' parsed]
    exact same
  · obtain ⟨directive, parsed, same⟩ := bind_ok set
    rw [headerUpSetting_anywhere line' parsed]
    exact same

theorem tlsSetting_anywhere {args : List Str} {current : Option TlsConfig} {tls : TlsConfig}
    (set : tlsSetting args line current = .ok tls) : tlsSetting args line' current = .ok tls := by
  unfold tlsSetting at set ⊢
  split at set
  next => cases set
  next => cases set
  next =>
    split_ifs at set ⊢
    exact set

theorem parseDirective_anywhere {name : Str} {args : List Str} {directive : Directive}
    (parsed : parseDirective name args line = .ok directive) :
    parseDirective name args line' = .ok directive := by
  unfold parseDirective at parsed ⊢
  split_ifs at parsed ⊢
  · exact parsed
  · exact parsed
  · exact parsed
  · exact parsed
  · exact parsed
  · exact parsed

theorem regularLine_anywhere {name : Str} {args : List Str} {s s' : ParserState}
    (run : regularLine name args line s = .ok s') : regularLine name args line' s = .ok s' := by
  obtain ⟨directive, parsed, pushed⟩ := bind_ok run
  rw [regularLine, parseDirective_anywhere line' parsed]
  exact pushed

theorem simpleLine_anywhere {name : Str} {args : List Str} {s s' : ParserState}
    (run : simpleLine name args line s = .ok s') : simpleLine name args line' s = .ok s' := by
  unfold simpleLine at run ⊢
  split at run
  next block blocks _ =>
    split_ifs at run ⊢
    · split at run
      next => cases run
      next pending _ =>
        obtain ⟨pending', set, same⟩ := bind_ok run
        rw [forwardAuthSetting_anywhere line' set]
        exact same
    · obtain ⟨block', set, same⟩ := bind_ok run
      rw [reverseProxySetting_anywhere line' set]
      exact same
    · exact regularLine_anywhere line' run
  next =>
    split_ifs at run ⊢
    · obtain ⟨tls, set, same⟩ := bind_ok run
      rw [tlsSetting_anywhere line' set]
      exact same
    · exact regularLine_anywhere line' run

theorem closeBlock_anywhere {s s' : ParserState} (run : closeBlock parser line s = .ok s') :
    closeBlock parser line' s = .ok s' := by
  unfold closeBlock at run ⊢
  split at run
  next =>
    split at run
    next => cases run
    next =>
      obtain ⟨directive, completed, same⟩ := bind_ok run
      rw [completeBlock_anywhere line' completed]
      exact same
  next => exact run

end Anywhere

/-! ## Runs over kinds of lines -/

def readKind (parser : UriParser) (line : Nat) (kind : LineKind) (s : ParserState) :
    Except Failure ParserState :=
  match kind with
  | .skip => .ok s
  | .opener parts => .ok (openBlock parts s)
  | .closer => closeBlock parser line s
  | .simple [] => .ok s
  | .simple (name :: args) => simpleLine name args line s

def readKinds (parser : UriParser) : List LineKind → ParserState → Except Failure ParserState
  | [], s => .ok s
  | kind :: rest, s => do
      let s ← readKind parser 0 kind s
      readKinds parser rest s

/-- The lines that are not skipped. -/
def kinds (raws : List Str) : List LineKind :=
  (raws.map lineKind).filter fun kind => kind ≠ .skip

section Kinds
variable {parser : UriParser} {s s' : ParserState}

theorem readKind_anywhere {line : Nat} {kind : LineKind} (line' : Nat)
    (run : readKind parser line kind s = .ok s') : readKind parser line' kind s = .ok s' := by
  unfold readKind at run ⊢
  split at run
  · exact run
  · exact run
  · exact closeBlock_anywhere line' run
  · exact run
  · exact simpleLine_anywhere line' run

theorem kinds_cons (raw : Str) (rest : List Str) :
    kinds (raw :: rest) =
      if lineKind raw = .skip then kinds rest else lineKind raw :: kinds rest := by
  unfold kinds
  by_cases skip : lineKind raw = .skip <;> simp [skip]

theorem kinds_append (front back : List Str) : kinds (front ++ back) = kinds front ++ kinds back := by
  rw [kinds, List.map_append, List.filter_append]
  rfl

/-- A run succeeds with the same result at any line number, and skipped lines do not count. -/
theorem parseLines_iff {raws : List Str} : ∀ {line : Nat} {s : ParserState},
    parseLines parser line raws s = .ok s' ↔ readKinds parser (kinds raws) s = .ok s' := by
  induction raws with
  | nil => exact fun {_ _} => Iff.rfl
  | cons raw rest ih =>
      intro line s
      have step : parseLine parser line raw s = readKind parser line (lineKind raw) s :=
        parseLine_eq parser line raw s
      rw [parseLines, step, kinds_cons]
      split
      next skip =>
        rw [skip]
        exact ih
      next =>
        constructor
        · intro run
          obtain ⟨next, first, later⟩ := bind_ok run
          rw [readKinds, readKind_anywhere 0 first]
          exact ih.mp later
        · intro run
          obtain ⟨next, first, later⟩ := bind_ok run
          rw [readKind_anywhere line first]
          exact ih.mpr later

theorem readKinds_append {front back : List LineKind} : ∀ {s : ParserState},
    readKinds parser (front ++ back) s = .ok s' ↔
      ∃ middle, readKinds parser front s = .ok middle ∧ readKinds parser back middle = .ok s' := by
  induction front with
  | nil =>
      intro s
      exact ⟨fun run => ⟨s, rfl, run⟩, fun ⟨_, same, run⟩ => Except.ok.inj same ▸ run⟩
  | cons kind rest ih =>
      intro s
      constructor
      · intro run
        obtain ⟨next, first, later⟩ := bind_ok run
        obtain ⟨middle, front, back⟩ := ih.mp later
        refine ⟨middle, ?_, back⟩
        rw [readKinds, first]
        exact front
      · rintro ⟨middle, run, back⟩
        obtain ⟨next, first, later⟩ := bind_ok run
        rw [List.cons_append, readKinds, first]
        exact ih.mpr ⟨middle, later, back⟩

end Kinds

/-! ## A text after a text -/

theorem trim_concat_blank {c : Char} (blank : isWhitespace c = true) (s : Str) :
    trim (s ++ [c]) = trim s := by
  unfold trim
  rw [List.dropWhile_append]
  split
  next none_ =>
    rw [List.isEmpty_iff.mp none_, List.dropWhile_cons, if_pos blank]
    rfl
  next => rw [List.rdropWhile_concat_pos _ _ _ blank]

/-- A line with or without the carriage return of its terminator. -/
def SameLine (first second : Str) : Prop := first = second ∨ first = second ++ ['\r']

theorem SameLine.kind {first second : Str} (same : SameLine first second) :
    lineKind first = lineKind second := by
  rcases same with rfl | rfl
  · rfl
  · rw [lineKind, lineKind, trim_concat_blank rfl]

theorem SameLine.cons {first second : Str} (c : Char) (same : SameLine first second) :
    SameLine (c :: first) (c :: second) := by
  rcases same with rfl | rfl
  · exact Or.inl rfl
  · exact Or.inr rfl

theorem sameLines_kinds {first second : List Str} (same : List.Forall₂ SameLine first second) :
    kinds first = kinds second := by
  induction same with
  | nil => rfl
  | cons here _ ih => rw [kinds_cons, kinds_cons, here.kind, ih]

/-- The lines of a text, a line feed and another text: those of the first, perhaps
without a carriage return or with an empty line at the end, then those of the second. -/
theorem lines_feed (second : Str) : ∀ first : Str, ∃ front,
    lines (first ++ '\n' :: second) = front ++ lines second ∧
      (List.Forall₂ SameLine (lines first) front ∨ front = lines first ++ [[]]) := by
  intro first
  induction first using lines.induct with
  | case1 => exact ⟨[[]], rfl, Or.inr rfl⟩
  | case2 rest ih =>
      obtain ⟨front, split, related⟩ := ih
      refine ⟨[] :: front, ?_, related.imp (List.Forall₂.cons (Or.inl rfl)) (congrArg _)⟩
      rw [List.cons_append, lines_newline, split]
      rfl
  | case3 rest ih =>
      obtain ⟨front, split, related⟩ := ih
      refine ⟨[] :: front, ?_, related.imp (List.Forall₂.cons (Or.inl rfl)) (congrArg _)⟩
      change [] :: lines (rest ++ '\n' :: second) = _
      rw [split]
      rfl
  | case4 c rest notFeed _ empty _ =>
      obtain rfl := lines_eq_nil empty
      by_cases isReturn : c = '\r'
      · subst isReturn
        exact ⟨[[]], rfl, Or.inl (List.Forall₂.cons (Or.inr rfl) List.Forall₂.nil)⟩
      · have alone : lines [c] = [[c]] :=
          lines_cons (fun same => notFeed same) fun same => absurd same isReturn
        refine ⟨[[c]], ?_, Or.inl ?_⟩
        · rw [List.singleton_append,
            lines_cons (fun same => notFeed same) fun same => absurd same isReturn, lines_newline]
          rfl
        · rw [alone]
          exact List.Forall₂.cons (Or.inl rfl) List.Forall₂.nil
  | case5 c rest notFeed notReturn line more known ih =>
      obtain ⟨front, split, related⟩ := ih
      have here := lines_cons (fun same => notFeed same)
        fun isReturn tail same => notReturn tail isReturn same
      have followed : c = '\r' → ∀ tail, rest ++ '\n' :: second ≠ '\n' :: tail := by
        intro isReturn tail same
        cases rest with
        | nil => cases known
        | cons d others =>
            obtain ⟨rfl, _⟩ := List.cons.inj same
            exact notReturn others isReturn rfl
      rw [known] at here related
      rw [here, List.cons_append, lines_cons (fun same => notFeed same) followed, split]
      rcases related with same | rfl
      · obtain ⟨first, others, sameFirst, sameOthers, rfl⟩ := List.forall₂_cons_left_iff.mp same
        exact ⟨(c :: first) :: others, rfl, Or.inl (List.Forall₂.cons (sameFirst.cons c) sameOthers)⟩
      · exact ⟨(c :: line) :: (more ++ [[]]), rfl, Or.inr rfl⟩

theorem kinds_feed (first second : Str) :
    kinds (lines (first ++ '\n' :: second)) = kinds (lines first) ++ kinds (lines second) := by
  obtain ⟨front, split, related⟩ := lines_feed second first
  rw [split, kinds_append]
  rcases related with same | rfl
  · rw [sameLines_kinds same]
  · have blank : kinds [[]] = [] := rfl
    rw [kinds_append, blank, List.append_nil]

end TinyProxy
