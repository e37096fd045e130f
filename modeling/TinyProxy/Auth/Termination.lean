import TinyProxy.Auth.Headers

/-!
# When substitution terminates

A value that spells a placeholder for itself is put back by every round, so a
template is safe for all requests exactly when the loops never look anything up.
-/

set_option autoImplicit false

namespace TinyProxy

open Rust Http

def Halts (env : Environment) (uuid : Uuid) (headers : HeaderMap) (template : Str) : Prop :=
  ∃ fuel result, processHeaderSubstitution fuel env uuid headers template = some result

def UpstreamHalts (env : Environment) (uuid : Uuid) (headers : HeaderMap)
    (upstreamHost requestUri remoteIp template : Str) : Prop :=
  ∃ fuel result, processUpstreamSubstitution fuel env uuid headers upstreamHost requestUri
    remoteIp template = some result

/-- Names under which a request can carry a header. -/
def LegalHeader (name : Str) : Prop := (HeaderName.fromBytes name).isSome = true

/-- Deleting the placeholders that no request and no environment can fill never
meets one that could be filled. -/
def NoLivePlaceholder (template : Str) : Prop :=
  ∃ outcome, Text.Inert headerOpener '\x7d' LegalHeader template outcome ∧
    ∀ rest, outcome = .finished rest →
      ∃ last, Text.Inert envOpener '\x7d' IsVariable rest last

/-! ## The loops one after the other -/

theorem headerText_of_illegal (headers : HeaderMap) {name : Str} (illegal : ¬ LegalHeader name) :
    headerText headers name = [] := by
  have none_made : HeaderName.fromBytes name = none := by
    simpa [LegalHeader] using illegal
  simp [headerText, none_made]

theorem envText_of_not_variable (env : Environment) {name : Str} (illegal : ¬ IsVariable name) :
    envText env name = [] := by
  cases found : env.var name with
  | none => simp [envText, found]
  | some value => exact absurd (env.wellFormed name value found).1 illegal

section Loops
variable {env : Environment} {uuid : Uuid} {headers : HeaderMap} {template : Str}

theorem upstreamHalts_iff (upstreamHost requestUri remoteIp : Str) :
    UpstreamHalts env uuid headers upstreamHost requestUri remoteIp template ↔
      Halts env uuid headers template := by
  unfold UpstreamHalts Halts processUpstreamSubstitution
  apply exists_congr
  intro fuel
  cases base : processHeaderSubstitution fuel env uuid headers template with
  | none => simp
  | some result => cases result <;> simp

theorem process_unclosed {fuel : Nat} {before : Str}
    (first : Text.expandFrom headerOpener '\x7d' (headerText headers) fuel template =
      some (.unclosed before)) :
    processHeaderSubstitution fuel env uuid headers template =
      some (.error (unclosedMessage "header".toList before)) := by
  have loop := congrArg (Option.map (loopResult "header".toList)) first
  change headerLoop fuel headers template = some (.error _) at loop
  rw [processHeaderSubstitution, loop]

theorem process_finished {fuel : Nat} {rest : Str}
    (first : Text.expandFrom headerOpener '\x7d' (headerText headers) fuel template =
      some (.finished rest)) :
    (∃ result, processHeaderSubstitution fuel env uuid headers template = some result) ↔
      ∃ last, Text.expandFrom envOpener '\x7d' (envText env) fuel rest = some last := by
  have loop := congrArg (Option.map (loopResult "header".toList)) first
  change headerLoop fuel headers template = some (.ok rest) at loop
  rw [processHeaderSubstitution, loop]
  cases second : Text.expandFrom envOpener '\x7d' (envText env) fuel rest with
  | none => simp only [envLoop, second, Option.map_none, reduceCtorEq, exists_false]
  | some last => cases last <;> simp only [envLoop, second, Option.map_some, loopResult,
      Option.some.injEq, exists_eq']

theorem halts_of_loops {fuel : Nat} {outcome : Text.Expansion Char}
    (first : Text.expandFrom headerOpener '\x7d' (headerText headers) fuel template =
      some outcome)
    (second : ∀ rest, outcome = .finished rest → ∃ more last,
      Text.expandFrom envOpener '\x7d' (envText env) more rest = some last) :
    Halts env uuid headers template := by
  cases outcome with
  | unclosed before => exact ⟨fuel, _, process_unclosed first⟩
  | finished rest =>
      obtain ⟨more, last, run⟩ := second rest rfl
      have firstEnough := Text.expandFrom_mono first (Nat.le_max_left fuel more)
      have secondEnough := Text.expandFrom_mono run (Nat.le_max_right fuel more)
      exact ⟨max fuel more, (process_finished firstEnough).mpr ⟨last, secondEnough⟩⟩

theorem loops_of_halts (halts : Halts env uuid headers template) :
    ∃ fuel outcome,
      Text.expandFrom headerOpener '\x7d' (headerText headers) fuel template = some outcome ∧
        ∀ rest, outcome = .finished rest → ∃ last,
          Text.expandFrom envOpener '\x7d' (envText env) fuel rest = some last := by
  obtain ⟨fuel, result, run⟩ := halts
  cases first : Text.expandFrom headerOpener '\x7d' (headerText headers) fuel template with
  | none =>
      have loop := congrArg (Option.map (loopResult "header".toList)) first
      change headerLoop fuel headers template = none at loop
      rw [processHeaderSubstitution, loop] at run
      cases run
  | some outcome =>
      refine ⟨fuel, outcome, first, ?_⟩
      rintro rest rfl
      exact (process_finished first).mp ⟨result, run⟩

end Loops

/-! ## Values that echo their placeholder -/

/-- Every legal header name can carry the placeholder that names it. -/
theorem exists_header_echo {name : Str} (legal : LegalHeader name) :
    ∃ headers, headerText headers name = headerOpener ++ name ++ ['\x7d'] := by
  obtain ⟨header, made⟩ := Option.isSome_iff_exists.mp legal
  have visible : VisibleText (headerOpener ++ name ++ ['\x7d']) := by
    have frame : ((headerOpener ++ ['\x7d']).all fun c => 32 ≤ c.toNat && c.toNat < 127) =
        true := by
      decide
    rw [List.all_eq_true] at frame
    intro c member
    rcases List.mem_append.mp member with inFront | closer
    · rcases List.mem_append.mp inFront with opener | inName
      · exact Or.inl (by simpa using frame c (List.mem_append_left _ opener))
      · exact HeaderName.fromBytes_visible made c inName
    · exact Or.inl (by simpa using frame c (List.mem_append_right _ closer))
  obtain ⟨value, _, read⟩ := HeaderValue.ofVisible visible
  refine ⟨Multimap.insert .empty header value, ?_⟩
  rw [headerText, made, Option.bind_some, Multimap.get_insert, if_pos rfl, Option.bind_some,
    read, Option.getD_some]

theorem exists_env_echo {name : Str} (legal : IsVariable name) :
    ∃ env : Environment, envText env name = envOpener ++ name ++ ['\x7d'] := by
  have clean : '\x00' ∉ envOpener ++ name ++ ['\x7d'] := by
    simp [envOpener, legal.2.2]
  exact ⟨.single name _ legal clean, by simp [envText, Environment.single]⟩

/-! ## A client that hangs the proxy -/

/-- `X: {header.X}`. -/
def echoingHeaders : HeaderMap :=
  [(⟨"x".toList, by decide⟩, ⟨utf8 "\x7bheader.X\x7d".toList, by decide⟩)]

theorem substitution_hangs_on_echo :
    ¬ Halts .empty exampleUuid echoingHeaders "\x7bheader.X\x7d".toList := by
  intro halts
  obtain ⟨fuel, outcome, run, _⟩ := loops_of_halts halts
  have opened : Text.splitOnce headerOpener "\x7bheader.X\x7d".toList =
      some ([], "X\x7d".toList) := by decide
  have closed : Text.splitOnce ['\x7d'] "X\x7d".toList = some (['X'], []) := by decide
  have echo : headerText echoingHeaders ['X'] = headerOpener ++ ['X'] ++ ['\x7d'] := by decide
  rw [Text.expandFrom_echo opened closed echo] at run
  cases run

/-! ## Which templates terminate for everybody -/

theorem noLivePlaceholder_of_halts {template : Str} (uuid : Uuid)
    (halts : ∀ env headers, Halts env uuid headers template) : NoLivePlaceholder template := by
  rcases Text.inert_or_meets headerOpener '\x7d' LegalHeader template with
    ⟨outcome, inert⟩ | ⟨name, legal, meets⟩
  · refine ⟨outcome, inert, ?_⟩
    rintro rest rfl
    rcases Text.inert_or_meets envOpener '\x7d' IsVariable rest with
      done | ⟨name, legal, meets⟩
    · exact done
    · exfalso
      obtain ⟨env, echo⟩ := exists_env_echo legal
      obtain ⟨fuel, outcome, first, second⟩ := loops_of_halts (halts env .empty)
      obtain ⟨more, finished⟩ := inert.halts fun _ => headerText_of_illegal .empty
      obtain ⟨last, run⟩ := second rest (Text.expandFrom_unique first finished)
      rw [meets.never_halts (fun _ => envText_of_not_variable env) echo] at run
      cases run
  · exfalso
    obtain ⟨headers, echo⟩ := exists_header_echo legal
    obtain ⟨fuel, outcome, first, _⟩ := loops_of_halts (halts .empty headers)
    rw [meets.never_halts (fun _ => headerText_of_illegal headers) echo] at first
    cases first

theorem halts_of_noLivePlaceholder {template : Str} (inert : NoLivePlaceholder template)
    (env : Environment) (uuid : Uuid) (headers : HeaderMap) : Halts env uuid headers template := by
  obtain ⟨outcome, first, second⟩ := inert
  obtain ⟨fuel, run⟩ := first.halts fun _ => headerText_of_illegal headers
  apply halts_of_loops run
  intro rest finished
  obtain ⟨last, inertRest⟩ := second rest finished
  obtain ⟨more, runRest⟩ := inertRest.halts fun _ => envText_of_not_variable env
  exact ⟨more, last, runRest⟩

/-- A single request is harmless when nothing it reads brings in a brace. -/
theorem halts_of_no_brace {env : Environment} {headers : HeaderMap}
    (clearHeaders : ∀ name, '\x7b' ∉ headerText headers name)
    (clearEnv : ∀ name, '\x7b' ∉ envText env name) (uuid : Uuid) (template : Str) :
    Halts env uuid headers template := by
  have inHeader : '\x7b' ∈ headerOpener := by decide
  have inEnv : '\x7b' ∈ envOpener := by decide
  obtain ⟨outcome, run⟩ := @Text.expandFrom_halts_of_fresh _ _ _ '\x7d' _ _ inHeader
    clearHeaders _ template le_rfl
  apply halts_of_loops run
  intro rest _
  obtain ⟨last, runRest⟩ := @Text.expandFrom_halts_of_fresh _ _ _ '\x7d' _ _ inEnv
    clearEnv _ rest le_rfl
  exact ⟨_, last, runRest⟩

/-- Both substitution functions return for every request and environment exactly
on the templates without a live placeholder; on any other template a request
that hangs them needs a value with an opening brace. -/
theorem substitution_terminates_iff (template : Str) :
    ((∀ env uuid headers, Halts env uuid headers template ∧
        ∀ upstreamHost requestUri remoteIp,
          UpstreamHalts env uuid headers upstreamHost requestUri remoteIp template) ↔
      NoLivePlaceholder template) ∧
    ∀ env uuid headers, Halts env uuid headers template ∨
      ∃ name, '\x7b' ∈ headerText headers name ∨ '\x7b' ∈ envText env name := by
  refine ⟨⟨fun halts => ?_, fun inert env uuid headers => ?_⟩, fun env uuid headers => ?_⟩
  · exact noLivePlaceholder_of_halts exampleUuid fun env headers => (halts env exampleUuid headers).1
  · have base := halts_of_noLivePlaceholder inert env uuid headers
    exact ⟨base, fun _ _ _ => (upstreamHalts_iff _ _ _).mpr base⟩
  · by_cases clear : ∃ name, '\x7b' ∈ headerText headers name ∨ '\x7b' ∈ envText env name
    · exact Or.inr clear
    · push Not at clear
      exact Or.inl (halts_of_no_brace (fun name => (clear name).1) (fun name => (clear name).2)
        uuid template)

end TinyProxy
