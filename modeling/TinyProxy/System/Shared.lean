import TinyProxy.System.Machine

/-!
# The shared configuration

Whatever the sessions do, their answers are those of a server that handles the
calls one after the other, in an order that never contradicts real time.
-/

set_option autoImplicit false

namespace TinyProxy

open Rust Http Linearization Transition

section Invariant
variable (codec : Codec)

/-- The call that a session is busy with is in the trace as far as the session has come. -/
def Activity.Fits (trace : List (Label CellCall CellAnswer)) : Activity → Prop
  | .received id call => .invoke id call ∈ trace ∧ ∀ entry ∈ effects trace, entry.id ≠ id
  | .proxying id world remoteAddr isTls incoming snapshot =>
      ⟨id, .proxied world remoteAddr isTls incoming,
        .proxied (proxy codec.parser world snapshot remoteAddr isTls incoming)⟩ ∈
          effects trace ∧
        ∀ answer, .respond id answer ∉ trace
  | .answering id answer =>
      (∃ call, ⟨id, call, answer⟩ ∈ effects trace) ∧ ∀ answer', .respond id answer' ∉ trace
  | _ => True

/-- The call that a session is busy with. -/
def Activity.busyWith : Activity → Option Nat
  | .received id _ => some id
  | .proxying id .. => some id
  | .answering id _ => some id
  | _ => none

structure Consistent (start : Config) (activities : List Activity) (cell : Cell) : Prop where
  wellFormed : WellFormed cell.trace
  sequential : Sequential (CellCall.alone codec) start (effects cell.trace)
  current : final (CellCall.alone codec) start (effects cell.trace) = cell.config
  issued : ∀ id call, .invoke id call ∈ cell.trace → id < cell.issued
  busy : ∀ activity ∈ activities, ∀ id, activity.busyWith = some id → id < cell.issued
  fits : ∀ activity ∈ activities, activity.Fits codec cell.trace
  apart : (activities.filterMap Activity.busyWith).Nodup

variable {codec} {start : Config} {activities kept : List Activity} {cell : Cell}

theorem Consistent.perm (consistent : Consistent codec start activities cell)
    (perm : activities.Perm kept) : Consistent codec start kept cell :=
  { consistent with
    busy := fun activity member => consistent.busy activity (perm.mem_iff.mpr member)
    fits := fun activity member => consistent.fits activity (perm.mem_iff.mpr member)
    apart := (perm.filterMap _).nodup_iff.mp consistent.apart }

/-- Sessions may be dropped, and idle ones added. -/
theorem Consistent.change {idle : List Activity}
    (consistent : Consistent codec start activities cell) (sublist : kept.Sublist activities)
    (isIdle : ∀ activity ∈ idle, activity = Activity.idle) :
    Consistent codec start (idle ++ kept) cell := by
  have nothing : idle.filterMap Activity.busyWith = [] := by
    rw [List.filterMap_eq_nil_iff]
    intro activity member
    rw [isIdle activity member]
    rfl
  constructor
  · exact consistent.wellFormed
  · exact consistent.sequential
  · exact consistent.current
  · exact consistent.issued
  · intro activity member
    rcases List.mem_append.mp member with new | old
    · rw [isIdle activity new]
      simp [Activity.busyWith]
    · exact consistent.busy activity (sublist.subset old)
  · intro activity member
    rcases List.mem_append.mp member with new | old
    · rw [isIdle activity new]
      trivial
    · exact consistent.fits activity (sublist.subset old)
  · rw [List.filterMap_append, nothing, List.nil_append]
    exact consistent.apart.sublist (sublist.filterMap _)

/-- A label about one call changes nothing for a session that is busy with another. -/
theorem Activity.fits_record {trace : List (Label CellCall CellAnswer)} {activity : Activity}
    {label : Label CellCall CellAnswer} (fits : activity.Fits codec trace)
    (notEffect : ∀ id call answer, label = .effect id call answer → activity.busyWith ≠ some id)
    (notRespond : ∀ id answer, label = .respond id answer → activity.busyWith ≠ some id) :
    activity.Fits codec (trace ++ [label]) := by
  have effectsGrow : ∀ entry ∈ effects trace, entry ∈ effects (trace ++ [label]) := by
    intro entry member
    rw [effects_append]
    exact List.mem_append_left _ member
  cases activity with
  | idle => trivial
  | ended => trivial
  | received id call =>
      refine ⟨List.mem_append_left _ fits.1, fun entry member same => ?_⟩
      rw [effects_append, List.mem_append] at member
      rcases member with old | new
      · exact fits.2 entry old same
      · cases label with
        | effect id' call' answer' =>
            obtain rfl := List.mem_singleton.mp new
            exact notEffect _ _ _ rfl (by rw [← same]; rfl)
        | invoke => cases new
        | respond => cases new
  | proxying id world remoteAddr isTls incoming snapshot =>
      refine ⟨effectsGrow _ fits.1, fun answer member => ?_⟩
      rcases List.mem_append.mp member with old | new
      · exact fits.2 answer old
      · exact notRespond id answer (List.mem_singleton.mp new).symm rfl
  | answering id answer =>
      obtain ⟨⟨call, done⟩, unanswered⟩ := fits
      refine ⟨⟨call, effectsGrow _ done⟩, fun answer' member => ?_⟩
      rcases List.mem_append.mp member with old | new
      · exact unanswered answer' old
      · exact notRespond id answer' (List.mem_singleton.mp new).symm rfl

section Moves
variable {rest : List Activity} {before after : Activity} {next : Cell}

/-- The sessions other than the one that moves. -/
theorem Consistent.others (consistent : Consistent codec start (before :: rest) cell) :
    (∀ activity ∈ rest, activity.Fits codec cell.trace) ∧
    (∀ activity ∈ rest, ∀ id, activity.busyWith = some id → id < cell.issued) ∧
    (rest.filterMap Activity.busyWith).Nodup ∧
    ∀ id, before.busyWith = some id → ∀ activity ∈ rest, activity.busyWith ≠ some id := by
  refine ⟨fun activity member => consistent.fits activity (List.mem_cons_of_mem _ member),
    fun activity member => consistent.busy activity (List.mem_cons_of_mem _ member),
    consistent.apart.sublist ((List.sublist_cons_self ..).filterMap _), ?_⟩
  intro id isBusy activity member same
  have apart := consistent.apart
  rw [List.filterMap_cons_some isBusy, List.nodup_cons] at apart
  exact apart.1 (List.mem_filterMap.mpr ⟨activity, member, same⟩)

/-- What is asked of a step that records one label. -/
theorem Consistent.record {label : Label CellCall CellAnswer} {config : Config} {issued : Nat}
    (consistent : Consistent codec start (before :: rest) cell)
    (wellFormed : WellFormed (cell.trace ++ [label]))
    (sequential : Sequential (CellCall.alone codec) start (effects (cell.trace ++ [label])))
    (current : final (CellCall.alone codec) start (effects (cell.trace ++ [label])) = config)
    (grows : cell.issued ≤ issued)
    (made : ∀ id call, label = .invoke id call → id < issued)
    (own : ∀ id, after.busyWith = some id → id < issued)
    (fits : after.Fits codec (cell.trace ++ [label]))
    (notEffect : ∀ id call answer, label = .effect id call answer →
      before.busyWith = some id)
    (notRespond : ∀ id answer, label = .respond id answer → before.busyWith = some id)
    (apart : ∀ id, after.busyWith = some id → ∀ activity ∈ rest, activity.busyWith ≠ some id) :
    Consistent codec start (after :: rest) ⟨config, issued, cell.trace ++ [label]⟩ := by
  obtain ⟨othersFit, othersBusy, othersApart, distinct⟩ := consistent.others
  constructor
  · exact wellFormed
  · exact sequential
  · exact current
  · intro id call member
    rcases List.mem_append.mp member with old | new
    · exact lt_of_lt_of_le (consistent.issued id call old) grows
    · exact made id call (List.mem_singleton.mp new).symm
  · intro activity member id isBusy
    rcases List.mem_cons.mp member with rfl | other
    · exact own id isBusy
    · exact lt_of_lt_of_le (othersBusy activity other id isBusy) grows
  · intro activity member
    rcases List.mem_cons.mp member with rfl | other
    · exact fits
    · exact Activity.fits_record (othersFit activity other)
        (fun id call answer same => distinct id (notEffect id call answer same) activity other)
        (fun id answer same => distinct id (notRespond id answer same) activity other)
  · cases isBusy : after.busyWith with
    | none => rwa [List.filterMap_cons_none isBusy]
    | some id =>
        rw [List.filterMap_cons_some isBusy, List.nodup_cons]
        refine ⟨fun member => ?_, othersApart⟩
        obtain ⟨activity, other, same⟩ := List.mem_filterMap.mp member
        exact apart id isBusy activity other same

theorem afterAnswer_idle (answer : CellAnswer) :
    (afterAnswer answer).busyWith = none ∧
      ∀ trace, (afterAnswer answer).Fits codec trace := by
  unfold afterAnswer
  split
  · exact ⟨rfl, fun _ => trivial⟩
  · exact ⟨rfl, fun _ => trivial⟩

theorem Consistent.receive (consistent : Consistent codec start (.idle :: rest) cell)
    (call : CellCall) :
    Consistent codec start (.received cell.issued call :: rest)
      ({ cell with issued := cell.issued + 1 }.record (.invoke cell.issued call)) := by
  have unused : ∀ call', .invoke cell.issued call' ∉ cell.trace := by
    intro call' member
    exact absurd (consistent.issued _ _ member) (Nat.lt_irrefl _)
  obtain ⟨_, busy, _, _⟩ := consistent.others
  have noEffect : effects (cell.trace ++ [.invoke cell.issued call]) = effects cell.trace := by
    simp
  apply consistent.record (.invoke _ _ consistent.wellFormed unused)
  · rw [noEffect]
    exact consistent.sequential
  · rw [noEffect]
    exact consistent.current
  · exact Nat.le_succ _
  · intro id call' same
    cases same
    exact Nat.lt_succ_self _
  · intro id isBusy
    cases isBusy
    exact Nat.lt_succ_self _
  · refine ⟨List.mem_append_right _ (List.mem_singleton_self _), fun entry member same => ?_⟩
    rw [noEffect] at member
    exact unused entry.call (same ▸ consistent.wellFormed.invoked entry member)
  · intro _ _ _ same
    cases same
  · intro _ _ same
    cases same
  · intro id isBusy activity member same
    cases isBusy
    exact absurd (busy activity member _ same) (Nat.lt_irrefl _)

/-- What touching the cell leads to. -/
theorem touchCell_spec (cell : Cell) (id : Nat) (call : CellCall) :
    (touchCell codec cell id call).2 = ⟨(call.alone codec cell.config).2, cell.issued,
        cell.trace ++ [.effect id call (call.alone codec cell.config).1]⟩ ∧
      (touchCell codec cell id call).1.busyWith = some id ∧
      ((∀ answer, .respond id answer ∉ cell.trace) →
        (touchCell codec cell id call).1.Fits codec
          (cell.trace ++ [.effect id call (call.alone codec cell.config).1])) := by
  have done : ∀ answer, (⟨id, call, answer⟩ : Entry CellCall CellAnswer) ∈
      effects (cell.trace ++ [.effect id call answer]) := by simp
  have still : ∀ answer, (∀ answer, .respond id answer ∉ cell.trace) →
      ∀ answer', .respond id answer' ∉ cell.trace ++ [.effect id call answer] := by
    intro answer unanswered answer' member
    simp only [List.mem_append, List.mem_singleton, reduceCtorEq, or_false] at member
    exact unanswered answer' member
  cases call with
  | proxied => exact ⟨rfl, rfl, fun unanswered => ⟨done _, still _ unanswered⟩⟩
  | redirected => exact ⟨rfl, rfl, fun unanswered => ⟨⟨_, done _⟩, still _ unanswered⟩⟩
  | api => exact ⟨rfl, rfl, fun unanswered => ⟨⟨_, done _⟩, still _ unanswered⟩⟩
  | updateConfig => exact ⟨rfl, rfl, fun unanswered => ⟨⟨_, done _⟩, still _ unanswered⟩⟩
  | configSnapshot => exact ⟨rfl, rfl, fun unanswered => ⟨⟨_, done _⟩, still _ unanswered⟩⟩

theorem Consistent.touch {id : Nat} {call : CellCall}
    (consistent : Consistent codec start (.received id call :: rest) cell) :
    Consistent codec start ((touchCell codec cell id call).1 :: rest)
      (touchCell codec cell id call).2 := by
  obtain ⟨shape, busyWith, fitsAfter⟩ := @touchCell_spec codec cell id call
  obtain ⟨made, notYet⟩ := consistent.fits _ (List.mem_cons_self ..)
  obtain ⟨_, _, _, distinct⟩ := consistent.others
  have unanswered : ∀ answer, .respond id answer ∉ cell.trace := by
    intro answer member
    obtain ⟨_, done⟩ := consistent.wellFormed.answered member
    exact notYet _ done rfl
  rw [shape]
  have own : ∀ other, (touchCell codec cell id call).1.busyWith = some other → other = id :=
    fun other isBusy => (Option.some.inj (busyWith.symm.trans isBusy)).symm
  apply consistent.record (.effect _ _ _ consistent.wellFormed made notYet)
  · rw [effects_append, sequential_append, consistent.current]
    exact ⟨consistent.sequential, rfl, trivial⟩
  · rw [effects_append, final_append, consistent.current]
    rfl
  · exact Nat.le_refl _
  · intro _ _ same
    cases same
  · intro other isBusy
    exact consistent.busy _ (List.mem_cons_self ..) other (own other isBusy ▸ rfl)
  · exact fitsAfter unanswered
  · intro _ _ _ same
    cases same
    rfl
  · intro _ _ same
    cases same
  · intro other isBusy
    exact own other isBusy ▸ distinct id rfl

theorem Consistent.finish {id : Nat} {call : CellCall} {answer : CellAnswer}
    (consistent : Consistent codec start (before :: rest) cell)
    (isBusy : before.busyWith = some id) (done : ⟨id, call, answer⟩ ∈ effects cell.trace)
    (unanswered : ∀ answer', .respond id answer' ∉ cell.trace) :
    Consistent codec start (afterAnswer answer :: rest) (cell.record (.respond id answer)) := by
  obtain ⟨idle, fits⟩ := @afterAnswer_idle codec answer
  have noEffect : effects (cell.trace ++ [.respond id answer]) = effects cell.trace := by simp
  apply consistent.record (.respond _ _ _ consistent.wellFormed done unanswered)
  · rw [noEffect]
    exact consistent.sequential
  · rw [noEffect]
    exact consistent.current
  · exact Nat.le_refl _
  · intro _ _ same
    cases same
  · intro _ same
    cases idle.symm.trans same
  · exact fits _
  · intro _ _ _ same
    cases same
  · intro _ _ same
    cases same
    exact isBusy
  · intro _ same
    cases idle.symm.trans same

theorem Consistent.step {progress : Progress}
    (consistent : Consistent codec start (before :: rest) cell)
    (step : before.step codec cell progress = some (after, next)) :
    Consistent codec start (after :: rest) next := by
  have fits := consistent.fits before (List.mem_cons_self ..)
  rcases Activity.step_cases step with ⟨call, rfl, rfl, rfl⟩ | ⟨id, call, rfl, same⟩ |
    ⟨id, answer, rfl, rfl, rfl |
      ⟨world, remoteAddr, isTls, incoming, snapshot, outcome, rfl, served, rfl⟩⟩
  · exact consistent.receive call
  · obtain ⟨rfl, rfl⟩ := Prod.mk.inj same
    exact consistent.touch
  · obtain ⟨⟨call, done⟩, unanswered⟩ := fits
    exact consistent.finish rfl done unanswered
  · obtain ⟨done, unanswered⟩ := fits
    rw [served] at done
    exact consistent.finish rfl done unanswered

end Moves

theorem consistent_step {s next : System} {event : SystemEvent}
    (consistent : Consistent codec start s.activities s.cell)
    (step : s.step codec event = some next) :
    Consistent codec start next.activities next.cell := by
  rcases System.step_cases step with ⟨before, after, rest, progress, was, becomes, moves⟩ |
    ⟨same, idle, kept, becomes, sublist, isIdle⟩
  · exact ((consistent.perm was).step moves).perm becomes.symm
  · rw [same]
    exact (consistent.change sublist isIdle).perm becomes.symm

theorem consistent_run {started : Started} {maxConcurrency : Nat} {events : List SystemEvent}
    {s : System}
    (reached : run (System.step codec) (started.system start maxConcurrency) events = some s) :
    Consistent codec start s.activities s.cell := by
  refine @Transition.run_invariant System SystemEvent (System.step codec)
    (fun s => Consistent codec start s.activities s.cell) (fun _ _ _ => consistent_step)
    events _ s ?_ reached
  exact ⟨.nil, trivial, rfl, by simp [Started.system], by simp [System.activities,
    Started.system], by simp [System.activities, Started.system], by simp [System.activities,
    Started.system]⟩

end Invariant

/-! ## Every run -/

section Runs
variable {codec : Codec} {started : Started} {start : Config} {maxConcurrency : Nat}
variable {events : List SystemEvent} {s : System}

/-- All answers of the proxy, of the API server and to the application are explained by one
order of the calls, which leads to the configuration that is stored. -/
theorem system_linearizable
    (reached : run (System.step codec) (started.system start maxConcurrency) events = some s) :
    Linearizes (CellCall.alone codec) start (history s.cell.trace) (effects s.cell.trace) ∧
      final (CellCall.alone codec) start (effects s.cell.trace) = s.cell.config := by
  have consistent := consistent_run reached
  exact ⟨consistent.wellFormed.linearizes consistent.sequential, consistent.current⟩

/-- The configuration that a call stores, whatever was stored before. -/
def CellCall.stores (codec : Codec) : CellCall → Option Config
  | .api request => storedBy codec.json codec.parser request
  | .updateConfig config => some config
  | _ => none

theorem alone_stored (call : CellCall) (stored : Config) :
    (call.alone codec stored).2 = (call.stores codec).getD stored := by
  cases call with
  | proxied => rfl
  | redirected => rfl
  | api request => exact handleApiRequest_stored request stored
  | updateConfig => rfl
  | configSnapshot => rfl

/-- A request that arrives after an update was answered is served by the new configuration,
unless another update came in since the first one was begun. -/
theorem proxied_after_update
    (reached : run (System.step codec) (started.system start maxConcurrency) events = some s)
    {updated id : Nat} {update : CellCall} {config : Config} {ack : CellAnswer} {world : World}
    {remoteAddr : SocketAddr} {isTls : Bool} {incoming : Request} {outcome : Outcome}
    (stores : update.stores codec = some config) (begun : .invoke updated update ∈ s.cell.trace)
    (earlier : [.respond updated ack,
      .invoke id (.proxied world remoteAddr isTls incoming)].Sublist (history s.cell.trace))
    (answered : .respond id (.proxied (some outcome)) ∈ s.cell.trace)
    (last : ∀ other call, .invoke other call ∈ s.cell.trace → other ≠ updated →
      (call.stores codec).isSome = true →
        ∃ answer, [.respond other answer, .invoke updated update].Sublist
          (history s.cell.trace)) :
    proxy codec.parser world config remoteAddr isTls incoming = some outcome := by
  have consistent := consistent_run reached
  have sets : ∀ stored, (update.alone codec stored).2 = config := by
    intro stored
    rw [alone_stored, stores]
    rfl
  have same := consistent.wellFormed.answer_of_last_write consistent.sequential sets begun
    earlier answered fun other call made notUpdate _ => by
      cases writes : call.stores codec with
      | none =>
          refine Or.inl fun stored => ?_
          rw [alone_stored, writes]
          rfl
      | some _ => exact Or.inr (last other call made notUpdate (by rw [writes]; rfl))
  exact (CellAnswer.proxied.inj same).symm

end Runs

/-! ## An update and a request -/

def plainCodec : Codec := ⟨snapshotJson, plainUriParser, plainDisplay⟩

def plainStarted : Started := ⟨[.http (.v4 .unspecified 80)], [], .ok ()⟩

/-- A thread of the application updates the configuration; then a client comes. -/
def updateThenRequest : List SystemEvent :=
  [.connect false, .client 0 (.receive (.updateConfig (singleSite plainSite))), .client 0 .touch,
    .client 0 .finish, .loop 0 .accept exampleAddr, .loop 0 .tryAcquire exampleAddr,
    .loop 0 .spawn exampleAddr, .session 0 (.receive (.request quietWorld exampleRequest)),
    .session 0 .touch, .session 0 .finish]

theorem updateThenRequest_run : ∃ s outcome,
    run (System.step plainCodec) (plainStarted.system ⟨∅⟩ 1) updateThenRequest = some s ∧
      s.cell.trace = [.invoke 0 (.updateConfig (singleSite plainSite)),
        .effect 0 (.updateConfig (singleSite plainSite)) .updated, .respond 0 .updated,
        .invoke 1 (.proxied quietWorld exampleAddr false exampleRequest),
        .effect 1 (.proxied quietWorld exampleAddr false exampleRequest)
          (.proxied (some outcome)),
        .respond 1 (.proxied (some outcome))] ∧ s.live.length = 1 :=
  ⟨_, _, rfl, rfl, rfl⟩

theorem system_linearizable_update : ∃ s,
    run (System.step plainCodec) (plainStarted.system ⟨∅⟩ 1) updateThenRequest = some s ∧
      Linearizes (CellCall.alone plainCodec) ⟨∅⟩ (history s.cell.trace) (effects s.cell.trace) ∧
      (effects s.cell.trace).map Entry.id = [0, 1] := by
  obtain ⟨s, outcome, reached, shape, _⟩ := updateThenRequest_run
  refine ⟨s, reached, (system_linearizable reached).1, ?_⟩
  rw [shape]
  rfl

theorem proxied_after_update_plain : ∃ outcome,
    proxy plainUriParser quietWorld (singleSite plainSite) exampleAddr false exampleRequest =
      some outcome := by
  obtain ⟨s, outcome, reached, shape, _⟩ := updateThenRequest_run
  have stores : (CellCall.updateConfig (singleSite plainSite)).stores plainCodec =
      some (singleSite plainSite) := rfl
  refine ⟨outcome, @proxied_after_update plainCodec plainStarted ⟨∅⟩ 1 _ s reached 0 1 _ _
    .updated _ _ _ _ _ stores ?_ ?_ ?_ ?_⟩
  · rw [shape]
    exact List.mem_cons_self ..
  · rw [shape]
    exact .cons _ (.cons_cons _ (.cons_cons _ (List.nil_sublist _)))
  · rw [shape]
    simp
  · rw [shape]
    intro other call made notUpdate writes
    simp only [List.mem_cons, List.not_mem_nil, Label.invoke.injEq, reduceCtorEq, false_or,
      or_false] at made
    rcases made with ⟨rfl, rfl⟩ | ⟨rfl, rfl⟩
    · exact absurd rfl notUpdate
    · cases writes

end TinyProxy
