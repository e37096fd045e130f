import TinyProxy.System.Progress
import TinyProxy.System.Restore

/-!
# A server without permits

When every permit is with a request that hangs, the API server goes on as if
nothing had happened: it needs no permit.  What it stores is never used.
-/

set_option autoImplicit false

namespace TinyProxy

open Rust Http Linearization Transition Relation

/-- The label is about a request to be proxied. -/
def isProxied : Label CellCall CellAnswer → Bool
  | .invoke _ (.proxied ..) => true
  | .effect _ (.proxied ..) _ => true
  | .respond _ (.proxied _) => true
  | _ => false

/-- Proxied requests are answered without passing through `answering`. -/
def Activity.answersOther : Activity → Prop
  | .answering _ (.proxied _) => False
  | _ => True

section Steps
variable {codec : Codec} {cell cell' : Cell} {before after : Activity} {progress : Progress}

theorem touchCell_answersOther (cell : Cell) (id : Nat) (call : CellCall) :
    (touchCell codec cell id call).1.answersOther := by
  cases call <;> trivial

theorem Activity.step_answersOther (step : before.step codec cell progress = some (after, cell')) :
    after.answersOther := by
  rcases Activity.step_cases step with ⟨_, _, rfl, _⟩ | ⟨id, call, _, same⟩ | ⟨_, answer, rfl, _⟩
  · trivial
  · obtain ⟨rfl, _⟩ := Prod.mk.inj same
    exact touchCell_answersOther cell id call
  · unfold afterAnswer
    split <;> trivial

theorem answersOther_step {s next : System} {event : SystemEvent}
    (before : ∀ activity ∈ s.activities, activity.answersOther)
    (step : s.step codec event = some next) :
    ∀ activity ∈ next.activities, activity.answersOther := by
  rcases System.step_cases step with ⟨old, new, rest, _, was, becomes, moves⟩ |
    ⟨_, idle, kept, becomes, sublist, isIdle⟩
  · intro activity member
    rcases List.mem_cons.mp (becomes.mem_iff.mp member) with rfl | other
    · exact Activity.step_answersOther moves
    · exact before activity (was.mem_iff.mpr (List.mem_cons_of_mem _ other))
  · intro activity member
    rcases List.mem_append.mp (becomes.mem_iff.mp member) with new | old
    · rw [isIdle activity new]
      trivial
    · exact before activity (sublist.subset old)

/-- A session that does not proxy, and that no listener has accepted, leaves a label about
something else. -/
theorem Session.step_label {session moved : Session} {event : SessionEvent}
    (outside : session.origin.isListener = false) (quiet : session.activity.proxies = false)
    (other : session.activity.answersOther)
    (step : session.step codec cell event = some (moved, cell')) :
    ∃ label, cell'.trace = cell.trace ++ [label] ∧ isProxied label = false := by
  obtain ⟨progress, offered, later⟩ := Option.bind_eq_some_iff.mp step
  obtain ⟨⟨activity, next⟩, advances, same⟩ := Option.bind_eq_some_iff.mp later
  cases same
  rcases Activity.step_cases advances with ⟨call, isIdle, received, rfl⟩ |
    ⟨id, call, received, same⟩ |
    ⟨id, answer, _, rfl, answering | ⟨_, _, _, _, _, _, proxying, _⟩⟩
  · refine ⟨_, rfl, ?_⟩
    rw [isIdle, received] at advances
    cases event with
    | receive offer =>
        obtain ⟨offeredCall, taken, rfl⟩ := Option.map_eq_some_iff.mp offered
        obtain rfl := (Activity.received.inj (Prod.mk.inj (Option.some.inj advances)).1).2
        cases offeredCall with
        | proxied => cases outside.symm.trans (call_proxied taken)
        | redirected => rfl
        | api => rfl
        | updateConfig => rfl
        | configSnapshot => rfl
    | touch =>
        obtain rfl := Option.some.inj offered
        cases advances
    | finish =>
        obtain rfl := Option.some.inj offered
        cases advances
  · obtain ⟨_, rfl⟩ := Prod.mk.inj same
    refine ⟨_, congrArg Cell.trace (touchCell_spec cell id call).1, ?_⟩
    rw [received] at quiet
    cases call with
    | proxied => cases quiet
    | redirected => rfl
    | api => rfl
    | updateConfig => rfl
    | configSnapshot => rfl
  · refine ⟨_, rfl, ?_⟩
    rw [answering] at other
    cases answer with
    | proxied => exact other.elim
    | redirected => rfl
    | api => rfl
    | updated => rfl
    | snapshot => rfl
  · rw [proxying] at quiet
    cases quiet

variable {s next : System}

/-- Without permits, a step leaves no label about a request to be proxied. -/
theorem wedged_label (wedged : s.Wedged codec) (permitted : s.Permitted)
    (others : ∀ activity ∈ s.activities, activity.answersOther) (moves : s.Moves codec next) :
    next.cell.trace.filter isProxied = s.cell.trace.filter isProxied := by
  have unchanged : ∀ {session moved : Session} {event : SessionEvent} {cell : Cell},
      session.activity ∈ s.activities → session.origin.isListener = false →
        session.activity.proxies = false →
          session.step codec s.cell event = some (moved, cell) →
            cell.trace.filter isProxied = s.cell.trace.filter isProxied := by
    intro session moved event cell member outside quiet step
    obtain ⟨label, trace, notProxied⟩ :=
      Session.step_label outside quiet (others _ member) step
    simp [trace, notProxied]
  obtain ⟨event, _, step⟩ := moves
  cases event with
  | loop index event remoteAddr =>
      obtain ⟨_, _, later⟩ := Option.bind_eq_some_iff.mp step
      obtain ⟨_, _, same⟩ := Option.bind_eq_some_iff.mp later
      obtain rfl := Option.some.inj same
      rfl
  | session index event =>
      obtain ⟨⟨session, task⟩, here, later⟩ := Option.bind_eq_some_iff.mp step
      obtain ⟨⟨moved, cell⟩, moves, same⟩ := Option.bind_eq_some_iff.mp later
      obtain rfl := Option.some.inj same
      have isHere := List.mem_of_getElem? here
      have outside : session.origin.isListener = false := by
        by_contra isListener
        have hangs := wedged.accepted _ isHere (by simpa using isListener)
        obtain ⟨_, _, later⟩ := Option.bind_eq_some_iff.mp moves
        obtain ⟨_, advances, _⟩ := Option.bind_eq_some_iff.mp later
        exact hangs.stuck advances
      have quiet : session.activity.proxies = false := by
        by_contra proxies
        cases outside.symm.trans (permitted.serving _ isHere (by simpa using proxies))
      refine unchanged ?_ outside quiet moves
      exact List.mem_append_left _ (List.mem_map_of_mem isHere)
  | complete index =>
      obtain ⟨_, _, same⟩ := Option.bind_eq_some_iff.mp step
      obtain rfl := Option.some.inj same
      rfl
  | connect toApi =>
      obtain rfl := Option.some.inj step
      rfl
  | client index event =>
      obtain ⟨session, here, later⟩ := Option.bind_eq_some_iff.mp step
      obtain ⟨⟨moved, cell⟩, moves, same⟩ := Option.bind_eq_some_iff.mp later
      obtain rfl := Option.some.inj same
      have isHere := List.mem_of_getElem? here
      obtain ⟨quiet, outside⟩ := permitted.clients _ isHere
      refine unchanged ?_ outside quiet moves
      exact List.mem_append_right _ (List.mem_map_of_mem isHere)
  | disconnect index =>
      rw [System.step] at step
      split at step
      · obtain rfl := Option.some.inj step
        rfl
      · cases step

theorem wedged_labels (wedged : s.Wedged codec) (permitted : s.Permitted)
    (others : ∀ activity ∈ s.activities, activity.answersOther) {final : System}
    (reached : ReflTransGen (System.Moves codec) s final) :
    final.cell.trace.filter isProxied = s.cell.trace.filter isProxied := by
  have all : final.Wedged codec ∧ final.Permitted ∧
      (∀ activity ∈ final.activities, activity.answersOther) ∧
      final.cell.trace.filter isProxied = s.cell.trace.filter isProxied := by
    induction reached with
    | refl => exact ⟨wedged, permitted, others, rfl⟩
    | tail _ moves ih =>
        obtain ⟨still, permits, answers, same⟩ := ih
        have label := wedged_label still permits answers moves
        have stays := wedged_move still permits moves
        obtain ⟨_, _, step⟩ := moves
        exact ⟨stays, permitted_step permits step, answersOther_step answers step,
          label.trans same⟩
  exact all.2.2.2

/-- The API server takes a new connection, reads a configuration and stores it. -/
theorem posts_accepted (s : System) {post : ApiRequest} {config : Config}
    (isPost : post.req.method = "POST".toList ∧ post.req.uri.path = "/config".toList)
    (posted : postedConfig (configFromJson codec.json codec.parser) post.body = .ok config) :
    ∃ final answer, ReflTransGen (System.Moves codec) s final ∧ final.cell.config = config ∧
      .respond s.cell.issued (.api answer) ∈ final.cell.trace ∧ answer.status = .ok := by
  obtain ⟨answer, ok, effect⟩ := @alone_post codec post s.cell.config isPost config posted
  let call : CellCall := .api post
  let events : List SystemEvent := [.connect true, .client 0 (.receive (.api post)),
    .client 0 .touch, .client 0 .finish]
  have ran : ∃ final, run (System.step codec) s events = some final ∧
      final.cell.config = (call.alone codec s.cell.config).2 ∧
      .respond s.cell.issued (call.alone codec s.cell.config).1 ∈ final.cell.trace :=
    ⟨_, rfl, rfl, List.mem_append_right _ (List.mem_singleton_self _)⟩
  obtain ⟨final, ran, stored, answered⟩ := ran
  rw [effect] at stored answered
  exact ⟨final, answer, moves_of_run (by simp [events]) ran, stored, answered, ok⟩

end Steps

/-! ## Every run -/

section Runs
variable {codec : Codec} {started : Started} {start : Config} {maxConcurrency : Nat}

theorem answersOther_moves {s : System}
    (reached : ReflTransGen (System.Moves codec) (started.system start maxConcurrency) s) :
    ∀ activity ∈ s.activities, activity.answersOther := by
  induction reached with
  | refl =>
      intro activity member
      exact absurd member List.not_mem_nil
  | tail _ moves ih =>
      obtain ⟨_, _, step⟩ := moves
      exact answersOther_step ih step

/-- Once as many requests hang as there are permits, no request is begun, served or answered
by a listener any more, whatever is stored; and whatever is posted is stored and answered 200. -/
theorem exhausted_serves_nobody {s : System}
    (reached : ReflTransGen (System.Moves codec) (started.system start maxConcurrency) s)
    (full : maxConcurrency ≤ (s.hanging codec).length) :
    (∀ final, ReflTransGen (System.Moves codec) s final →
      final.cell.trace.filter isProxied = s.cell.trace.filter isProxied) ∧
    ∀ (post : ApiRequest) (config : Config),
      post.req.method = "POST".toList ∧ post.req.uri.path = "/config".toList →
      postedConfig (configFromJson codec.json codec.parser) post.body = .ok config →
        ∃ final answer, ReflTransGen (System.Moves codec) s final ∧
          final.cell.config = config ∧
          .respond s.cell.issued (.api answer) ∈ final.cell.trace ∧ answer.status = .ok := by
  obtain ⟨events, ran⟩ := run_of_moves reached
  have permitted := permitted_run ran
  have wedged := wedged_of_hanging permitted (permits_run ran) full
  refine ⟨fun final later => ?_, fun post config isPost posted => posts_accepted s isPost posted⟩
  exact wedged_labels wedged permitted (answersOther_moves reached) later

end Runs

/-- The site that made the request hang is removed by a `POST /config`, and still no request
is served. -/
theorem exhausted_serves_nobody_removed : ∃ s final answer,
    ReflTransGen (System.Moves restoringCodec)
      (plainStarted.system (singleSite echoSite) 1) s ∧
    ReflTransGen (System.Moves restoringCodec) s final ∧ final.cell.config = ⟨∅⟩ ∧
    .respond s.cell.issued (.api answer) ∈ final.cell.trace ∧ answer.status = .ok ∧
    ∀ later, ReflTransGen (System.Moves restoringCodec) final later →
      later.cell.trace.filter isProxied = s.cell.trace.filter isProxied := by
  have ran : ∃ s task,
      run (System.step restoringCodec) (plainStarted.system (singleSite echoSite) 1)
        echoEvents = some s ∧
      s.live = [(⟨.accepted (.listener (.http (.v4 .unspecified 80))) exampleAddr,
        .proxying 0 quietWorld exampleAddr false echoRequest (singleSite echoSite)⟩, task)] :=
    ⟨_, _, rfl, rfl⟩
  obtain ⟨s, task, ran, live⟩ := ran
  have reached := moves_of_run (by simp [echoEvents]) ran
  have hangs : Activity.Hangs restoringCodec
      (.proxying 0 quietWorld exampleAddr false echoRequest (singleSite echoSite)) := echo_hangs
  have full : 1 ≤ (s.hanging restoringCodec).length := by
    rw [System.hanging, live, List.filter_cons_of_pos (by simpa using hangs)]
    exact Nat.le_refl 1
  have posted : postedConfig (configFromJson restoringCodec.json restoringCodec.parser)
      postRequest.body = .ok ⟨∅⟩ := postedConfig_of_text rfl
  obtain ⟨silent, stores⟩ := exhausted_serves_nobody reached full
  obtain ⟨final, answer, moves, stored, answered, ok⟩ :=
    stores postRequest ⟨∅⟩ ⟨rfl, rfl⟩ posted
  exact ⟨s, final, answer, reached, moves, stored, answered, ok,
    fun later after => silent later (moves.trans after)⟩

end TinyProxy
