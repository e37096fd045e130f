import TinyProxy.System.Shared

/-!
# The limit on requests in service

Forgetting the cell and the sessions turns a run of the machine into a run of
the connection limit alone.  The permits that are not free are those of the
connections that a listener has accepted, so the limit is one on the requests
that are being proxied, too.
-/

set_option autoImplicit false

namespace TinyProxy

open Rust Http Linearization Transition

/-- What the connection limit is about. -/
def System.toServer (s : System) : Server := ⟨s.available, s.loops, s.live.map Prod.snd⟩

def Origin.isListener : Origin → Bool
  | .accepted (.listener _) _ => true
  | _ => false

/-- The connections of the listeners. -/
def System.accepted (s : System) : List (Session × ConnectionTask) :=
  s.live.filter fun entry => entry.1.origin.isListener

/-- A proxied request is here that has not been answered. -/
def Activity.proxies : Activity → Bool
  | .received _ (.proxied ..) => true
  | .proxying .. => true
  | _ => false

def System.inService (s : System) : List (Session × ConnectionTask) :=
  s.live.filter fun entry => entry.1.activity.proxies

theorem set_of_getElem? {α : Type} {xs : List α} {index : Nat} {x : α}
    (here : xs[index]? = some x) : xs.set index x = xs := by
  obtain ⟨inRange, rfl⟩ := List.getElem?_eq_some_iff.mp here
  exact List.set_getElem_self inRange

section Simulation
variable {codec : Codec} {s next : System}

/-- A step of the machine is one of the connection limit, or does not concern it. -/
theorem toServer_step {event : SystemEvent} (step : s.step codec event = some next) :
    (∃ serverEvent, s.toServer.step serverEvent = some next.toServer) ∨
      next.toServer = s.toServer := by
  cases event with
  | loop index event remoteAddr =>
      obtain ⟨⟨loop, state⟩, here, later⟩ := Option.bind_eq_some_iff.mp step
      obtain ⟨⟨newState, left, spawned⟩, taken, same⟩ := Option.bind_eq_some_iff.mp later
      obtain rfl := Option.some.inj same
      refine Or.inl ⟨.loop index event, ?_⟩
      have here' : s.toServer.loops[index]? = some (loop, state) := here
      have taken' : loop.step s.toServer.available state event =
          some (newState, left, spawned) := taken
      rw [Server.step, here', Option.bind_eq_bind, Option.bind_some]
      dsimp only
      rw [taken', Option.bind_eq_bind, Option.bind_some]
      simp [System.toServer, Function.comp_def]
  | session index event =>
      obtain ⟨⟨session, task⟩, here, later⟩ := Option.bind_eq_some_iff.mp step
      obtain ⟨⟨moved, cell⟩, _, same⟩ := Option.bind_eq_some_iff.mp later
      obtain rfl := Option.some.inj same
      have task' : (s.live.map Prod.snd)[index]? = some task := by
        rw [List.getElem?_map, here]
        rfl
      refine Or.inr ?_
      rw [System.toServer, System.toServer, List.map_set, set_of_getElem? task']
  | complete index =>
      obtain ⟨⟨session, task⟩, here, same⟩ := Option.bind_eq_some_iff.mp step
      obtain rfl := Option.some.inj same
      refine Or.inl ⟨.complete index, ?_⟩
      have here' : s.toServer.live[index]? = some task := by
        rw [System.toServer, List.getElem?_map, here]
        rfl
      rw [Server.step, here', Option.bind_eq_bind, Option.bind_some]
      simp [System.toServer, List.eraseIdx_map]
  | connect toApi =>
      obtain rfl := Option.some.inj step
      exact Or.inr rfl
  | client index event =>
      obtain ⟨session, _, later⟩ := Option.bind_eq_some_iff.mp step
      obtain ⟨⟨moved, cell⟩, _, same⟩ := Option.bind_eq_some_iff.mp later
      obtain rfl := Option.some.inj same
      exact Or.inr rfl
  | disconnect index =>
      rw [System.step] at step
      split at step
      · obtain rfl := Option.some.inj step
        exact Or.inr rfl
      · cases step

/-- A run of the machine is a run of the connection limit. -/
theorem toServer_run : ∀ {events : List SystemEvent} {s final : System},
    run (System.step codec) s events = some final →
      ∃ serverEvents, run Server.step s.toServer serverEvents = some final.toServer := by
  intro events
  induction events with
  | nil =>
      intro s final reached
      obtain rfl := Option.some.inj reached
      exact ⟨[], rfl⟩
  | cons event rest ih =>
      intro s final reached
      obtain ⟨next, step, later⟩ := run_cons_eq_some reached
      obtain ⟨serverEvents, serverRun⟩ := ih later
      rcases toServer_step step with ⟨serverEvent, serverStep⟩ | same
      · refine ⟨serverEvent :: serverEvents, ?_⟩
        rw [run, serverStep]
        exact serverRun
      · exact ⟨serverEvents, same ▸ serverRun⟩

end Simulation

/-! ## Connections and permits -/

theorem acceptLoop_spawned {limited : Bool} {available left : Nat} {state next : LoopState}
    {event : LoopEvent} {task : ConnectionTask}
    (step : acceptLoop limited available state event = some (next, left, some task)) :
    task.permit = true ∧ state = .permitted ∨ task.permit = false ∧ limited = false := by
  unfold acceptLoop at step
  split at step
  case h_3 =>
    split at step
    · split at step
      · cases step
      · cases step
    · cases step
  case h_4 =>
    cases step
    exact Or.inl ⟨rfl, rfl⟩
  case h_5 =>
    split at step
    · cases step
    next unlimited =>
      cases step
      exact Or.inr ⟨rfl, by simpa using unlimited⟩
  all_goals cases step

/-- A task has a permit exactly when a listener has accepted its connection, and proxied
requests are served on such connections only. -/
structure System.Permitted (s : System) : Prop where
  loops : ∀ entry ∈ s.loops, entry.2 = .permitted → entry.1.limited = true
  tasks : ∀ entry ∈ s.live, entry.2.permit = entry.1.origin.isListener
  serving : ∀ entry ∈ s.live, entry.1.activity.proxies = true → entry.1.origin.isListener = true
  clients : ∀ session ∈ s.clients, session.activity.proxies = false ∧
    session.origin.isListener = false

section Permits
variable {codec : Codec} {cell cell' : Cell} {session moved : Session}

theorem call_proxied {origin : Origin} {offer : Offer} {world : World}
    {remoteAddr : SocketAddr} {isTls : Bool} {incoming : Request}
    (call : origin.call offer = some (.proxied world remoteAddr isTls incoming)) :
    origin.isListener = true := by
  unfold Origin.call at call
  split at call
  · rfl
  · rfl
  all_goals cases call

/-- A session keeps its origin and proxies only what a listener has accepted. -/
theorem Session.step_proxies {event : SessionEvent}
    (before : session.activity.proxies = true → session.origin.isListener = true)
    (step : session.step codec cell event = some (moved, cell')) :
    moved.origin = session.origin ∧
      (moved.activity.proxies = true → session.origin.isListener = true) := by
  obtain ⟨progress, offered, later⟩ := Option.bind_eq_some_iff.mp step
  obtain ⟨⟨activity, next⟩, advances, same⟩ := Option.bind_eq_some_iff.mp later
  cases same
  refine ⟨rfl, fun proxies => ?_⟩
  dsimp only at proxies
  rcases Activity.step_cases advances with ⟨call, isIdle, rfl, _⟩ | ⟨id, call, received, same⟩ |
    ⟨id, answer, rfl, _, _⟩
  · rw [isIdle] at advances
    cases event with
    | receive offer =>
        obtain ⟨offeredCall, taken, rfl⟩ := Option.map_eq_some_iff.mp offered
        obtain rfl := (Activity.received.inj (Prod.mk.inj (Option.some.inj advances)).1).2
        cases offeredCall with
        | proxied => exact call_proxied taken
        | redirected => cases proxies
        | api => cases proxies
        | updateConfig => cases proxies
        | configSnapshot => cases proxies
    | touch =>
        obtain rfl := Option.some.inj offered
        cases advances
    | finish =>
        obtain rfl := Option.some.inj offered
        cases advances
  · obtain ⟨rfl, _⟩ := Prod.mk.inj same
    apply before
    rw [received]
    cases call with
    | proxied => rfl
    | redirected => cases proxies
    | api => cases proxies
    | updateConfig => cases proxies
    | configSnapshot => cases proxies
  · unfold afterAnswer at proxies
    split at proxies
    · cases proxies
    · cases proxies

theorem loop_spawns {loop : AcceptLoop} {available left : Nat} {state next : LoopState}
    {event : LoopEvent} {spawned : Option ConnectionTask}
    (step : loop.step available state event = some (next, left, spawned))
    (permitted : state = .permitted → loop.limited = true) :
    (next = .permitted → loop.limited = true) ∧
      ∀ task ∈ spawned, task.permit = loop.limited := by
  rw [AcceptLoop.step_eq] at step
  constructor
  · rintro rfl
    unfold acceptLoop at step
    split at step
    case h_3 =>
      split at step
      next isLimited => exact isLimited
      · cases step
    case h_5 =>
      split at step
      · cases step
      · cases step
    all_goals cases step
  · rintro task rfl
    rcases acceptLoop_spawned step with ⟨withPermit, isPermitted⟩ | ⟨without, unlimited⟩
    · rw [withPermit, permitted isPermitted]
    · rw [without, unlimited]

theorem permitted_step {s next : System} {event : SystemEvent} (permitted : s.Permitted)
    (step : s.step codec event = some next) : next.Permitted := by
  cases event with
  | loop index event remoteAddr =>
      obtain ⟨⟨loop, state⟩, here, later⟩ := Option.bind_eq_some_iff.mp step
      obtain ⟨⟨newState, left, spawned⟩, taken, same⟩ := Option.bind_eq_some_iff.mp later
      obtain rfl := Option.some.inj same
      obtain ⟨stays, marked⟩ :=
        loop_spawns taken (permitted.loops _ (List.mem_of_getElem? here))
      have listener : (Origin.accepted loop remoteAddr).isListener = loop.limited := by
        cases loop <;> rfl
      refine { permitted with loops := ?_, tasks := ?_, serving := ?_ }
      · intro entry member
        rcases List.mem_or_eq_of_mem_set member with before | rfl
        · exact permitted.loops entry before
        · exact stays
      · intro entry member
        rcases List.mem_append.mp member with new | before
        · obtain ⟨task, isNew, rfl⟩ := List.mem_map.mp new
          exact (marked task (Option.mem_toList.mp isNew)).trans listener.symm
        · exact permitted.tasks entry before
      · intro entry member
        rcases List.mem_append.mp member with new | before
        · obtain ⟨task, _, rfl⟩ := List.mem_map.mp new
          intro proxies
          cases proxies
        · exact permitted.serving entry before
  | session index event =>
      obtain ⟨⟨session, task⟩, here, later⟩ := Option.bind_eq_some_iff.mp step
      obtain ⟨⟨moved, cell⟩, moves, same⟩ := Option.bind_eq_some_iff.mp later
      obtain rfl := Option.some.inj same
      have isHere := List.mem_of_getElem? here
      obtain ⟨origin, serves⟩ := Session.step_proxies (permitted.serving _ isHere) moves
      refine { permitted with tasks := ?_, serving := ?_ }
      · intro entry member
        rcases List.mem_or_eq_of_mem_set member with before | rfl
        · exact permitted.tasks entry before
        · rw [origin]
          exact permitted.tasks _ isHere
      · intro entry member
        rcases List.mem_or_eq_of_mem_set member with before | rfl
        · exact permitted.serving entry before
        · rw [origin]
          exact serves
  | complete index =>
      obtain ⟨⟨session, task⟩, _, same⟩ := Option.bind_eq_some_iff.mp step
      obtain rfl := Option.some.inj same
      exact { permitted with
        tasks := fun entry member => permitted.tasks entry (List.mem_of_mem_eraseIdx member)
        serving := fun entry member => permitted.serving entry (List.mem_of_mem_eraseIdx member) }
  | connect toApi =>
      obtain rfl := Option.some.inj step
      refine { permitted with clients := ?_ }
      intro session member
      rcases List.mem_cons.mp member with rfl | before
      · cases toApi
        · exact ⟨rfl, rfl⟩
        · exact ⟨rfl, rfl⟩
      · exact permitted.clients session before
  | client index event =>
      obtain ⟨session, here, later⟩ := Option.bind_eq_some_iff.mp step
      obtain ⟨⟨moved, cell⟩, moves, same⟩ := Option.bind_eq_some_iff.mp later
      obtain rfl := Option.some.inj same
      obtain ⟨quiet, outside⟩ := permitted.clients _ (List.mem_of_getElem? here)
      have vacuous : session.activity.proxies = true → session.origin.isListener = true := by
        rw [quiet]
        simp
      obtain ⟨origin, serves⟩ := Session.step_proxies vacuous moves
      refine { permitted with clients := ?_ }
      intro other member
      rcases List.mem_or_eq_of_mem_set member with before | rfl
      · exact permitted.clients other before
      · rw [outside] at serves
        refine ⟨by simpa using serves, ?_⟩
        rw [origin]
        exact outside
  | disconnect index =>
      rw [System.step] at step
      split at step
      · obtain rfl := Option.some.inj step
        exact { permitted with
          clients := fun session member =>
            permitted.clients session (List.mem_of_mem_eraseIdx member) }
      · cases step

end Permits

/-! ## Every run -/

theorem countP_accepted {s : System} (permitted : s.Permitted) :
    s.toServer.live.countP ConnectionTask.permit = s.accepted.length := by
  rw [System.toServer, System.accepted, List.countP_map, List.countP_eq_length_filter]
  congr 1
  apply List.filter_congr
  intro entry member
  exact permitted.tasks entry member

section Runs
variable {codec : Codec} {started : Started} {start : Config} {maxConcurrency : Nat}
variable {events : List SystemEvent} {s : System}

theorem permitted_run
    (reached : run (System.step codec) (started.system start maxConcurrency) events = some s) :
    s.Permitted := by
  refine Transition.run_invariant (fun _ _ _ => permitted_step) ?_ reached
  constructor
  · intro entry member isPermitted
    obtain ⟨loop, _, rfl⟩ := List.mem_map.mp member
    cases isPermitted
  all_goals exact fun _ member => absurd member List.not_mem_nil

/-- Every permit is free, with an accept loop, or with a connection of a listener. -/
theorem permits_run
    (reached : run (System.step codec) (started.system start maxConcurrency) events = some s) :
    s.available + s.loops.countP holdsPermit + s.accepted.length = maxConcurrency := by
  obtain ⟨serverEvents, serverRun⟩ := toServer_run reached
  change run Server.step (started.serve maxConcurrency) serverEvents = _ at serverRun
  have balanced := run_balanced serverRun
  rw [Server.held, countP_accepted (permitted_run reached)] at balanced
  simpa [System.toServer, Nat.add_assoc] using balanced

/-- The permits add up to the limit, and each request that is being proxied has its own
connection.  API connections need no permit. -/
theorem service_bounded
    (reached : run (System.step codec) (started.system start maxConcurrency) events = some s) :
    s.available + s.loops.countP holdsPermit + s.accepted.length = maxConcurrency ∧
      s.inService.length ≤ s.accepted.length ∧
      ∀ session ∈ s.clients, session.activity.proxies = false := by
  have permitted := permitted_run reached
  refine ⟨permits_run reached, ?_, fun session member => (permitted.clients session member).1⟩
  rw [System.inService, System.accepted, ← List.countP_eq_length_filter,
    ← List.countP_eq_length_filter]
  exact List.countP_mono_left permitted.serving

end Runs

/-- One connection with its permit, after an update that needed none. -/
theorem service_bounded_update : ∃ s,
    run (System.step plainCodec) (plainStarted.system ⟨∅⟩ 1) updateThenRequest = some s ∧
      s.available + s.loops.countP holdsPermit + s.accepted.length = 1 := by
  obtain ⟨s, _, reached, _⟩ := updateThenRequest_run
  exact ⟨s, reached, (service_bounded reached).1⟩

end TinyProxy
