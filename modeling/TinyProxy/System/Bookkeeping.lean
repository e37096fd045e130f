import TinyProxy.Proxy.Accounting
import TinyProxy.System.Shared

/-!
# Meters and access log of the running server

A request that is being proxied holds its two guards.  They are dropped when it
is answered, and also when its connection ends before: then the access log has
an entry without a status, which is written as 500, and nothing is counted.
-/

set_option autoImplicit false

namespace TinyProxy

open Rust Http Linearization

/-! ## The guards of a step -/

/-- The guards of a request that is dropped at an `await`, before or after the end of directive
processing. -/
def interruptedGuards (world : World) (config : Config) (remoteAddr : SocketAddr) (isTls : Bool)
    (incoming : Request) (directivesRun : Bool) : Guards :=
  let (initialRequestId, req) := ensureRequestId (world.uuids 0) incoming
  let guards :=
    Guards.new initialRequestId remoteAddr req.method req.uri.path (requestHost req)
  if directivesRun then guards.setRequestId (loggedId world config remoteAddr isTls incoming)
  else guards

/-- How many guards a step of a session makes, and those that it drops. -/
def Activity.guards (codec : Codec) (activity : Activity) : SessionEvent → Nat × List Guards
  | .receive _ => (0, [])
  | .touch =>
      match activity with
      | .received _ (.proxied ..) => (1, [])
      | _ => (0, [])
  | .finish =>
      match activity with
      | .proxying _ world remoteAddr isTls incoming snapshot =>
          (0, ((proxyAccounted codec.parser world snapshot remoteAddr isTls incoming).map
            Exit.guards).toList)
      | _ => (0, [])

/-- The session ends where it stands. -/
def Activity.interrupted (directivesRun : Bool) : Activity → Nat × List Guards
  | .proxying _ world remoteAddr isTls incoming snapshot =>
      (0, [interruptedGuards world snapshot remoteAddr isTls incoming directivesRun])
  | _ => (0, [])

def System.guards (codec : Codec) (s : System) (directivesRun : Bool) :
    SystemEvent → Nat × List Guards
  | .session index event =>
      ((s.live[index]?).map fun entry => entry.1.activity.guards codec event).getD (0, [])
  | .complete index =>
      ((s.live[index]?).map fun entry => entry.1.activity.interrupted directivesRun).getD (0, [])
  | .client index event =>
      ((s.clients[index]?).map fun session => session.activity.guards codec event).getD (0, [])
  | .disconnect index =>
      ((s.clients[index]?).map fun session =>
        session.activity.interrupted directivesRun).getD (0, [])
  | _ => (0, [])

/-! ## The server with its meters -/

structure Observed where
  system : System
  activeRequests : Int
  requestsTotal : List CountedRequest
  accessLog : List AccessLogGuard

/-- With the event, whether a request that it interrupts has its directives behind it. -/
def Observed.step (codec : Codec) (o : Observed) (event : SystemEvent × Bool) : Option Observed :=
  (o.system.step codec event.1).map fun system =>
    let (made, dropped) := o.system.guards codec event.2 event.1
    { system
      activeRequests := o.activeRequests + made - dropped.length
      requestsTotal := o.requestsTotal ++ dropped.flatMap Guards.counted
      accessLog := o.accessLog ++ dropped.map Guards.log }

def Started.observed (started : Started) (config : Config) (maxConcurrency : Nat) : Observed :=
  ⟨started.system config maxConcurrency, 0, [], []⟩

/-! ## What has happened -/

def Activity.isProxying : Activity → Bool
  | .proxying .. => true
  | _ => false

/-- The requests behind `load_full` that have not been answered. -/
def System.inFlight (s : System) : Nat := s.activities.countP Activity.isProxying

def beginsProxying : Label CellCall CellAnswer → Bool
  | .effect _ (.proxied ..) _ => true
  | _ => false

def Cell.begun (cell : Cell) : Nat := cell.trace.countP beginsProxying

def outcomeOf : Label CellCall CellAnswer → Option Outcome
  | .respond _ (.proxied outcome) => outcome
  | _ => none

/-- The outcomes of the requests that have been answered, in this order. -/
def Cell.outcomes (cell : Cell) : List Outcome := cell.trace.filterMap outcomeOf

/-- A step makes and drops guards as requests begin and end. -/
structure System.Books (s next : System) (made : Nat) (dropped : List Guards)
    (outcomes : List Outcome) : Prop where
  inFlight : next.inFlight + dropped.length = s.inFlight + made
  begun : next.cell.begun = s.cell.begun + made
  answered : next.cell.outcomes = s.cell.outcomes ++ outcomes
  counted : dropped.flatMap Guards.counted = outcomes.flatMap Outcome.counted
  told : ∀ guards ∈ dropped,
    guards.counted.map CountedRequest.status = guards.log.status.toList

/-- Only calls that are not proxied are answered at once. -/
def Activity.answersProxied : Activity → Bool
  | .answering _ (.proxied _) => true
  | _ => false

/-! ## One session -/

section Session
variable {codec : Codec} {cell next : Cell} {session moved : Session} {event : SessionEvent}

theorem begun_record (cell : Cell) (label : Label CellCall CellAnswer) :
    (cell.record label).begun = cell.begun + (beginsProxying label).toNat := by
  rw [Cell.begun, Cell.record, List.countP_append, List.countP_singleton]
  cases beginsProxying label <;> rfl

theorem outcomes_record (cell : Cell) (label : Label CellCall CellAnswer) :
    (cell.record label).outcomes = cell.outcomes ++ (outcomeOf label).toList := by
  rw [Cell.outcomes, Cell.record, List.filterMap_append]
  cases told : outcomeOf label <;> simp [Cell.outcomes, told]

/-- The counter is told the status that the log entry has, if it has one. -/
theorem outcome_told {parser : UriParser} {world : World} {config : Config}
    {remoteAddr : SocketAddr} {isTls : Bool} {incoming : Request} {outcome : Outcome}
    (run : proxy parser world config remoteAddr isTls incoming = some outcome) :
    outcome.exit.guards.counted.map CountedRequest.status =
      outcome.exit.guards.log.status.toList := by
  obtain ⟨sent, response, rfl⟩ := proxy_concludes run
  cases response with
  | error e => rfl
  | ok r => rfl

/-- The books of one session. -/
structure SessionBooks (before after : Activity) (cell next : Cell) (made : Nat)
    (dropped : List Guards) (outcomes : List Outcome) : Prop where
  inFlight : after.isProxying.toNat + dropped.length = before.isProxying.toNat + made
  begun : next.begun = cell.begun + made
  answered : next.outcomes = cell.outcomes ++ outcomes
  counted : dropped.flatMap Guards.counted = outcomes.flatMap Outcome.counted
  told : ∀ guards ∈ dropped,
    guards.counted.map CountedRequest.status = guards.log.status.toList
  plain : after.answersProxied = false

theorem afterAnswer_plain (answer : CellAnswer) :
    (afterAnswer answer).isProxying = false ∧ (afterAnswer answer).answersProxied = false := by
  unfold afterAnswer
  split
  · exact ⟨rfl, rfl⟩
  · exact ⟨rfl, rfl⟩

theorem touch_books (id : Nat) (call : CellCall) :
    ∃ outcomes, SessionBooks (.received id call) (touchCell codec cell id call).1 cell
      (touchCell codec cell id call).2 ((Activity.received id call).guards codec .touch).1
      ((Activity.received id call).guards codec .touch).2 outcomes := by
  have answered : ∀ (config : Config) answer,
      ({ cell with config }.record (.effect id call answer)).outcomes = cell.outcomes ++ [] :=
    fun _ _ => outcomes_record _ _
  have begun : ∀ (config : Config) answer,
      ({ cell with config }.record (.effect id call answer)).begun =
        cell.begun + (beginsProxying (.effect id call answer)).toNat :=
    fun _ _ => begun_record _ _
  cases call with
  | proxied => exact ⟨[], rfl, begun _ _, answered _ _, rfl, by simp [Activity.guards], rfl⟩
  | redirected => exact ⟨[], rfl, begun _ _, answered _ _, rfl, by simp [Activity.guards], rfl⟩
  | api => exact ⟨[], rfl, begun _ _, answered _ _, rfl, by simp [Activity.guards], rfl⟩
  | updateConfig => exact ⟨[], rfl, begun _ _, answered _ _, rfl, by simp [Activity.guards], rfl⟩
  | configSnapshot => exact ⟨[], rfl, begun _ _, answered _ _, rfl, by simp [Activity.guards], rfl⟩

theorem finish_books {id : Nat} {world : World} {remoteAddr : SocketAddr} {isTls : Bool}
    {incoming : Request} {snapshot : Config} {outcome : Outcome}
    (served : proxy codec.parser world snapshot remoteAddr isTls incoming = some outcome) :
    SessionBooks (.proxying id world remoteAddr isTls incoming snapshot)
      (afterAnswer (.proxied (some outcome))) cell
      (cell.record (.respond id (.proxied (some outcome))))
      ((Activity.proxying id world remoteAddr isTls incoming snapshot).guards codec .finish).1
      ((Activity.proxying id world remoteAddr isTls incoming snapshot).guards codec .finish).2
      [outcome] := by
  have exits : (Activity.proxying id world remoteAddr isTls incoming snapshot).guards codec
      .finish = (0, [outcome.exit.guards]) := by
    rw [Activity.guards, proxyAccounted_eq, served]
    rfl
  obtain ⟨notProxying, plain⟩ := afterAnswer_plain (.proxied (some outcome))
  rw [exits]
  refine ⟨?_, begun_record _ _, outcomes_record _ _, ?_, ?_, plain⟩
  · rw [notProxying]
    rfl
  · rw [List.flatMap_singleton, List.flatMap_singleton]
    rfl
  · intro guards member
    obtain rfl := List.mem_singleton.mp member
    exact outcome_told served

theorem session_books (plain : session.activity.answersProxied = false)
    (step : session.step codec cell event = some (moved, next)) :
    ∃ outcomes, SessionBooks session.activity moved.activity cell next
      (session.activity.guards codec event).1 (session.activity.guards codec event).2
      outcomes := by
  obtain ⟨progress, offered, later⟩ := Option.bind_eq_some_iff.mp step
  obtain ⟨⟨after, cell'⟩, advances, same⟩ := Option.bind_eq_some_iff.mp later
  cases same
  cases event with
  | receive offer =>
      obtain ⟨call, _, rfl⟩ := Option.map_eq_some_iff.mp offered
      cases activity : session.activity with
      | idle =>
          rw [activity] at advances
          obtain ⟨rfl, rfl⟩ := Prod.mk.inj (Option.some.inj advances)
          exact ⟨[], rfl, begun_record _ _, outcomes_record _ _, rfl, by simp [Activity.guards],
            rfl⟩
      | received => rw [activity] at advances; cases advances
      | proxying => rw [activity] at advances; cases advances
      | answering => rw [activity] at advances; cases advances
      | ended => rw [activity] at advances; cases advances
  | touch =>
      obtain rfl := Option.some.inj offered
      cases activity : session.activity with
      | received id call =>
          rw [activity] at advances
          obtain ⟨rfl, rfl⟩ := Prod.mk.inj (Option.some.inj advances)
          exact touch_books id call
      | idle => rw [activity] at advances; cases advances
      | proxying => rw [activity] at advances; cases advances
      | answering => rw [activity] at advances; cases advances
      | ended => rw [activity] at advances; cases advances
  | finish =>
      obtain rfl := Option.some.inj offered
      cases activity : session.activity with
      | proxying =>
          rw [activity] at advances
          obtain ⟨outcome, served, same⟩ := Option.map_eq_some_iff.mp advances
          cases same
          exact ⟨[outcome], finish_books served⟩
      | answering id answer =>
          rw [activity] at advances plain
          obtain ⟨rfl, rfl⟩ := Prod.mk.inj (Option.some.inj advances)
          obtain ⟨notProxying, notAnswering⟩ := afterAnswer_plain answer
          have silent : outcomeOf (.respond id answer) = none := by
            cases answer with
            | proxied => cases plain
            | redirected => rfl
            | api => rfl
            | updated => rfl
            | snapshot => rfl
          have answered := outcomes_record cell (.respond id answer)
          rw [silent] at answered
          refine ⟨[], ?_, begun_record _ _, answered, rfl, by simp [Activity.guards], notAnswering⟩
          rw [notProxying]
          rfl
      | idle => rw [activity] at advances; cases advances
      | received => rw [activity] at advances; cases advances
      | ended => rw [activity] at advances; cases advances

end Session

/-! ## The machine -/

/-- What the meters and the log show of the requests. -/
structure Booked (o : Observed) : Prop where
  active : o.activeRequests = o.system.inFlight
  logged : o.accessLog.length + o.system.inFlight = o.system.cell.begun
  counted : o.requestsTotal = o.system.cell.outcomes.flatMap Outcome.counted
  told : o.requestsTotal.map CountedRequest.status =
    o.accessLog.filterMap AccessLogGuard.status
  plain : ∀ activity ∈ o.system.activities, activity.answersProxied = false

section Machine
variable {codec : Codec} {s next : System}

theorem flatMap_told {dropped : List Guards} (told : ∀ guards ∈ dropped,
    guards.counted.map CountedRequest.status = guards.log.status.toList) :
    (dropped.flatMap Guards.counted).map CountedRequest.status =
      (dropped.map Guards.log).filterMap AccessLogGuard.status := by
  induction dropped with
  | nil => rfl
  | cons guards rest ih =>
      obtain ⟨first, later⟩ := List.forall_mem_cons.mp told
      rw [List.flatMap_cons, List.map_append, first, ih later, List.map_cons]
      cases status : guards.log.status <;> simp [status]

theorem inFlight_perm {activity : Activity} {rest : List Activity}
    (same : s.activities.Perm (activity :: rest)) :
    s.inFlight = rest.countP Activity.isProxying + activity.isProxying.toNat := by
  rw [System.inFlight, same.countP_eq, List.countP_cons]
  cases activity.isProxying <;> rfl

/-- One session moves on, and the others stay where they are. -/
theorem books_of_session {before after : Activity} {rest : List Activity} {made : Nat}
    {dropped : List Guards} {outcomes : List Outcome}
    (here : s.activities.Perm (before :: rest)) (there : next.activities.Perm (after :: rest))
    (books : SessionBooks before after s.cell next.cell made dropped outcomes) :
    s.Books next made dropped outcomes := by
  obtain ⟨inFlight, begun, answered, counted, told, _⟩ := books
  refine ⟨?_, begun, answered, counted, told⟩
  rw [inFlight_perm here, inFlight_perm there]
  omega

theorem interrupted_other {activity : Activity} (other : activity.isProxying = false)
    (directivesRun : Bool) : activity.interrupted directivesRun = (0, []) := by
  cases activity with
  | proxying => cases other
  | idle => rfl
  | received => rfl
  | answering => rfl
  | ended => rfl

/-- A session that ends where it stands drops the guards it has, and nothing is counted. -/
theorem books_of_interrupted {activity : Activity} {directivesRun : Bool}
    (here : s.activities.Perm (activity :: next.activities)) (cell : next.cell = s.cell) :
    s.Books next (activity.interrupted directivesRun).1 (activity.interrupted directivesRun).2
      [] := by
  have inFlight := inFlight_perm here
  have begun : next.cell.begun = s.cell.begun + 0 := congrArg Cell.begun cell
  have answered : next.cell.outcomes = s.cell.outcomes ++ [] := by rw [cell, List.append_nil]
  cases proxying : activity.isProxying with
  | false =>
      rw [proxying] at inFlight
      rw [interrupted_other proxying]
      exact ⟨inFlight.symm, begun, answered, rfl, by simp⟩
  | true =>
      cases activity with
      | proxying =>
          refine ⟨inFlight.symm, begun, answered, ?_, ?_⟩
          · cases directivesRun <;> rfl
          · intro guards member
            obtain rfl := List.mem_singleton.mp member
            cases directivesRun <;> rfl
      | idle => cases proxying
      | received => cases proxying
      | answering => cases proxying
      | ended => cases proxying

theorem books_of_idle {idle : List Activity} (areIdle : ∀ activity ∈ idle, activity = .idle)
    (there : next.activities.Perm (idle ++ s.activities)) (cell : next.cell = s.cell) :
    s.Books next 0 [] [] := by
  refine ⟨?_, congrArg _ cell, by simp [cell], rfl, by simp⟩
  have noneProxying : idle.countP Activity.isProxying = 0 := by
    rw [List.countP_eq_zero]
    intro activity member proxying
    rw [areIdle activity member] at proxying
    cases proxying
  rw [System.inFlight, System.inFlight, there.countP_eq, List.countP_append, noneProxying,
    Nat.zero_add]
  rfl

/-- One lemma for the sessions of both lists. -/
theorem session_moves {session moved : Session} {event : SessionEvent} {rest : List Activity}
    (plain : ∀ activity ∈ s.activities, activity.answersProxied = false)
    (here : s.activities.Perm (session.activity :: rest))
    (there : next.activities.Perm (moved.activity :: rest))
    (step : session.step codec s.cell event = some (moved, next.cell)) :
    (∃ outcomes, s.Books next (session.activity.guards codec event).1
      (session.activity.guards codec event).2 outcomes) ∧
      ∀ activity ∈ next.activities, activity.answersProxied = false := by
  have isHere := plain _ (here.mem_iff.mpr (List.mem_cons_self ..))
  obtain ⟨outcomes, books⟩ := session_books isHere step
  refine ⟨⟨outcomes, books_of_session here there books⟩, fun activity member => ?_⟩
  rcases List.mem_cons.mp (there.mem_iff.mp member) with rfl | before
  · exact books.plain
  · exact plain _ (here.mem_iff.mpr (List.mem_cons_of_mem _ before))

theorem system_books {event : SystemEvent} {directivesRun : Bool}
    (plain : ∀ activity ∈ s.activities, activity.answersProxied = false)
    (step : s.step codec event = some next) :
    (∃ outcomes, s.Books next (s.guards codec directivesRun event).1
      (s.guards codec directivesRun event).2 outcomes) ∧
      ∀ activity ∈ next.activities, activity.answersProxied = false := by
  cases event with
  | loop index event remoteAddr =>
      obtain ⟨⟨loop, state⟩, _, later⟩ := Option.bind_eq_some_iff.mp step
      obtain ⟨⟨newState, left, spawned⟩, _, same⟩ := Option.bind_eq_some_iff.mp later
      obtain rfl := Option.some.inj same
      have there : System.activities { s with
          available := left
          loops := s.loops.set index (loop, newState)
          live := spawned.toList.map
            (fun task => (⟨.accepted loop remoteAddr, .idle⟩, task)) ++ s.live } =
          spawned.toList.map (fun _ => .idle) ++ s.activities := by
        simp [System.activities, Function.comp_def]
      refine ⟨⟨[], books_of_idle (by simp) (.of_eq there) rfl⟩, fun activity member => ?_⟩
      rw [there] at member
      rcases List.mem_append.mp member with new | before
      · obtain ⟨_, _, rfl⟩ := List.mem_map.mp new
        rfl
      · exact plain activity before
  | session index event =>
      obtain ⟨⟨session, task⟩, here, later⟩ := Option.bind_eq_some_iff.mp step
      obtain ⟨⟨moved, cell⟩, moves, same⟩ := Option.bind_eq_some_iff.mp later
      obtain rfl := Option.some.inj same
      obtain ⟨perm, permSet⟩ := perm_of_getElem? here
      have found : s.guards codec directivesRun (.session index event) =
          session.activity.guards codec event := by
        rw [System.guards, here]
        rfl
      rw [found]
      exact session_moves plain ((perm.map _).append_right _)
        (((permSet _).map _).append_right _) moves
  | complete index =>
      obtain ⟨⟨session, task⟩, here, same⟩ := Option.bind_eq_some_iff.mp step
      obtain rfl := Option.some.inj same
      have found : s.guards codec directivesRun (.complete index) =
          session.activity.interrupted directivesRun := by
        rw [System.guards, here]
        rfl
      have perm := (perm_of_getElem? here).1
      have remains : s.activities.Perm (session.activity :: System.activities { s with
          available := s.available + task.permit.toNat
          live := s.live.eraseIdx index }) := (perm.map _).append_right _
      rw [found]
      refine ⟨⟨[], books_of_interrupted remains rfl⟩, fun activity member => ?_⟩
      exact plain activity (remains.mem_iff.mpr (List.mem_cons_of_mem _ member))
  | connect toApi =>
      obtain rfl := Option.some.inj step
      let opened : System :=
        { s with clients := ⟨if toApi then .api else .application, .idle⟩ :: s.clients }
      have there : opened.activities.Perm ([.idle] ++ s.activities) := List.perm_middle
      refine ⟨⟨[], books_of_idle (by simp) there rfl⟩, fun activity member => ?_⟩
      rcases List.mem_cons.mp (there.mem_iff.mp member) with rfl | before
      · rfl
      · exact plain activity before
  | client index event =>
      obtain ⟨session, here, later⟩ := Option.bind_eq_some_iff.mp step
      obtain ⟨⟨moved, cell⟩, moves, same⟩ := Option.bind_eq_some_iff.mp later
      obtain rfl := Option.some.inj same
      obtain ⟨perm, permSet⟩ := perm_of_getElem? here
      have found : s.guards codec directivesRun (.client index event) =
          session.activity.guards codec event := by
        rw [System.guards, here]
        rfl
      rw [found]
      exact session_moves plain (((perm.map _).append_left _).trans List.perm_middle)
        ((((permSet _).map _).append_left _).trans List.perm_middle) moves
  | disconnect index =>
      obtain ⟨inRange, same⟩ := Option.ite_none_right_eq_some.mp step
      obtain rfl := Option.some.inj same
      have here := List.getElem?_eq_getElem inRange
      have found : s.guards codec directivesRun (.disconnect index) =
          s.clients[index].activity.interrupted directivesRun := by
        rw [System.guards, here]
        rfl
      have perm := (perm_of_getElem? here).1
      have remains : s.activities.Perm (s.clients[index].activity :: System.activities { s with
          clients := s.clients.eraseIdx index }) :=
        ((perm.map _).append_left _).trans List.perm_middle
      rw [found]
      refine ⟨⟨[], books_of_interrupted remains rfl⟩, fun activity member => ?_⟩
      exact plain activity (remains.mem_iff.mpr (List.mem_cons_of_mem _ member))

theorem booked_step {o after : Observed} {event : SystemEvent × Bool} (booked : Booked o)
    (step : o.step codec event = some after) : Booked after := by
  obtain ⟨next, moves, rfl⟩ := Option.map_eq_some_iff.mp step
  obtain ⟨active, logged, total, statuses, plain⟩ := booked
  obtain ⟨⟨outcomes, inFlight, begun, answered, counted, told⟩, plain⟩ :=
    @system_books codec _ _ _ event.2 plain moves
  refine ⟨?_, ?_, ?_, ?_, plain⟩
  · dsimp only
    rw [active]
    omega
  · dsimp only
    rw [List.length_append, List.length_map]
    omega
  · dsimp only
    rw [total, answered, List.flatMap_append, counted]
  · dsimp only
    rw [List.map_append, List.filterMap_append, statuses, flatMap_told told]

theorem unfinished_length (logs : List AccessLogGuard) :
    logs.countP (fun log => log.status.isNone) +
      (logs.filterMap AccessLogGuard.status).length = logs.length := by
  induction logs with
  | nil => rfl
  | cons log rest ih =>
      rw [List.countP_cons, List.length_cons]
      cases status : log.status with
      | none => simp [status]; omega
      | some value => simp [status]; omega

/-- The gauge is the number of requests in flight.  Every other request that was begun has one
log entry; those with a status are the counted ones, and the others, interrupted or ended in an
error, are logged as 500 and not counted. -/
theorem bookkeeping_run {started : Started} {start : Config} {maxConcurrency : Nat}
    {events : List (SystemEvent × Bool)} {o : Observed}
    (reached : Transition.run (Observed.step codec) (started.observed start maxConcurrency)
      events = some o) :
    o.activeRequests = o.system.inFlight ∧
      o.accessLog.length + o.system.inFlight = o.system.cell.begun ∧
      o.requestsTotal = o.system.cell.outcomes.flatMap Outcome.counted ∧
      o.requestsTotal.map CountedRequest.status = o.accessLog.filterMap AccessLogGuard.status ∧
      o.accessLog.countP (fun log => log.status.isNone) + o.requestsTotal.length +
        o.system.inFlight = o.system.cell.begun := by
  have booked : Booked o := by
    refine Transition.run_invariant (fun _ _ _ => booked_step) ?_ reached
    exact ⟨rfl, rfl, rfl, rfl, fun _ member => absurd member List.not_mem_nil⟩
  obtain ⟨active, logged, counted, told, _⟩ := booked
  refine ⟨active, logged, counted, told, ?_⟩
  have unfinished := unfinished_length o.accessLog
  have finished := congrArg List.length told
  rw [List.length_map] at finished
  omega

end Machine

/-! ## A client that goes away -/

/-- The connection ends while the request is being proxied. -/
def interruptedRequest : List (SystemEvent × Bool) :=
  [(.loop 0 .accept exampleAddr, false), (.loop 0 .tryAcquire exampleAddr, false),
    (.loop 0 .spawn exampleAddr, false),
    (.session 0 (.receive (.request quietWorld exampleRequest)), false),
    (.session 0 .touch, false), (.complete 0, false)]

theorem bookkeeping_run_interrupted : ∃ o,
    Transition.run (Observed.step plainCodec) (plainStarted.observed ⟨∅⟩ 1) interruptedRequest =
      some o ∧
    o.accessLog.map AccessLogGuard.loggedStatus = [500] ∧ o.requestsTotal = [] ∧
    o.activeRequests = 0 := by
  have ran : ∃ o, Transition.run (Observed.step plainCodec) (plainStarted.observed ⟨∅⟩ 1)
      interruptedRequest = some o ∧
      o.accessLog.map AccessLogGuard.loggedStatus = [500] ∧ o.requestsTotal = [] ∧
      o.system.inFlight = 0 :=
    ⟨_, rfl, rfl, rfl, rfl⟩
  obtain ⟨o, reached, logged, counted, quiet⟩ := ran
  refine ⟨o, reached, logged, counted, ?_⟩
  rw [(bookkeeping_run reached).1, quiet]
  rfl

end TinyProxy
