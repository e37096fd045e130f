import TinyProxy.Api.Server
import TinyProxy.Data.Linearization
import TinyProxy.Proxy.Concurrency
import TinyProxy.Proxy.Redirect

/-!
# The running server

The accept loops, the connections they have spawned, the connections to the API
server and the threads of an embedding application take turns in any order.
They share the semaphore and one cell with the configuration.  A connection
serves one request at a time; a proxied one reads the cell once, before
anything else, and is served from that snapshot.
-/

set_option autoImplicit false

namespace TinyProxy

open Rust Http Linearization

/-! ## Calls on the configuration cell -/

/-- What a client asks for.  `world` is what a proxied request is going to find. -/
inductive CellCall where
  | proxied (world : World) (remoteAddr : SocketAddr) (isTls : Bool) (incoming : Request)
  | redirected (tlsPort : UInt16) (incoming : Request)
  | api (request : ApiRequest)
  | updateConfig (config : Config)
  | configSnapshot

inductive CellAnswer where
  | proxied (outcome : Option Outcome)
  | redirected (response : Except Str Response)
  | api (response : Response)
  | updated
  | snapshot (config : Config)

/-- What a server uses to read and to write configurations. -/
structure Codec where
  json : SerdeJson
  parser : UriParser
  display : Uri → Str

/-- The answer to a call that is alone, and the configuration after it. -/
def CellCall.alone (codec : Codec) : CellCall → Config → CellAnswer × Config
  | .proxied world remoteAddr isTls incoming, stored =>
      (.proxied (proxy codec.parser world stored remoteAddr isTls incoming), stored)
  | .redirected tlsPort incoming, stored =>
      (.redirected (redirectService tlsPort incoming), stored)
  | .api request, stored =>
      let (response, config) :=
        handleApiRequest codec.json codec.parser codec.display request stored
      (.api response, config)
  | .updateConfig config, _ => (.updated, config)
  | .configSnapshot, stored => (.snapshot stored, stored)

/-- The cell, and the calls that have been made on it. -/
structure Cell where
  config : Config
  issued : Nat
  trace : List (Label CellCall CellAnswer)

def Cell.record (cell : Cell) (label : Label CellCall CellAnswer) : Cell :=
  { cell with trace := cell.trace ++ [label] }

/-! ## Sessions -/

/-- Where the service of a connection stands. -/
inductive Activity where
  | idle
  | received (id : Nat) (call : CellCall)
  /-- Behind `load_full`. -/
  | proxying (id : Nat) (world : World) (remoteAddr : SocketAddr) (isTls : Bool)
      (incoming : Request) (snapshot : Config)
  | answering (id : Nat) (answer : CellAnswer)
  /-- No further request is read. -/
  | ended

/-- Hyper keeps a connection open after a response of the proxy and of the API server. -/
def CellAnswer.keepsAlive : CellAnswer → Bool
  | .proxied (some outcome) => outcome.response.toOption.isSome
  | .proxied none => false
  | .redirected _ => false
  | _ => true

def afterAnswer (answer : CellAnswer) : Activity := if answer.keepsAlive then .idle else .ended

inductive Progress where
  | receive (call : CellCall)
  | touch
  | finish

section Step
variable (codec : Codec)

/-- The one access to the cell. -/
def touchCell (cell : Cell) (id : Nat) (call : CellCall) : Activity × Cell :=
  let (answer, config) := call.alone codec cell.config
  let touched := { cell with config }.record (.effect id call answer)
  match call with
  | .proxied world remoteAddr isTls incoming =>
      (.proxying id world remoteAddr isTls incoming cell.config, touched)
  | _ => (.answering id answer, touched)

def Activity.step (cell : Cell) : Activity → Progress → Option (Activity × Cell)
  | .idle, .receive call =>
      some (.received cell.issued call,
        { cell with issued := cell.issued + 1 }.record (.invoke cell.issued call))
  | .received id call, .touch => some (touchCell codec cell id call)
  | .proxying id world remoteAddr isTls incoming snapshot, .finish =>
      (proxy codec.parser world snapshot remoteAddr isTls incoming).map fun outcome =>
        (afterAnswer (.proxied (some outcome)),
          cell.record (.respond id (.proxied (some outcome))))
  | .answering id answer, .finish => some (afterAnswer answer, cell.record (.respond id answer))
  | _, _ => none

/-- Who is at the other end of a session. -/
inductive Origin where
  | accepted (loop : AcceptLoop) (remoteAddr : SocketAddr)
  | api
  | application

/-- What arrives there. -/
inductive Offer where
  | request (world : World) (incoming : Request)
  | api (request : ApiRequest)
  | updateConfig (config : Config)
  | configSnapshot

def Origin.call : Origin → Offer → Option CellCall
  | .accepted (.listener (.http _)) remoteAddr, .request world incoming =>
      some (.proxied world remoteAddr false incoming)
  | .accepted (.listener (.https _ _)) remoteAddr, .request world incoming =>
      some (.proxied world remoteAddr true incoming)
  | .accepted (.redirect (_, tlsPort)) _, .request _ incoming =>
      some (.redirected tlsPort incoming)
  | .api, .api request => some (.api request)
  | .application, .updateConfig config => some (.updateConfig config)
  | .application, .configSnapshot => some .configSnapshot
  | _, _ => none

structure Session where
  origin : Origin
  activity : Activity

inductive SessionEvent where
  | receive (offer : Offer)
  | touch
  | finish

def Session.progress (session : Session) : SessionEvent → Option Progress
  | .receive offer => (session.origin.call offer).map .receive
  | .touch => some .touch
  | .finish => some .finish

def Session.step (cell : Cell) (session : Session) (event : SessionEvent) :
    Option (Session × Cell) := do
  let progress ← session.progress event
  let (activity, cell) ← session.activity.step codec cell progress
  some ({ session with activity }, cell)

/-! ## The machine -/

/-- `live` are the tasks of the accept loops; `clients` need no permit. -/
structure System where
  cell : Cell
  available : Nat
  loops : List (AcceptLoop × LoopState)
  live : List (Session × ConnectionTask)
  clients : List Session

inductive SystemEvent where
  /-- `remoteAddr` is what `accept` has returned, if a task is spawned. -/
  | loop (index : Nat) (event : LoopEvent) (remoteAddr : SocketAddr)
  | session (index : Nat) (event : SessionEvent)
  | complete (index : Nat)
  | connect (toApi : Bool)
  | client (index : Nat) (event : SessionEvent)
  | disconnect (index : Nat)

/-- A task may end at any time; what it was doing is dropped. -/
def System.step (s : System) : SystemEvent → Option System
  | .loop index event remoteAddr => do
      let (loop, state) ← s.loops[index]?
      let (next, available, spawned) ← loop.step s.available state event
      some { s with
        available
        loops := s.loops.set index (loop, next)
        live := spawned.toList.map (fun task => (⟨.accepted loop remoteAddr, .idle⟩, task)) ++
          s.live }
  | .session index event => do
      let (session, task) ← s.live[index]?
      let (session, cell) ← session.step codec s.cell event
      some { s with cell, live := s.live.set index (session, task) }
  | .complete index => do
      let (_, task) ← s.live[index]?
      some { s with
        available := s.available + task.permit.toNat
        live := s.live.eraseIdx index }
  | .connect toApi =>
      some { s with clients := ⟨if toApi then .api else .application, .idle⟩ :: s.clients }
  | .client index event => do
      let session ← s.clients[index]?
      let (session, cell) ← session.step codec s.cell event
      some { s with cell, clients := s.clients.set index session }
  | .disconnect index =>
      if index < s.clients.length then some { s with clients := s.clients.eraseIdx index }
      else none

/-- Before anything is accepted. -/
def Started.system (started : Started) (config : Config) (maxConcurrency : Nat) : System where
  cell := ⟨config, 0, []⟩
  available := maxConcurrency
  loops := (started.serve maxConcurrency).loops
  live := []
  clients := []

end Step

/-! ## Steps -/

section Cases
variable {codec : Codec}

/-- A session receives a call, takes it to the cell, or has its answer. -/
theorem Activity.step_cases {cell next : Cell} {before after : Activity} {progress : Progress}
    (step : before.step codec cell progress = some (after, next)) :
    (∃ call, before = .idle ∧ after = .received cell.issued call ∧
      next = { cell with issued := cell.issued + 1 }.record (.invoke cell.issued call)) ∨
    (∃ id call, before = .received id call ∧ (after, next) = touchCell codec cell id call) ∨
    ∃ id answer, after = afterAnswer answer ∧ next = cell.record (.respond id answer) ∧
      (before = .answering id answer ∨
        ∃ world remoteAddr isTls incoming snapshot outcome,
          before = .proxying id world remoteAddr isTls incoming snapshot ∧
          proxy codec.parser world snapshot remoteAddr isTls incoming = some outcome ∧
          answer = .proxied (some outcome)) := by
  cases before with
  | idle =>
      cases progress with
      | receive call =>
          cases step
          exact Or.inl ⟨call, rfl, rfl, rfl⟩
      | touch => cases step
      | finish => cases step
  | received id call =>
      cases progress with
      | receive => cases step
      | touch => exact Or.inr (Or.inl ⟨id, call, rfl, (Option.some.inj step).symm⟩)
      | finish => cases step
  | proxying id world remoteAddr isTls incoming snapshot =>
      cases progress with
      | receive => cases step
      | touch => cases step
      | finish =>
          obtain ⟨outcome, served, same⟩ := Option.map_eq_some_iff.mp step
          cases same
          exact Or.inr (Or.inr ⟨id, _, rfl, rfl, Or.inr
            ⟨world, remoteAddr, isTls, incoming, snapshot, outcome, rfl, served, rfl⟩⟩)
  | answering id answer =>
      cases progress with
      | receive => cases step
      | touch => cases step
      | finish =>
          cases step
          exact Or.inr (Or.inr ⟨id, answer, rfl, rfl, Or.inl rfl⟩)
  | ended => cases progress <;> cases step

def System.activities (s : System) : List Activity :=
  s.live.map (fun entry => entry.1.activity) ++ s.clients.map Session.activity

/-- A step of the machine moves one session on, or it leaves the cell alone and adds or drops
sessions. -/
theorem System.step_cases {s next : System} {event : SystemEvent}
    (step : s.step codec event = some next) :
    (∃ before after rest progress, s.activities.Perm (before :: rest) ∧
      next.activities.Perm (after :: rest) ∧
      before.step codec s.cell progress = some (after, next.cell)) ∨
    next.cell = s.cell ∧
      ∃ idle kept, next.activities.Perm (idle ++ kept) ∧ kept.Sublist s.activities ∧
        ∀ activity ∈ idle, activity = Activity.idle := by
  cases event with
  | loop index event remoteAddr =>
      obtain ⟨⟨loop, state⟩, _, later⟩ := Option.bind_eq_some_iff.mp step
      obtain ⟨⟨newState, left, spawned⟩, _, same⟩ := Option.bind_eq_some_iff.mp later
      obtain rfl := Option.some.inj same
      refine Or.inr ⟨rfl, spawned.toList.map fun _ => .idle, s.activities, ?_,
        List.Sublist.refl _, by simp⟩
      exact List.Perm.of_eq (by simp [System.activities, Function.comp_def])
  | session index event =>
      obtain ⟨⟨session, task⟩, here, later⟩ := Option.bind_eq_some_iff.mp step
      obtain ⟨⟨moved, cell⟩, moves, same⟩ := Option.bind_eq_some_iff.mp later
      obtain rfl := Option.some.inj same
      obtain ⟨progress, _, later⟩ := Option.bind_eq_some_iff.mp moves
      obtain ⟨⟨activity, cell⟩, advances, same⟩ := Option.bind_eq_some_iff.mp later
      cases same
      obtain ⟨perm, permSet⟩ := perm_of_getElem? here
      refine Or.inl ⟨session.activity, activity, (s.live.eraseIdx index).map
        (fun entry => entry.1.activity) ++ s.clients.map Session.activity, progress, ?_, ?_,
        advances⟩
      · exact (perm.map _).append_right _
      · exact ((permSet _).map _).append_right _
  | complete index =>
      obtain ⟨⟨session, task⟩, _, same⟩ := Option.bind_eq_some_iff.mp step
      obtain rfl := Option.some.inj same
      refine Or.inr ⟨rfl, [], _, List.Perm.refl _, ?_, by simp⟩
      exact ((List.eraseIdx_sublist _ _).map _).append_right _
  | connect toApi =>
      obtain rfl := Option.some.inj step
      refine Or.inr ⟨rfl, [.idle], s.activities, ?_, List.Sublist.refl _, by simp⟩
      exact List.perm_middle
  | client index event =>
      obtain ⟨session, here, later⟩ := Option.bind_eq_some_iff.mp step
      obtain ⟨⟨moved, cell⟩, moves, same⟩ := Option.bind_eq_some_iff.mp later
      obtain rfl := Option.some.inj same
      obtain ⟨progress, _, later⟩ := Option.bind_eq_some_iff.mp moves
      obtain ⟨⟨activity, cell⟩, advances, same⟩ := Option.bind_eq_some_iff.mp later
      cases same
      obtain ⟨perm, permSet⟩ := perm_of_getElem? here
      refine Or.inl ⟨session.activity, activity, s.live.map (fun entry => entry.1.activity) ++
        (s.clients.eraseIdx index).map Session.activity, progress, ?_, ?_, advances⟩
      · exact ((perm.map _).append_left _).trans List.perm_middle
      · exact (((permSet _).map _).append_left _).trans List.perm_middle
  | disconnect index =>
      rw [System.step] at step
      split at step
      · obtain rfl := Option.some.inj step
        refine Or.inr ⟨rfl, [], _, List.Perm.refl _, ?_, by simp⟩
        exact ((List.eraseIdx_sublist _ _).map _).append_left _
      · cases step

end Cases

end TinyProxy
