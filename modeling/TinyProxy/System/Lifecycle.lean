import TinyProxy.System.Shared

/-!
# From start to shutdown

The process with the API server: `run_with_api` spawns one task for each server
and waits for the end of one of them or for a signal, then for both tasks, at
most 30 seconds for each.  With an address, the proxy's task is an accept loop;
without one, it waits for the listeners that it has spawned.
-/

set_option autoImplicit false

namespace TinyProxy

open Rust Transition

/-! ## The process -/

inductive ServerTask where
  | api
  | proxy
deriving DecidableEq

/-- What a task returns. -/
inductive TaskExit where
  | ok
  | failed
deriving DecidableEq

/-- A handle gives the result of its task once. -/
inductive JoinHandle where
  | unread
  | spent
deriving DecidableEq

/-- A spawned task, and the handle on it that main holds. -/
structure SpawnedTask where
  exit : Option TaskExit
  handle : Option JoinHandle

/-- The branch that the `select!` of main has taken. -/
inductive Branch where
  | ended (server : ServerTask)
  | signal
deriving DecidableEq

inductive MainState where
  | selecting
  /-- In `timeout`, with the handle. -/
  | joining (server : ServerTask) (handle : JoinHandle)
  | returned
  | panicked
deriving DecidableEq

structure Process where
  system : System
  /-- There is an address, and the accept loop runs in the proxy's own task. -/
  inTask : Bool
  /-- What the start of the listeners has come to. -/
  startResult : Except Str Unit
  api : SpawnedTask
  proxy : SpawnedTask
  signalled : Bool
  /-- The shutdown message is sent. -/
  notified : Bool
  main : MainState
  selected : Option Branch
  aborted : Bool

def Process.task (p : Process) : ServerTask → SpawnedTask
  | .api => p.api
  | .proxy => p.proxy

def Process.setTask (p : Process) (task : SpawnedTask) : ServerTask → Process
  | .api => { p with api := task }
  | .proxy => { p with proxy := task }

/-- How `start` or `start_all` returns, if it does. -/
def Process.startExit (p : Process) : Option TaskExit :=
  match p.startResult with
  | .error _ => some .failed
  | .ok () =>
      if p.system.loops.all fun entry => entry.2 = .stopped then
        some (if p.inTask then .failed else .ok)
      else none

def LoopState.awaits (state : LoopState) : Bool := state = .accepting || state = .stopped

/-- The task is left at an `await`.  What it has spawned goes on. -/
def Process.cancelled (p : Process) : ServerTask → Option Process
  | .api => some p
  | .proxy =>
      if p.inTask then
        if p.system.loops.all fun entry => entry.2.awaits then
          some { p with system := { p.system with
            loops := p.system.loops.map fun entry => (entry.1, .stopped) } }
        else none
      else some p

/-! ## Steps -/

inductive ProcessEvent where
  | system (event : SystemEvent)
  | signal
  /-- `bind` or `accept` of the API server fails. -/
  | apiFails
  | startReturns
  /-- The task takes the shutdown message. -/
  | shutsDown (server : ServerTask)
  | select (branch : Branch)
  /-- Main reads the handle that it waits for. -/
  | joins
  | timesOut

/-- `handle.take().expect(..)`. -/
def Process.takeHandle (p : Process) (server : ServerTask) : Process :=
  match (p.task server).handle with
  | none => { p with main := .panicked }
  | some handle =>
      { p.setTask { p.task server with handle := none } server with
        main := .joining server handle }

/-- Main goes on behind the wait for a server. -/
def Process.joined (p : Process) : ServerTask → Process
  | .api => p.takeHandle .proxy
  | .proxy => { p with main := .returned }

/-- The end of a branch of `select!`. -/
def Process.leaveSelect (p : Process) (branch : Branch) : Process :=
  { p with notified := true, selected := some branch }.takeHandle .api

def Process.exitWith (p : Process) (server : ServerTask) (exit : TaskExit) : Option Process :=
  if (p.task server).exit = none then
    some (p.setTask { p.task server with exit := some exit } server)
  else none

/-- The result of a task is read through main's handle. -/
def Process.readHandle (p : Process) (server : ServerTask) : Process :=
  p.setTask { p.task server with handle := some .spent } server

/-- Reading a handle whose result has been read panics. -/
def Process.select (p : Process) : Branch → Option Process
  | .signal => if p.signalled then some (p.leaveSelect .signal) else none
  | .ended server =>
      match (p.task server).exit, (p.task server).handle with
      | some _, some .unread => some ((p.readHandle server).leaveSelect (.ended server))
      | none, some _ => none
      | _, _ => some { p with main := .panicked }

/-- The event needs the listener of the API server. -/
def SystemEvent.needsApi : SystemEvent → Bool
  | .connect toApi => toApi
  | _ => false

section Step
variable (codec : Codec)

def Process.step (p : Process) : ProcessEvent → Option Process
  | .system event =>
      -- the listener is gone with the task
      if event.needsApi && p.api.exit.isSome then none
      else (p.system.step codec event).map fun system => { p with system }
  | .signal => some { p with signalled := true }
  | .apiFails => p.exitWith .api .failed
  | .startReturns => p.startExit.bind (p.exitWith .proxy)
  | .shutsDown server =>
      if p.notified then (p.cancelled server).bind fun left => left.exitWith server .ok else none
  | .select branch => if p.main = .selecting then p.select branch else none
  | .joins =>
      match p.main with
      | .joining server handle =>
          if (p.task server).exit = none then none
          else if handle = .unread then some (p.joined server)
          else some { p with main := .panicked }
      | _ => none
  | .timesOut =>
      match p.main with
      | .joining server _ =>
          if (p.task server).exit = none then
            some ({ p with aborted := p.aborted || (p.task server).handle.isSome }.joined server)
          else none
      | _ => none

end Step

/-- What `run_proxy_server` starts. -/
def runProxyServer (buildTlsAcceptor : List TlsEntry → Except Str Unit)
    (walk : List (SocketAddr × List SiteConfig) → List (SocketAddr × List SiteConfig))
    (config : Config) : Option Str → Started
  | none => startAll buildTlsAcceptor walk config
  | some addr =>
      match parseSocketAddr addr with
      | none => ⟨[], [], .error "invalid socket address syntax".toList⟩
      | some addr =>
          match startWithAddr buildTlsAcceptor config addr with
          | .error e => ⟨[], [], .error e⟩
          | .ok listener => ⟨[listener], [], .ok ()⟩

/-- `run_with_api` at its `select!`. -/
def runWithApi (buildTlsAcceptor : List TlsEntry → Except Str Unit)
    (walk : List (SocketAddr × List SiteConfig) → List (SocketAddr × List SiteConfig))
    (config : Config) (addr : Option Str) (maxConcurrency : Nat) : Process where
  system := (runProxyServer buildTlsAcceptor walk config addr).system config maxConcurrency
  inTask := addr.isSome
  startResult := (runProxyServer buildTlsAcceptor walk config addr).result
  api := ⟨none, some .unread⟩
  proxy := ⟨none, some .unread⟩
  signalled := false
  notified := false
  main := .selecting
  selected := none
  aborted := false

/-! ## Where main stands -/

/-- A handle is spent once main has left its `select!` through it. -/
def handleAfter (selected : Option Branch) (server : ServerTask) : JoinHandle :=
  if selected = some (.ended server) then .spent else .unread

def Process.Placed (p : Process) : Prop :=
  match p.main with
  | .selecting =>
      p.selected = none ∧ p.api.handle = some .unread ∧ p.proxy.handle = some .unread
  | .joining .api handle =>
      p.selected ≠ none ∧ handle = handleAfter p.selected .api ∧ p.api.handle = none ∧
        p.proxy.handle = some (handleAfter p.selected .proxy)
  | .joining .proxy handle =>
      p.selected ≠ none ∧ p.selected ≠ some (.ended .api) ∧
        handle = handleAfter p.selected .proxy ∧ p.proxy.handle = none
  | .returned => p.selected = some .signal
  | .panicked => ∃ server, p.selected = some (.ended server)

structure Process.Coherent (p : Process) : Prop where
  placed : p.Placed
  notAborted : p.aborted = false
  ended : ∀ server, p.selected = some (.ended server) → (p.task server).exit ≠ none
  signalled : p.selected = some .signal → p.signalled = true

section Placed
variable {codec : Codec} {p next : Process} {server : ServerTask}

theorem exitWith_cases {exit : TaskExit} (step : p.exitWith server exit = some next) :
    (p.task server).exit = none ∧
      next = p.setTask { p.task server with exit := some exit } server := by
  rw [Process.exitWith] at step
  split at step
  · next running => exact ⟨running, (Option.some.inj step).symm⟩
  · cases step

theorem exit_kept (api : next.api.exit = p.api.exit) (proxy : next.proxy.exit = p.proxy.exit)
    (server : ServerTask) : (next.task server).exit = (p.task server).exit := by
  cases server with
  | api => exact api
  | proxy => exact proxy

theorem Process.Coherent.withSystem (coherent : p.Coherent) (system : System) :
    ({ p with system } : Process).Coherent := by
  refine ⟨coherent.placed, coherent.notAborted, fun server isSelected => ?_, coherent.signalled⟩
  exact Eq.trans_ne (@exit_kept p _ rfl rfl server) (coherent.ended server isSelected)

theorem cancelled_cases (step : p.cancelled server = some next) :
    ∃ system, next = { p with system } := by
  cases server with
  | api => exact ⟨p.system, (Option.some.inj step).symm⟩
  | proxy =>
      rw [Process.cancelled] at step
      split at step
      · split at step
        · exact ⟨_, (Option.some.inj step).symm⟩
        · cases step
      · exact ⟨p.system, (Option.some.inj step).symm⟩

/-- The end of a task moves nothing else. -/
theorem Process.Coherent.exitWith {exit : TaskExit} (coherent : p.Coherent)
    (step : p.exitWith server exit = some next) : next.Coherent := by
  obtain ⟨_, rfl⟩ := exitWith_cases step
  obtain ⟨placed, notAborted, ended, signalled⟩ := coherent
  cases server with
  | api =>
      refine ⟨placed, notAborted, fun other isSelected => ?_, signalled⟩
      cases other with
      | api => exact Option.some_ne_none _
      | proxy => exact ended .proxy isSelected
  | proxy =>
      refine ⟨placed, notAborted, fun other isSelected => ?_, signalled⟩
      cases other with
      | api => exact ended .api isSelected
      | proxy => exact Option.some_ne_none _

theorem leaveSelect_eq {branch : Branch} {handle : JoinHandle}
    (held : p.api.handle = some handle) :
    p.leaveSelect branch = { p with
      api := { p.api with handle := none }
      notified := true
      selected := some branch
      main := .joining .api handle } := by
  rw [Process.leaveSelect, Process.takeHandle, Process.task, held]
  rfl

theorem joined_api {handle : JoinHandle} (held : p.proxy.handle = some handle) :
    p.joined .api = { p with
      proxy := { p.proxy with handle := none }
      main := .joining .proxy handle } := by
  rw [Process.joined, Process.takeHandle, Process.task, held]
  rfl

theorem Process.Coherent.select {branch : Branch} (coherent : p.Coherent)
    (selecting : p.main = .selecting) (step : p.select branch = some next) : next.Coherent := by
  obtain ⟨placed, notAborted, ended, signalled⟩ := coherent
  rw [Process.Placed, selecting] at placed
  obtain ⟨unselected, apiUnread, proxyUnread⟩ := placed
  cases branch with
  | signal =>
      rw [Process.select, Option.ite_none_right_eq_some, leaveSelect_eq apiUnread] at step
      obtain ⟨arrived, same⟩ := step
      obtain rfl := Option.some.inj same
      refine ⟨⟨Option.some_ne_none _, rfl, rfl, proxyUnread⟩, notAborted, ?_, fun _ => arrived⟩
      intro server isSelected
      cases isSelected
  | ended server =>
      have unread : (p.task server).handle = some .unread := by
        cases server with
        | api => exact apiUnread
        | proxy => exact proxyUnread
      rw [Process.select, unread] at step
      cases exited : (p.task server).exit with
      | none =>
          rw [exited] at step
          cases step
      | some exit =>
          rw [exited] at step
          obtain rfl := Option.some.inj step
          have exits : ∀ other, some (Branch.ended server) = some (.ended other) →
              (p.task other).exit ≠ none := by
            rintro other ⟨⟩ missing
            cases exited.symm.trans missing
          have noSignal : some (Branch.ended server) = some .signal → p.signalled = true := by
            intro isSignal
            cases isSignal
          cases server with
          | api =>
              have held : (p.readHandle .api).api.handle = some .spent := rfl
              rw [leaveSelect_eq held]
              refine ⟨⟨Option.some_ne_none _, rfl, rfl, proxyUnread⟩, notAborted, ?_, noSignal⟩
              intro other isSelected
              cases isSelected
              exact exits .api rfl
          | proxy =>
              have held : (p.readHandle .proxy).api.handle = some .unread := apiUnread
              rw [leaveSelect_eq held]
              refine ⟨⟨Option.some_ne_none _, rfl, rfl, rfl⟩, notAborted, ?_, noSignal⟩
              intro other isSelected
              cases isSelected
              exact exits .proxy rfl

/-- What main has read or waited for leads it to the next wait. -/
theorem Process.Coherent.joined {handle : JoinHandle} (coherent : p.Coherent)
    (joining : p.main = .joining server handle) (unread : handle = .unread) :
    (p.joined server).Coherent := by
  obtain ⟨placed, notAborted, ended, signalled⟩ := coherent
  rw [Process.Placed, joining] at placed
  cases server with
  | api =>
      obtain ⟨isSelected, isHandle, _, held⟩ := placed
      rw [joined_api held]
      have notApi : p.selected ≠ some (.ended .api) := by
        intro isApi
        rw [unread, handleAfter, if_pos isApi] at isHandle
        cases isHandle
      refine ⟨⟨isSelected, notApi, rfl, rfl⟩, notAborted, fun other isOther => ?_, signalled⟩
      refine Eq.trans_ne (exit_kept ?_ ?_ other) (ended other isOther)
      · rfl
      · rfl
  | proxy =>
      obtain ⟨isSelected, notApi, isHandle, _⟩ := placed
      refine ⟨?_, notAborted, ended, signalled⟩
      change p.selected = some .signal
      cases selected : p.selected with
      | none => exact absurd selected isSelected
      | some branch =>
          cases branch with
          | signal => rfl
          | ended other =>
              cases other with
              | api => exact absurd selected notApi
              | proxy =>
                  rw [unread, handleAfter, if_pos selected] at isHandle
                  cases isHandle

/-- A spent handle belongs to the task that main has left its `select!` through. -/
theorem Process.Coherent.spent (coherent : p.Coherent)
    (joining : p.main = .joining server .spent) : p.selected = some (.ended server) := by
  have placed := coherent.placed
  rw [Process.Placed, joining] at placed
  have isHandle : JoinHandle.spent = handleAfter p.selected server := by
    cases server with
    | api => exact placed.2.1
    | proxy => exact placed.2.2.1
  by_contra other
  rw [handleAfter, if_neg other] at isHandle
  cases isHandle

/-- Main gave its handle away when it began to wait, so there is nothing to abort. -/
theorem Process.Coherent.notHeld {handle : JoinHandle} (coherent : p.Coherent)
    (joining : p.main = .joining server handle) : (p.task server).handle = none := by
  have placed := coherent.placed
  rw [Process.Placed, joining] at placed
  cases server with
  | api => exact placed.2.2.1
  | proxy => exact placed.2.2.2

theorem Process.Coherent.step {event : ProcessEvent} (coherent : p.Coherent)
    (step : p.step codec event = some next) : next.Coherent := by
  obtain ⟨placed, notAborted, ended, signalled⟩ := id coherent
  cases event with
  | system event =>
      rw [Process.step] at step
      split at step
      · cases step
      · obtain ⟨system, _, rfl⟩ := Option.map_eq_some_iff.mp step
        exact coherent.withSystem system
  | signal =>
      obtain rfl := Option.some.inj step
      refine ⟨placed, notAborted, fun server isSelected => ?_, fun _ => rfl⟩
      exact Eq.trans_ne (@exit_kept p _ rfl rfl server) (ended server isSelected)
  | apiFails => exact coherent.exitWith step
  | startReturns =>
      obtain ⟨exit, _, exits⟩ := Option.bind_eq_some_iff.mp step
      exact coherent.exitWith exits
  | shutsDown server =>
      obtain ⟨_, leaves⟩ := Option.ite_none_right_eq_some.mp step
      obtain ⟨left, cancels, exits⟩ := Option.bind_eq_some_iff.mp leaves
      obtain ⟨system, rfl⟩ := cancelled_cases cancels
      exact (coherent.withSystem system).exitWith exits
  | select branch =>
      obtain ⟨selecting, selects⟩ := Option.ite_none_right_eq_some.mp step
      exact coherent.select selecting selects
  | joins =>
      rw [Process.step] at step
      split at step
      next server handle joining =>
        split at step
        · cases step
        next exited =>
          split at step
          next unread =>
            obtain rfl := Option.some.inj step
            exact coherent.joined joining unread
          next isSpent =>
            obtain rfl := Option.some.inj step
            have spent : handle = .spent := by
              cases handle with
              | unread => exact absurd rfl isSpent
              | spent => rfl
            refine ⟨⟨server, coherent.spent (spent ▸ joining)⟩, notAborted, ?_, signalled⟩
            intro other isOther
            exact Eq.trans_ne (@exit_kept p _ rfl rfl other) (ended other isOther)
      next => cases step
  | timesOut =>
      rw [Process.step] at step
      split at step
      next server handle joining =>
        split at step
        next running =>
          obtain rfl := Option.some.inj step
          rw [coherent.notHeld joining, Option.isSome_none, Bool.or_false]
          cases handle with
          | unread => exact coherent.joined joining rfl
          | spent => exact absurd running (ended server (coherent.spent joining))
        · cases step
      next => cases step

end Placed

/-! ## Steps ahead -/

/-- A step of main or of one of the two tasks. -/
def ProcessEvent.own : ProcessEvent → Bool
  | .system _ => false
  | .signal => false
  | _ => true

def MainState.ahead : MainState → Nat
  | .selecting => 3
  | .joining .api _ => 2
  | .joining .proxy _ => 1
  | .returned => 0
  | .panicked => 0

def SpawnedTask.ahead (task : SpawnedTask) : Nat := if task.exit = none then 1 else 0

def Process.ahead (p : Process) : Nat := p.main.ahead + p.api.ahead + p.proxy.ahead

section Ahead
variable {codec : Codec} {p next : Process} {server : ServerTask}

theorem takeHandle_ahead : (p.takeHandle server).ahead ≤
    (MainState.joining server .unread).ahead + p.api.ahead + p.proxy.ahead := by
  rw [Process.takeHandle]
  split
  · simp [Process.ahead, MainState.ahead]
  · cases server with
    | api => exact Nat.le_refl _
    | proxy => exact Nat.le_refl _

theorem exitWith_ahead {exit : TaskExit} (step : p.exitWith server exit = some next) :
    next.ahead + 1 = p.ahead := by
  obtain ⟨running, rfl⟩ := exitWith_cases step
  cases server with
  | api =>
      have one : p.api.ahead = 1 := if_pos running
      rw [Process.ahead, Process.ahead, one]
      change p.main.ahead + 0 + p.proxy.ahead + 1 = _
      omega
  | proxy =>
      have one : p.proxy.ahead = 1 := if_pos running
      rw [Process.ahead, Process.ahead, one]
      change p.main.ahead + p.api.ahead + 0 + 1 = _
      omega

theorem joined_ahead {handle : JoinHandle} (joining : p.main = .joining server handle) :
    (p.joined server).ahead + 1 ≤ p.ahead := by
  cases server with
  | api =>
      have taken := @takeHandle_ahead p .proxy
      have two : p.ahead = 2 + p.api.ahead + p.proxy.ahead := by
        rw [Process.ahead, joining]
        rfl
      rw [Process.joined]
      simp only [MainState.ahead] at taken
      omega
  | proxy =>
      have one : p.main.ahead = 1 := by rw [joining]; rfl
      rw [Process.ahead, Process.ahead, one]
      change 0 + p.api.ahead + p.proxy.ahead + 1 ≤ _
      omega

theorem panicked_ahead {handle : JoinHandle} (joining : p.main = .joining server handle) :
    ({ p with main := .panicked } : Process).ahead + 1 ≤ p.ahead := by
  have some_ : 1 ≤ p.main.ahead := by
    rw [joining]
    cases server with
    | api => exact Nat.le_succ 1
    | proxy => exact Nat.le_refl 1
  rw [Process.ahead, Process.ahead]
  change 0 + p.api.ahead + p.proxy.ahead + 1 ≤ _
  omega

theorem select_ahead {branch : Branch} (selecting : p.main = .selecting)
    (step : p.select branch = some next) : next.ahead + 1 ≤ p.ahead := by
  have three : p.ahead = 3 + p.api.ahead + p.proxy.ahead := by
    rw [Process.ahead, selecting]
    rfl
  have leaves : ∀ (q : Process) branch, q.api.ahead = p.api.ahead → q.proxy.ahead = p.proxy.ahead →
      (q.leaveSelect branch).ahead + 1 ≤ p.ahead := by
    intro q branch sameApi sameProxy
    have taken := @takeHandle_ahead { q with notified := true, selected := some branch } .api
    rw [Process.leaveSelect]
    simp only [MainState.ahead] at taken
    omega
  cases branch with
  | signal =>
      obtain ⟨_, same⟩ := Option.ite_none_right_eq_some.mp step
      obtain rfl := Option.some.inj same
      exact leaves p _ rfl rfl
  | ended server =>
      rw [Process.select] at step
      split at step
      · obtain rfl := Option.some.inj step
        cases server with
        | api => exact leaves _ _ rfl rfl
        | proxy => exact leaves _ _ rfl rfl
      · cases step
      · obtain rfl := Option.some.inj step
        change 0 + p.api.ahead + p.proxy.ahead + 1 ≤ _
        omega

theorem Process.step_ahead {event : ProcessEvent} (step : p.step codec event = some next) :
    next.ahead + event.own.toNat ≤ p.ahead := by
  cases event with
  | system event =>
      rw [Process.step] at step
      split at step
      · cases step
      · obtain ⟨system, _, rfl⟩ := Option.map_eq_some_iff.mp step
        exact Nat.le_refl _
  | signal =>
      obtain rfl := Option.some.inj step
      exact Nat.le_refl _
  | apiFails => exact (exitWith_ahead step).le
  | startReturns =>
      obtain ⟨exit, _, exits⟩ := Option.bind_eq_some_iff.mp step
      exact (exitWith_ahead exits).le
  | shutsDown server =>
      obtain ⟨_, leaves⟩ := Option.ite_none_right_eq_some.mp step
      obtain ⟨left, cancels, exits⟩ := Option.bind_eq_some_iff.mp leaves
      obtain ⟨system, rfl⟩ := cancelled_cases cancels
      exact (exitWith_ahead exits).le
  | select branch =>
      obtain ⟨selecting, selects⟩ := Option.ite_none_right_eq_some.mp step
      exact select_ahead selecting selects
  | joins =>
      rw [Process.step] at step
      split at step
      next server handle joining =>
        split at step
        · cases step
        · split at step
          · obtain rfl := Option.some.inj step
            exact joined_ahead joining
          · obtain rfl := Option.some.inj step
            exact panicked_ahead joining
      next => cases step
  | timesOut =>
      rw [Process.step] at step
      split at step
      next server handle joining =>
        split at step
        · obtain rfl := Option.some.inj step
          exact @joined_ahead { p with aborted := _ } _ _ joining
        · cases step
      next => cases step

end Ahead

/-! ## Every run -/

/-- No end in sight: both servers run, one of the listeners at least. -/
def Process.Waits (p : Process) : Prop :=
  p.main = .selecting ∧ p.signalled = false ∧ p.api.exit = none ∧ p.proxy.exit = none ∧
    p.startResult = .ok () ∧ ∃ entry ∈ p.system.loops, entry.2 ≠ .stopped

section Runs
variable {codec : Codec} {p : Process} {server : ServerTask}

theorem startExit_eq_none (running : p.startExit = none) :
    p.startResult = .ok () ∧ ∃ entry ∈ p.system.loops, entry.2 ≠ .stopped := by
  rw [Process.startExit] at running
  cases result : p.startResult with
  | error e =>
      rw [result] at running
      cases running
  | ok =>
      rw [result] at running
      dsimp only at running
      split at running
      · cases running
      next notAll =>
        refine ⟨rfl, ?_⟩
        simpa using notAll

theorem select_ended (exited : (p.task server).exit ≠ none)
    (unread : (p.task server).handle = some .unread) :
    (p.select (.ended server)).isSome = true := by
  obtain ⟨exit, exited⟩ := Option.ne_none_iff_exists'.mp exited
  rw [Process.select, exited, unread]
  rfl

/-- Main goes on, or it waits for a signal. -/
theorem Process.Coherent.progress (codec : Codec) (coherent : p.Coherent) :
    p.main = .returned ∨ p.main = .panicked ∨ p.Waits ∨
      ∃ event, event.own = true ∧ (p.step codec event).isSome = true := by
  have placed := coherent.placed
  rw [Process.Placed] at placed
  cases main : p.main with
  | returned => exact Or.inl rfl
  | panicked => exact Or.inr (Or.inl rfl)
  | joining server handle =>
      refine Or.inr (Or.inr (Or.inr ?_))
      by_cases running : (p.task server).exit = none
      · refine ⟨.timesOut, rfl, ?_⟩
        simp [Process.step, main, running]
      · refine ⟨.joins, rfl, ?_⟩
        cases handle <;> simp [Process.step, main, running]
  | selecting =>
      rw [main] at placed
      obtain ⟨_, apiUnread, proxyUnread⟩ := placed
      have selects : ∀ branch, (p.select branch).isSome = true →
          ∃ event, ProcessEvent.own event = true ∧ (p.step codec event).isSome = true := by
        intro branch taken
        refine ⟨.select branch, rfl, ?_⟩
        rwa [Process.step, if_pos main]
      by_cases arrived : p.signalled = true
      · refine Or.inr (Or.inr (Or.inr (selects .signal ?_)))
        simp [Process.select, arrived]
      by_cases apiRuns : p.api.exit = none
      · by_cases proxyRuns : p.proxy.exit = none
        · cases returns : p.startExit with
          | none =>
              obtain ⟨result, listening⟩ := startExit_eq_none returns
              exact Or.inr (Or.inr (Or.inl ⟨main, Bool.not_eq_true _ ▸ arrived, apiRuns, proxyRuns,
                result, listening⟩))
          | some exit =>
              refine Or.inr (Or.inr (Or.inr ⟨.startReturns, rfl, ?_⟩))
              simp [Process.step, returns, Process.exitWith, Process.task, proxyRuns]
        · exact Or.inr (Or.inr (Or.inr (selects _ (@select_ended p .proxy proxyRuns proxyUnread))))
      · exact Or.inr (Or.inr (Or.inr (selects _ (@select_ended p .api apiRuns apiUnread))))

theorem coherent_start {buildTlsAcceptor : List TlsEntry → Except Str Unit}
    {walk : List (SocketAddr × List SiteConfig) → List (SocketAddr × List SiteConfig)}
    {config : Config} {addr : Option Str} {maxConcurrency : Nat} :
    (runWithApi buildTlsAcceptor walk config addr maxConcurrency).Coherent := by
  refine ⟨⟨rfl, rfl, rfl⟩, rfl, fun server isSelected => ?_, fun isSelected => ?_⟩
  · cases isSelected
  · cases isSelected

theorem run_ahead {events : List ProcessEvent} : ∀ {p final : Process},
    run (Process.step codec) p events = some final →
      final.ahead + events.countP ProcessEvent.own ≤ p.ahead := by
  induction events with
  | nil =>
      intro p final reached
      obtain rfl := Option.some.inj reached
      exact Nat.le_refl _
  | cons event rest ih =>
      intro p final reached
      obtain ⟨next, step, later⟩ := run_cons_eq_some reached
      have first := Process.step_ahead step
      have others := ih later
      rw [List.countP_cons]
      cases own : event.own with
      | false => simp only [own, Bool.toNat_false] at first; simp; omega
      | true => simp only [own, Bool.toNat_true] at first; simp; omega

/-- Main returns only if it has taken a signal.  A server that ends first makes it panic, in the
wait for the server whose result it has read; nothing is ever aborted. -/
theorem process_ends {buildTlsAcceptor : List TlsEntry → Except Str Unit}
    {walk : List (SocketAddr × List SiteConfig) → List (SocketAddr × List SiteConfig)}
    {config : Config} {addr : Option Str} {maxConcurrency : Nat} {events : List ProcessEvent}
    (reached : run (Process.step codec)
      (runWithApi buildTlsAcceptor walk config addr maxConcurrency) events = some p) :
    events.countP ProcessEvent.own ≤ 5 ∧ p.aborted = false ∧
      (p.main = .returned → p.selected = some .signal ∧ p.signalled = true) ∧
      (p.main = .panicked →
        ∃ server, p.selected = some (.ended server) ∧ (p.task server).exit ≠ none) ∧
      (p.main = .returned ∨ p.main = .panicked ∨ p.Waits ∨
        ∃ event, event.own = true ∧ (p.step codec event).isSome = true) := by
  have coherent : p.Coherent :=
    Transition.run_invariant (fun _ _ _ holds step => holds.step step)
      coherent_start reached
  have steps := run_ahead reached
  have five : (runWithApi buildTlsAcceptor walk config addr maxConcurrency).ahead = 5 := rfl
  refine ⟨by omega, coherent.notAborted, fun returned => ?_, fun panicked => ?_,
    coherent.progress codec⟩
  · have placed := coherent.placed
    rw [Process.Placed, returned] at placed
    exact ⟨placed, coherent.signalled placed⟩
  · have placed := coherent.placed
    rw [Process.Placed, panicked] at placed
    obtain ⟨server, isSelected⟩ := placed
    exact ⟨server, isSelected, coherent.ended server isSelected⟩

end Runs

/-! ## No sites -/

def unconfiguredEvents : List ProcessEvent :=
  [.startReturns, .select (.ended .proxy), .shutsDown .api, .joins, .joins]

/-- Without sites the process panics although nothing has failed. -/
theorem process_ends_unconfigured :
    ∃ p, run (Process.step plainCodec)
        (runWithApi (fun _ => .ok ()) id ⟨∅⟩ none 1) unconfiguredEvents = some p ∧
      p.main = .panicked ∧ p.proxy.exit = some .ok ∧ p.api.exit = some .ok ∧
      p.aborted = false := by
  have ran : ∃ p, run (Process.step plainCodec)
        (runWithApi (fun _ => .ok ()) id ⟨∅⟩ none 1) unconfiguredEvents = some p ∧
      p.main = .panicked ∧ p.proxy.exit = some .ok ∧ p.api.exit = some .ok :=
    ⟨_, rfl, rfl, rfl, rfl⟩
  obtain ⟨p, reached, panicked, proxyExit, apiExit⟩ := ran
  exact ⟨p, reached, panicked, proxyExit, apiExit, (process_ends reached).2.1⟩

end TinyProxy
