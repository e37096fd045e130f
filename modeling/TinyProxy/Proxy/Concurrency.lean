import TinyProxy.Data.Transition
import TinyProxy.Proxy.Sockets

/-!
# The connection limit

All listeners of a proxy share one semaphore.  An accept loop, the tasks it
spawns and the other loops take turns in any order.  The loop of the redirect
server spawns its tasks without a permit.
-/

set_option autoImplicit false

namespace TinyProxy

open Rust Transition

/-! ## Accept loops -/

/-- Where an accept loop stands. -/
inductive LoopState where
  | accepting
  | accepted
  | permitted
  | stopped
deriving DecidableEq

inductive LoopEvent where
  | accept
  | tryAcquire
  | spawn
  /-- `bind` or `accept` fails. -/
  | fail
deriving DecidableEq

/-- A spawned task: whether it holds a permit until it ends. -/
structure ConnectionTask where
  permit : Bool
deriving DecidableEq

/-- What an event makes of a loop and of the free permits, and the task it spawns. -/
def acceptLoop (limited : Bool) (available : Nat) :
    LoopState → LoopEvent → Option (LoopState × Nat × Option ConnectionTask)
  | .accepting, .accept => some (.accepted, available, none)
  | .accepting, .fail => some (.stopped, available, none)
  | .accepted, .tryAcquire =>
      if limited then
        if 0 < available then some (.permitted, available - 1, none)
        else some (.accepting, available, none)
      else none
  | .permitted, .spawn => some (.accepting, available, some ⟨true⟩)
  | .accepted, .spawn =>
      if limited then none else some (.accepting, available, some ⟨false⟩)
  | _, _ => none

def runHttpLoop := acceptLoop true

def listenTls := acceptLoop true

def listenHttpRedirect := acceptLoop false

inductive AcceptLoop where
  | listener (listener : Listener)
  | redirect (redirect : SocketAddr × UInt16)

def AcceptLoop.step : AcceptLoop → Nat → LoopState → LoopEvent →
    Option (LoopState × Nat × Option ConnectionTask)
  | .listener (.http _) => runHttpLoop
  | .listener (.https _ _) => listenTls
  | .redirect _ => listenHttpRedirect

def AcceptLoop.limited : AcceptLoop → Bool
  | .listener _ => true
  | .redirect _ => false

theorem AcceptLoop.step_eq (loop : AcceptLoop) : loop.step = acceptLoop loop.limited := by
  cases loop with
  | listener listener => cases listener <;> rfl
  | redirect => rfl

def LoopState.permits (state : LoopState) : Nat := if state = .permitted then 1 else 0

/-- No permit is lost or made, and a limited loop spawns no task without one. -/
theorem acceptLoop_permits {limited : Bool} {available left : Nat} {state next : LoopState}
    {event : LoopEvent} {spawned : Option ConnectionTask}
    (step : acceptLoop limited available state event = some (next, left, spawned)) :
    left + next.permits + spawned.toList.countP ConnectionTask.permit =
        available + state.permits ∧
      (limited = true → ∀ task ∈ spawned.toList, task.permit = true) := by
  unfold acceptLoop at step
  split at step
  case h_3 =>
    split at step
    · split at step
      next free =>
        cases step
        exact ⟨by simp [LoopState.permits]; omega, by simp⟩
      next =>
        cases step
        exact ⟨rfl, by simp⟩
    · cases step
  case h_5 =>
    split at step
    · cases step
    next unlimited =>
      cases step
      exact ⟨rfl, fun isLimited => absurd isLimited unlimited⟩
  case h_6 => cases step
  all_goals
    cases step
    exact ⟨rfl, by simp⟩

/-! ## The proxy -/

/-- The semaphore, the accept loops and the live connection tasks. -/
structure Server where
  available : Nat
  loops : List (AcceptLoop × LoopState)
  live : List ConnectionTask

inductive ServerEvent where
  | loop (index : Nat) (event : LoopEvent)
  | complete (index : Nat)

/-- A task that ends gives its permit back. -/
def Server.step (s : Server) : ServerEvent → Option Server
  | .loop index event => do
      let (loop, state) ← s.loops[index]?
      let (next, available, spawned) ← loop.step s.available state event
      some ⟨available, s.loops.set index (loop, next), spawned.toList ++ s.live⟩
  | .complete index => do
      let task ← s.live[index]?
      some ⟨s.available + task.permit.toNat, s.loops, s.live.eraseIdx index⟩

/-- What `startAll` has spawned, before anything is accepted. -/
def Started.serve (started : Started) (maxConcurrency : Nat) : Server :=
  ⟨maxConcurrency, (started.listeners.map AcceptLoop.listener ++
    started.redirects.map AcceptLoop.redirect).map fun loop => (loop, .accepting), []⟩

section Steps
variable {s next : Server} {event : ServerEvent}

/-- A step is taken by one loop, or ends one task. -/
theorem Server.step_cases (step : s.step event = some next) :
    (∃ index loop state loopEvent newState left spawned,
      s.loops[index]? = some (loop, state) ∧
      acceptLoop loop.limited s.available state loopEvent = some (newState, left, spawned) ∧
      next = ⟨left, s.loops.set index (loop, newState), spawned.toList ++ s.live⟩) ∨
    ∃ index task, s.live[index]? = some task ∧
      next = ⟨s.available + task.permit.toNat, s.loops, s.live.eraseIdx index⟩ := by
  cases event with
  | loop index event =>
      obtain ⟨⟨loop, state⟩, here, later⟩ := Option.bind_eq_some_iff.mp step
      obtain ⟨⟨newState, left, spawned⟩, taken, same⟩ := Option.bind_eq_some_iff.mp later
      rw [AcceptLoop.step_eq] at taken
      exact Or.inl ⟨index, loop, state, event, newState, left, spawned, here, taken,
        (Option.some.inj same).symm⟩
  | complete index =>
      obtain ⟨task, here, same⟩ := Option.bind_eq_some_iff.mp step
      exact Or.inr ⟨index, task, here, (Option.some.inj same).symm⟩

/-! ## Permits -/

def holdsPermit (entry : AcceptLoop × LoopState) : Bool := entry.2 = .permitted

/-- The permits that are not free: of tasks, and of loops about to spawn one. -/
def Server.held (s : Server) : Nat :=
  s.loops.countP holdsPermit + s.live.countP ConnectionTask.permit

theorem perm_of_getElem? {α : Type} {xs : List α} {index : Nat} {x : α}
    (here : xs[index]? = some x) :
    xs.Perm (x :: xs.eraseIdx index) ∧ ∀ y, (xs.set index y).Perm (y :: xs.eraseIdx index) := by
  obtain ⟨inRange, rfl⟩ := List.getElem?_eq_some_iff.mp here
  exact ⟨(List.getElem_cons_eraseIdx_perm inRange).symm, List.set_perm_cons_eraseIdx inRange⟩

theorem countP_holdsPermit (loop : AcceptLoop) (state : LoopState)
    (rest : List (AcceptLoop × LoopState)) :
    ((loop, state) :: rest).countP holdsPermit = rest.countP holdsPermit + state.permits := by
  rw [List.countP_cons]
  cases state <;> rfl

theorem countP_permit (task : ConnectionTask) (rest : List ConnectionTask) :
    (task :: rest).countP ConnectionTask.permit =
      rest.countP ConnectionTask.permit + task.permit.toNat := by
  rw [List.countP_cons]
  cases task.permit <;> rfl

theorem Server.step_balanced {maxConcurrency : Nat} (balanced : s.available + s.held = maxConcurrency)
    (step : s.step event = some next) : next.available + next.held = maxConcurrency := by
  rcases Server.step_cases step with
    ⟨index, loop, state, loopEvent, newState, left, spawned, here, taken, rfl⟩ |
      ⟨index, task, here, rfl⟩
  · obtain ⟨before, after⟩ := perm_of_getElem? here
    have loops := before.countP_eq holdsPermit
    have loops' := (after (loop, newState)).countP_eq holdsPermit
    rw [countP_holdsPermit] at loops loops'
    obtain ⟨kept, _⟩ := acceptLoop_permits taken
    unfold Server.held at balanced ⊢
    dsimp only
    rw [loops', List.countP_append]
    omega
  · obtain ⟨before, _⟩ := perm_of_getElem? here
    have live := before.countP_eq ConnectionTask.permit
    rw [countP_permit] at live
    unfold Server.held at balanced ⊢
    dsimp only
    omega

/-! ## Limited loops -/

/-- Every loop takes permits, and every task has one. -/
structure Server.AllLimited (s : Server) : Prop where
  loops : ∀ entry ∈ s.loops, entry.1.limited = true
  tasks : ∀ task ∈ s.live, task.permit = true

theorem Server.step_allLimited (limited : s.AllLimited) (step : s.step event = some next) :
    next.AllLimited := by
  rcases Server.step_cases step with
    ⟨index, loop, state, loopEvent, newState, left, spawned, here, taken, rfl⟩ |
      ⟨index, task, _, rfl⟩
  · obtain ⟨_, withPermit⟩ := acceptLoop_permits taken
    have isLimited := limited.loops _ (List.mem_of_getElem? here)
    constructor
    · intro entry member
      rcases List.mem_or_eq_of_mem_set member with before | rfl
      · exact limited.loops entry before
      · exact isLimited
    · intro task member
      rcases List.mem_append.mp member with new | before
      · exact withPermit isLimited task new
      · exact limited.tasks task before
  · exact ⟨limited.loops, fun other member => limited.tasks other (List.mem_of_mem_eraseIdx member)⟩

/-- The limit, and all permits back once no connection is left. -/
structure Server.Bounded (maxConcurrency : Nat) (s : Server) : Prop where
  live : s.live.length ≤ maxConcurrency
  restored : s.live = [] → (∀ entry ∈ s.loops, entry.2 ≠ .permitted) →
    s.available = maxConcurrency

theorem Server.bounded_of_balanced {maxConcurrency : Nat}
    (balanced : s.available + s.held = maxConcurrency) (limited : s.AllLimited) :
    s.Bounded maxConcurrency := by
  have tasks : s.live.countP ConnectionTask.permit = s.live.length :=
    List.countP_eq_length.mpr limited.tasks
  unfold Server.held at balanced
  constructor
  · omega
  · intro noTask noLoop
    have none_ : s.loops.countP holdsPermit = 0 := by
      rw [List.countP_eq_zero]
      intro entry member holds
      exact noLoop entry member (of_decide_eq_true holds)
    rw [noTask, none_, List.countP_nil] at balanced
    exact balanced

end Steps

section Serve
variable {started : Started} {maxConcurrency : Nat}

theorem serve_balanced : (started.serve maxConcurrency).available +
    (started.serve maxConcurrency).held = maxConcurrency := by
  have none_ : (started.serve maxConcurrency).loops.countP holdsPermit = 0 := by
    rw [List.countP_eq_zero]
    intro entry member holds
    obtain ⟨loop, _, rfl⟩ := List.mem_map.mp member
    cases holds
  rw [Server.held, none_]
  rfl

/-- Whatever is spawned, the permits add up. -/
theorem run_balanced {events : List ServerEvent} {s : Server}
    (reached : run Server.step (started.serve maxConcurrency) events = some s) :
    s.available + s.held = maxConcurrency :=
  Transition.run_invariant (fun _ _ _ => Server.step_balanced) serve_balanced reached

theorem run_bounded (noRedirect : started.redirects = []) {events : List ServerEvent} {s : Server}
    (reached : run Server.step (started.serve maxConcurrency) events = some s) :
    s.Bounded maxConcurrency := by
  have limited : (started.serve maxConcurrency).AllLimited := by
    constructor
    · intro entry member
      obtain ⟨loop, isLoop, rfl⟩ := List.mem_map.mp member
      rw [noRedirect, List.map_nil, List.append_nil] at isLoop
      obtain ⟨listener, _, rfl⟩ := List.mem_map.mp isLoop
      rfl
    · exact fun _ member => absurd member List.not_mem_nil
  exact Server.bounded_of_balanced (run_balanced reached)
    (Transition.run_invariant (fun _ _ _ => Server.step_allLimited) limited reached)

/-- With so many connections to the redirect server. -/
def crowded (s : Server) (count : Nat) : Server :=
  { s with live := List.replicate count ⟨false⟩ }

/-- The redirect server accepts one more connection and is ready for the next. -/
theorem redirect_accepts {s : Server} {index : Nat} {redirect : Rust.SocketAddr × UInt16}
    (here : s.loops[index]? = some (.redirect redirect, .accepting)) :
    run Server.step s [.loop index .accept, .loop index .spawn] =
      some { s with live := ⟨false⟩ :: s.live } := by
  obtain ⟨inRange, isHere⟩ := List.getElem?_eq_some_iff.mp here
  have accepted : s.step (.loop index .accept) =
      some { s with loops := s.loops.set index (.redirect redirect, .accepted) } := by
    rw [Server.step, here]
    rfl
  have there : (s.loops.set index (.redirect redirect, .accepted))[index]? =
      some (.redirect redirect, .accepted) := by
    rw [List.getElem?_set_self inRange]
  have same : s.loops.set index (.redirect redirect, .accepting) = s.loops := by
    rw [← isHere, List.set_getElem_self]
  have spawned : ({ s with loops := s.loops.set index (.redirect redirect, .accepted) } :
      Server).step (.loop index .spawn) = some ⟨s.available,
        (s.loops.set index (.redirect redirect, .accepted)).set index
          (.redirect redirect, .accepting), ⟨false⟩ :: s.live⟩ := by
    rw [Server.step]
    dsimp only
    rw [there]
    rfl
  rw [run, accepted, Option.bind_some, run, spawned, List.set_set, same]
  rfl

/-- The redirect server accepts any number of connections. -/
theorem redirect_unbounded (someRedirect : started.redirects ≠ []) (count : Nat) :
    ∃ events s, run Server.step (started.serve maxConcurrency) events = some s ∧
      s.live.length = count := by
  obtain ⟨redirect, member⟩ := List.exists_mem_of_ne_nil _ someRedirect
  have isLoop : (AcceptLoop.redirect redirect, LoopState.accepting) ∈
      (started.serve maxConcurrency).loops :=
    List.mem_map_of_mem (List.mem_append_right _ (List.mem_map_of_mem member))
  obtain ⟨index, here⟩ := List.getElem?_of_mem isLoop
  obtain ⟨events, reached⟩ := run_repeat
    (fun n => redirect_accepts (s := crowded (started.serve maxConcurrency) n) here) count
  exact ⟨events, _, reached, List.length_replicate⟩

end Serve

/-! ## Configurations -/

section Config
variable {config : Config} {buildTlsAcceptor : List TlsEntry → Except Str Unit}
variable {walk : List (SocketAddr × List SiteConfig) → List (SocketAddr × List SiteConfig)}

theorem resolves_of_groupSites : ∀ {rest : List SiteConfig} {groups final : SocketGroups},
    groupSites rest groups = .ok final →
      ∀ site ∈ rest, ∃ listenAddr, resolveListenAddr site.address = .ok listenAddr := by
  intro rest
  induction rest with
  | nil => exact fun _ _ member => absurd member List.not_mem_nil
  | cons site rest ih =>
      intro groups final grouped
      obtain ⟨listenAddr, resolved, later⟩ := bind_ok grouped
      exact List.forall_mem_cons.mpr ⟨⟨listenAddr, resolved⟩, ih later⟩

theorem resolves_of_served (served : (startAll buildTlsAcceptor walk config).result = .ok ()) :
    ∀ site ∈ config.values, ∃ listenAddr, resolveListenAddr site.address = .ok listenAddr := by
  cases grouped : groupSites config.values ∅ with
  | ok groups => exact resolves_of_groupSites grouped
  | error e =>
      rw [startAll, grouped] at served
      cases served

/-- Redirects are started exactly for the TLS sites. -/
theorem redirects_eq_nil_iff (order : ∀ groups, (walk groups).Perm groups)
    (served : (startAll buildTlsAcceptor walk config).result = .ok ()) :
    (startAll buildTlsAcceptor walk config).redirects = [] ↔
      ∀ site ∈ config.values, site.tls = none := by
  have resolves := resolves_of_served served
  obtain ⟨groups, grouped, _, result, redirects⟩ :=
    @startAll_groups config buildTlsAcceptor walk resolves order
  rcases redirects with ⟨ok, same⟩ | ⟨⟨e, failed⟩, _⟩
  · obtain ⟨_, _, all⟩ := @startGroups_spawned buildTlsAcceptor groups
    rw [same, List.eq_nil_iff_forall_not_mem]
    constructor
    · intro nothing site member
      by_contra isTls
      obtain ⟨listenAddr, resolved⟩ := resolves site member
      obtain ⟨group, isGroup, someTls, _⟩ := (tlsGroup_iff grouped).mpr
        ⟨site, member, Option.isSome_iff_ne_none.mpr isTls, listensOn_iff.mpr resolved⟩
      exact nothing _ (((all ok).2 _).mpr ⟨group, isGroup, someTls, rfl⟩)
    · intro plain redirect member
      obtain ⟨group, isGroup, someTls, _⟩ := ((all ok).2 redirect).mp member
      obtain ⟨site, inConfig, isTls, _⟩ :=
        (tlsGroup_iff grouped).mp ⟨group, isGroup, someTls, rfl⟩
      rw [plain site inConfig] at isTls
      cases isTls
  · rw [result, failed] at served
    cases served

/-- The limit holds in every run exactly when no site has TLS. -/
theorem connection_limit_iff (order : ∀ groups, (walk groups).Perm groups)
    (served : (startAll buildTlsAcceptor walk config).result = .ok ()) (maxConcurrency : Nat) :
    (∀ events s, run Server.step
        ((startAll buildTlsAcceptor walk config).serve maxConcurrency) events = some s →
      s.Bounded maxConcurrency) ↔ ∀ site ∈ config.values, site.tls = none := by
  rw [← redirects_eq_nil_iff order served]
  constructor
  · intro bounded
    by_contra someRedirect
    obtain ⟨events, s, reached, crowd⟩ := redirect_unbounded someRedirect (maxConcurrency + 1)
    have limit := (bounded events s reached).live
    omega
  · exact fun noRedirect _ _ => run_bounded noRedirect

end Config

/-! ## One site -/

theorem secured_served : (startAll loadingAcceptor id
    (singleSite (tlsSite "example.com:8443".toList))).result = .ok () := by rfl

/-- Two connections to the redirect server where one is allowed. -/
theorem redirect_over_limit :
    (startAll loadingAcceptor id (singleSite (tlsSite "example.com:8443".toList))).result =
        .ok () ∧
      ∃ events s, run Server.step ((startAll loadingAcceptor id
          (singleSite (tlsSite "example.com:8443".toList))).serve 1) events = some s ∧
        s.live.length = 2 ∧ ¬ s.Bounded 1 := by
  refine ⟨secured_served, [.loop 1 .accept, .loop 1 .spawn, .loop 1 .accept, .loop 1 .spawn],
    _, rfl, rfl, fun bounded => ?_⟩
  exact absurd bounded.live (by decide)

def plainSite : SiteConfig := ⟨"a:80".toList, [.respond 200 "ok".toList], none⟩

theorem connection_limit_iff_plain :
    (startAll loadingAcceptor id (singleSite plainSite)).listeners =
        [.http (.v4 .unspecified 80)] ∧
      ∀ events s, run Server.step
          ((startAll loadingAcceptor id (singleSite plainSite)).serve 100) events = some s →
        s.Bounded 100 := by
  have served : (startAll loadingAcceptor id (singleSite plainSite)).result = .ok () := by rfl
  refine ⟨rfl, (connection_limit_iff walk_id served 100).mpr fun site member => ?_⟩
  obtain rfl : site = plainSite := List.mem_singleton.mp member
  rfl

end TinyProxy
