import Mathlib.Logic.Relation
import TinyProxy.Auth.Termination
import TinyProxy.System.Limit

/-!
# Connections that a listener can still serve

A request whose placeholders expand forever stays in a loop without an `await`:
its task never ends, and its permit never comes back.  Every other task can end,
so a listener gets to its next connection as long as one permit is not lost.
-/

set_option autoImplicit false

namespace TinyProxy

open Rust Http Linearization Transition Relation

section Moves
variable (codec : Codec)

/-- No amount of rounds finishes the substitutions of the request. -/
def Activity.Hangs : Activity → Prop
  | .proxying _ world remoteAddr isTls incoming snapshot =>
      ∀ fuel, proxy codec.parser { world with fuel } snapshot remoteAddr isTls incoming = none
  | _ => False

def System.CanHappen (s : System) : SystemEvent → Prop
  | .complete index => ∀ entry ∈ s.live[index]?, ¬ entry.1.activity.Hangs codec
  | _ => True

/-- A step of the machine that ends no task that hangs. -/
def System.Moves (s next : System) : Prop :=
  ∃ event, s.CanHappen codec event ∧ s.step codec event = some next

open Classical in
noncomputable def System.hanging (s : System) : List (Session × ConnectionTask) :=
  s.live.filter fun entry => entry.1.activity.Hangs codec

variable {codec}

theorem Activity.Hangs.proxies {activity : Activity} (hangs : activity.Hangs codec) :
    activity.proxies = true := by
  cases activity with
  | proxying => rfl
  | idle => cases hangs
  | received => cases hangs
  | answering => cases hangs
  | ended => cases hangs

/-- A session that hangs takes no step. -/
theorem Activity.Hangs.stuck {activity after : Activity} {cell next : Cell} {progress : Progress}
    (hangs : activity.Hangs codec) : activity.step codec cell progress ≠ some (after, next) := by
  intro step
  rcases Activity.step_cases step with ⟨_, rfl, _⟩ | ⟨_, _, rfl, _⟩ | ⟨_, _, _, _, rfl |
    ⟨world, _, _, _, _, _, rfl, served, _⟩⟩
  · cases hangs
  · cases hangs
  · cases hangs
  · cases (hangs world.fuel).symm.trans served

theorem run_of_moves {s final : System} (reached : ReflTransGen (System.Moves codec) s final) :
    ∃ events, run (System.step codec) s events = some final := by
  induction reached with
  | refl => exact ⟨[], rfl⟩
  | tail _ moves ih =>
      obtain ⟨events, ran⟩ := ih
      obtain ⟨event, _, step⟩ := moves
      refine ⟨events ++ [event], ?_⟩
      rw [run_append, ran, Option.bind_some, run, step]
      rfl

theorem moves_of_run {events : List SystemEvent} : ∀ {s final : System},
    (∀ event ∈ events, ∀ index, event ≠ .complete index) →
      run (System.step codec) s events = some final →
        ReflTransGen (System.Moves codec) s final := by
  induction events with
  | nil =>
      intro s final _ reached
      obtain rfl := Option.some.inj reached
      exact .refl
  | cons event rest ih =>
      intro s final noEnd reached
      obtain ⟨next, step, later⟩ := run_cons_eq_some reached
      obtain ⟨notFirst, notLater⟩ := List.forall_mem_cons.mp noEnd
      refine .head ⟨event, ?_, step⟩ (ih notLater later)
      cases event with
      | complete index => exact absurd rfl (notFirst index)
      | loop => trivial
      | session => trivial
      | connect => trivial
      | client => trivial
      | disconnect => trivial

end Moves

/-! ## Steps of an accept loop -/

section Loops
variable {codec : Codec} {s next : System} {index : Nat} {loop : AcceptLoop}
variable {state newState : LoopState} {event : LoopEvent} {left : Nat}
variable {spawned : Option ConnectionTask}

theorem loop_step (remoteAddr : SocketAddr) (here : s.loops[index]? = some (loop, state))
    (taken : acceptLoop loop.limited s.available state event = some (newState, left, spawned)) :
    s.step codec (.loop index event remoteAddr) = some { s with
      available := left
      loops := s.loops.set index (loop, newState)
      live := spawned.toList.map (fun task => (⟨.accepted loop remoteAddr, .idle⟩, task)) ++
        s.live } := by
  rw [← AcceptLoop.step_eq] at taken
  rw [System.step, here, Option.bind_eq_bind, Option.bind_some]
  dsimp only
  rw [taken]
  rfl

theorem loop_moves (remoteAddr : SocketAddr) (here : s.loops[index]? = some (loop, state))
    (taken : acceptLoop loop.limited s.available state event = some (newState, left, spawned)) :
    s.Moves codec { s with
      available := left
      loops := s.loops.set index (loop, newState)
      live := spawned.toList.map (fun task => (⟨.accepted loop remoteAddr, .idle⟩, task)) ++
        s.live } :=
  ⟨.loop index event remoteAddr, trivial, loop_step remoteAddr here taken⟩

/-- The loop itself stays; only where it stands changes. -/
theorem loops_step {systemEvent : SystemEvent} (step : s.step codec systemEvent = some next) :
    next.loops.map Prod.fst = s.loops.map Prod.fst := by
  cases systemEvent with
  | loop index event remoteAddr =>
      obtain ⟨⟨loop, state⟩, here, later⟩ := Option.bind_eq_some_iff.mp step
      obtain ⟨⟨newState, left, spawned⟩, _, same⟩ := Option.bind_eq_some_iff.mp later
      obtain rfl := Option.some.inj same
      have isLoop : (s.loops.map Prod.fst)[index]? = some loop := by
        rw [List.getElem?_map, here]
        rfl
      rw [List.map_set, set_of_getElem? isLoop]
  | session index event =>
      obtain ⟨_, _, later⟩ := Option.bind_eq_some_iff.mp step
      obtain ⟨_, _, same⟩ := Option.bind_eq_some_iff.mp later
      obtain rfl := Option.some.inj same
      rfl
  | complete index =>
      obtain ⟨_, _, same⟩ := Option.bind_eq_some_iff.mp step
      obtain rfl := Option.some.inj same
      rfl
  | connect toApi =>
      obtain rfl := Option.some.inj step
      rfl
  | client index event =>
      obtain ⟨_, _, later⟩ := Option.bind_eq_some_iff.mp step
      obtain ⟨_, _, same⟩ := Option.bind_eq_some_iff.mp later
      obtain rfl := Option.some.inj same
      rfl
  | disconnect index =>
      rw [System.step] at step
      split at step
      · obtain rfl := Option.some.inj step
        rfl
      · cases step

theorem loops_moves {final : System} (reached : ReflTransGen (System.Moves codec) s final) :
    final.loops.map Prod.fst = s.loops.map Prod.fst := by
  induction reached with
  | refl => rfl
  | tail _ moves ih =>
      obtain ⟨_, _, step⟩ := moves
      exact (loops_step step).trans ih

/-- Without a free permit a loop gets none, and only a loop that needs none spawns a task. -/
theorem acceptLoop_exhausted {limited : Bool} (waiting : state ≠ .permitted)
    (taken : acceptLoop limited 0 state event = some (newState, left, spawned)) :
    left = 0 ∧ newState ≠ .permitted ∧ ∀ task ∈ spawned, limited = false := by
  unfold acceptLoop at taken
  split at taken
  case h_4 => exact absurd rfl waiting
  case h_3 =>
    split at taken
    · split at taken
      next free => exact absurd free (Nat.lt_irrefl 0)
      next =>
        cases taken
        exact ⟨rfl, by simp, by simp⟩
    · cases taken
  case h_5 =>
    split at taken
    · cases taken
    next unlimited =>
      cases taken
      exact ⟨rfl, by simp, fun _ _ => by simpa using unlimited⟩
  case h_6 => cases taken
  all_goals
    cases taken
    exact ⟨rfl, by simp, by simp⟩

end Loops

/-! ## All permits lost -/

/-- Every permit is with a connection whose request hangs. -/
structure System.Wedged (codec : Codec) (s : System) : Prop where
  available : s.available = 0
  loops : ∀ entry ∈ s.loops, entry.2 ≠ .permitted
  accepted : ∀ entry ∈ s.live, entry.1.origin.isListener = true → entry.1.activity.Hangs codec

section Wedged
variable {codec : Codec} {s next : System}

theorem wedged_move (wedged : s.Wedged codec) (permitted : s.Permitted)
    (moves : s.Moves codec next) : next.Wedged codec := by
  obtain ⟨event, canHappen, step⟩ := moves
  cases event with
  | loop index event remoteAddr =>
      obtain ⟨⟨loop, state⟩, here, later⟩ := Option.bind_eq_some_iff.mp step
      obtain ⟨⟨newState, left, spawned⟩, taken, same⟩ := Option.bind_eq_some_iff.mp later
      obtain rfl := Option.some.inj same
      rw [AcceptLoop.step_eq, wedged.available] at taken
      obtain ⟨none_, waits, unlimited⟩ :=
        acceptLoop_exhausted (wedged.loops _ (List.mem_of_getElem? here)) taken
      constructor
      · exact none_
      · intro entry member
        rcases List.mem_or_eq_of_mem_set member with before | rfl
        · exact wedged.loops entry before
        · exact waits
      · intro entry member isListener
        rcases List.mem_append.mp member with new | before
        · obtain ⟨task, isNew, rfl⟩ := List.mem_map.mp new
          have needsNone := unlimited task (Option.mem_toList.mp isNew)
          cases loop with
          | listener => cases needsNone
          | redirect => cases isListener
        · exact wedged.accepted entry before isListener
  | session index event =>
      obtain ⟨⟨session, task⟩, here, later⟩ := Option.bind_eq_some_iff.mp step
      obtain ⟨⟨moved, cell⟩, moves, same⟩ := Option.bind_eq_some_iff.mp later
      obtain rfl := Option.some.inj same
      refine { wedged with accepted := fun entry member isListener => ?_ }
      rcases List.mem_or_eq_of_mem_set member with before | rfl
      · exact wedged.accepted entry before isListener
      · obtain ⟨progress, _, later⟩ := Option.bind_eq_some_iff.mp moves
        obtain ⟨⟨activity, _⟩, advances, same⟩ := Option.bind_eq_some_iff.mp later
        cases same
        exact absurd advances
          (wedged.accepted _ (List.mem_of_getElem? here) isListener).stuck
  | complete index =>
      obtain ⟨⟨session, task⟩, here, same⟩ := Option.bind_eq_some_iff.mp step
      obtain rfl := Option.some.inj same
      have isHere := List.mem_of_getElem? here
      have noListener : session.origin.isListener = false := by
        by_contra isListener
        exact canHappen _ here (wedged.accepted _ isHere (by simpa using isListener))
      have noPermit : task.permit = false := (permitted.tasks _ isHere).trans noListener
      refine { wedged with available := ?_, accepted := fun entry member => ?_ }
      · rw [wedged.available, noPermit]
        rfl
      · exact wedged.accepted entry (List.mem_of_mem_eraseIdx member)
  | connect toApi =>
      obtain rfl := Option.some.inj step
      exact { wedged with }
  | client index event =>
      obtain ⟨_, _, later⟩ := Option.bind_eq_some_iff.mp step
      obtain ⟨_, _, same⟩ := Option.bind_eq_some_iff.mp later
      obtain rfl := Option.some.inj same
      exact { wedged with }
  | disconnect index =>
      rw [System.step] at step
      split at step
      · obtain rfl := Option.some.inj step
        exact { wedged with }
      · cases step

theorem wedged_moves (wedged : s.Wedged codec) (permitted : s.Permitted) {final : System}
    (reached : ReflTransGen (System.Moves codec) s final) : final.Wedged codec := by
  have both : final.Permitted ∧ final.Wedged codec := by
    induction reached with
    | refl => exact ⟨permitted, wedged⟩
    | tail _ moves ih =>
        obtain ⟨_, _, step⟩ := moves
        exact ⟨permitted_step ih.1 step, wedged_move ih.2 ih.1 ⟨_, ‹_›, step⟩⟩
  exact both.2

/-- Connections that hang are connections of listeners. -/
theorem hanging_sublist (permitted : s.Permitted) : (s.hanging codec).Sublist s.accepted := by
  classical
  have same : s.hanging codec =
      s.accepted.filter fun entry => entry.1.activity.Hangs codec := by
    rw [System.hanging, System.accepted, List.filter_filter]
    apply List.filter_congr
    intro entry member
    have listener : entry.1.activity.Hangs codec → entry.1.origin.isListener = true :=
      fun hangs => permitted.serving entry member hangs.proxies
    simpa using listener
  rw [same]
  exact List.filter_sublist

theorem wedged_of_hanging {maxConcurrency : Nat} (permitted : s.Permitted)
    (permits : s.available + s.loops.countP holdsPermit + s.accepted.length = maxConcurrency)
    (full : maxConcurrency ≤ (s.hanging codec).length) : s.Wedged codec := by
  have sublist := @hanging_sublist codec s permitted
  have same : s.hanging codec = s.accepted := sublist.eq_of_length_le (by omega)
  have fewer := sublist.length_le
  constructor
  · omega
  · intro entry member isPermitted
    have some_ : 0 < s.loops.countP holdsPermit :=
      List.countP_pos_iff.mpr ⟨entry, member, by simpa [holdsPermit] using isPermitted⟩
    omega
  · intro entry member isListener
    have among : entry ∈ s.accepted := List.mem_filter.mpr ⟨member, isListener⟩
    rw [← same, System.hanging] at among
    simpa using (List.mem_filter.mp among).2

end Wedged

/-! ## A permit that is left -/

section Left
variable {codec : Codec} {s next : System} {index : Nat} {listener : Listener}
variable {state : LoopState}

/-- The listener goes on to spawn a task, as soon as there is a permit for it. -/
theorem spawns_of_permit (remoteAddr : SocketAddr)
    (here : s.loops[index]? = some (.listener listener, state)) (running : state ≠ .stopped)
    (permit : state = .permitted ∨ 0 < s.available) :
    ∃ ready next, ReflTransGen (System.Moves codec) s ready ∧ ready.cell = s.cell ∧
      ready.step codec (.loop index .spawn remoteAddr) = some next := by
  have inRange := (List.getElem?_eq_some_iff.mp here).1
  have spawns : ∀ {ready : System},
      ready.loops[index]? = some (.listener listener, .permitted) →
        ∃ next, ready.step codec (.loop index .spawn remoteAddr) = some next :=
    fun there => ⟨_, loop_step remoteAddr there rfl⟩
  have acquires : ∀ {waiting : System}, index < waiting.loops.length →
      waiting.loops[index]? = some (.listener listener, .accepted) → 0 < waiting.available →
        ∃ ready, waiting.Moves codec ready ∧ ready.cell = waiting.cell ∧
          ready.loops[index]? = some (.listener listener, .permitted) := by
    intro waiting inRange there free
    have taken : acceptLoop true waiting.available .accepted .tryAcquire =
        some (.permitted, waiting.available - 1, none) := by
      rw [acceptLoop, if_pos rfl, if_pos free]
    exact ⟨_, loop_moves remoteAddr there taken, rfl, List.getElem?_set_self inRange⟩
  cases state with
  | permitted =>
      obtain ⟨next, spawned⟩ := @spawns s here
      exact ⟨s, next, .refl, rfl, spawned⟩
  | accepted =>
      obtain ⟨ready, moves, same, there⟩ := acquires inRange here (by simpa using permit)
      obtain ⟨next, spawned⟩ := spawns there
      exact ⟨ready, next, .single moves, same, spawned⟩
  | accepting =>
      have accepts := @loop_moves codec s index (.listener listener) .accepting .accepted .accept
        s.available none remoteAddr here rfl
      obtain ⟨ready, moves, same, there⟩ := @acquires
        { s with loops := s.loops.set index (.listener listener, .accepted) }
        (by simpa using inRange) (List.getElem?_set_self inRange) (by simpa using permit)
      obtain ⟨next, spawned⟩ := spawns there
      exact ⟨ready, next, .tail (.single accepts) moves, same, spawned⟩
  | stopped => exact absurd rfl running

/-- A task that does not hang can end, and gives its permit back. -/
theorem frees_permit {entry : Session × ConnectionTask} (permitted : s.Permitted)
    (member : entry ∈ s.accepted) (ends : ¬ entry.1.activity.Hangs codec) :
    ∃ next, s.Moves codec next ∧ next.loops = s.loops ∧ next.cell = s.cell ∧
      0 < next.available := by
  obtain ⟨isLive, isListener⟩ := List.mem_filter.mp member
  obtain ⟨position, here⟩ := List.getElem?_of_mem isLive
  have permit : entry.2.permit = true := (permitted.tasks entry isLive).trans isListener
  refine ⟨{ s with
    available := s.available + entry.2.permit.toNat
    live := s.live.eraseIdx position }, ⟨.complete position, ?_, ?_⟩, rfl, rfl, ?_⟩
  · intro other there
    obtain rfl := Option.some.inj (here.symm.trans there)
    exact ends
  · rw [System.step, here]
    rfl
  · simp [permit]

/-- If permits are not all lost, the listener or the semaphore gets one; the cell is not touched. -/
theorem permit_left {maxConcurrency : Nat} (permitted : s.Permitted)
    (permits : s.available + s.loops.countP holdsPermit + s.accepted.length = maxConcurrency)
    (fewer : (s.hanging codec).length < maxConcurrency)
    (here : s.loops[index]? = some (.listener listener, state)) :
    ∃ next, ReflTransGen (System.Moves codec) s next ∧ next.cell = s.cell ∧
      next.loops[index]? = some (.listener listener, state) ∧
      (state = .permitted ∨ 0 < next.available) := by
  by_cases free : 0 < s.available
  · exact ⟨s, .refl, rfl, here, Or.inr free⟩
  by_cases holding : 0 < s.loops.countP holdsPermit
  · -- a loop with a permit spawns its task, which ends at once
    obtain ⟨⟨loop, standing⟩, isLoop, holds⟩ := List.countP_pos_iff.mp holding
    obtain rfl : standing = .permitted := of_decide_eq_true holds
    obtain ⟨other, there⟩ := List.getElem?_of_mem isLoop
    by_cases own : other = index
    · obtain rfl := own
      cases here.symm.trans there
      exact ⟨s, .refl, rfl, here, Or.inl rfl⟩
    · have spawns := @loop_moves codec s other loop .permitted .accepting .spawn s.available
        (some ⟨true⟩) (.v4 .unspecified 0) there (by cases loop <;> rfl)
      refine ⟨_, .tail (.single spawns) ⟨.complete 0, ?_, rfl⟩, rfl, ?_,
        Or.inr (Nat.succ_pos _)⟩
      · intro entry isNew
        obtain rfl := Option.some.inj isNew
        exact id
      · exact (List.getElem?_set_ne own).trans here
  · have shorter : ¬ s.accepted.length ≤ (s.hanging codec).length := by omega
    have ends : ∃ entry ∈ s.accepted, ¬ entry.1.activity.Hangs codec := by
      by_contra all
      push Not at all
      apply shorter
      rw [System.hanging, System.accepted, ← List.countP_eq_length_filter,
        ← List.countP_eq_length_filter]
      apply List.countP_mono_left
      intro entry member isListener
      simpa using all entry (List.mem_filter.mpr ⟨member, isListener⟩)
    obtain ⟨entry, member, notHanging⟩ := ends
    obtain ⟨next, moves, same, untouched, free⟩ := frees_permit permitted member notHanging
    exact ⟨next, .single moves, untouched, same ▸ here, Or.inr free⟩

end Left

/-! ## A request that hangs -/

section Echo
variable {parser : UriParser} {world : World} {config : Config} {remoteAddr : SocketAddr}
variable {isTls : Bool} {incoming : Request}

/-- A request hangs at the first header directive of its site whose template never settles. -/
theorem proxy_stuck {site : SiteConfig} {name template : Str} {rest : List Directive}
    (found : findSite config (requestHost (ensureRequestId (world.uuids 0) incoming).2) isTls =
      some site)
    (first : site.directives = .header name (some template) :: rest)
    (isName : (HeaderName.fromBytes name).isSome = true)
    (never : processHeaderSubstitution world.fuel world.env (world.uuids 1)
      (ensureRequestId (world.uuids 0) incoming).2.headers template = none) :
    proxy parser world config remoteAddr isTls incoming = none := by
  obtain ⟨headerName, named⟩ := Option.isSome_iff_exists.mp isName
  have header : handleHeader world.fuel world.env (world.uuids 1) name (some template)
      (ensureRequestId (world.uuids 0) incoming).2 = none := by
    simp only [handleHeader, named, never]
  have processed : ∀ ctx path, processDirectives world ctx site.directives path
      (.initial (ensureRequestId (world.uuids 0) incoming).2) = none := by
    intro ctx path
    have step : stepDirective world ctx [] 0 (.header name (some template)) path
        (.initial (ensureRequestId (world.uuids 0) incoming).2) = none := by
      simp only [stepDirective, stepHeader, Pipeline.initial, header, Option.map_none]
    rw [first, processDirectives, runDirectives, step]
  rw [proxy]
  dsimp only
  simp only [found, serveSite, processed]

end Echo

def echoSite : SiteConfig :=
  ⟨"a:80".toList, [.header "X-Note".toList (some "\x7bheader.X\x7d".toList)], none⟩

/-- `GET /` with `X: {header.X}`. -/
def echoRequest : Request :=
  { exampleRequest with headers := exampleRequest.headers ++ echoingHeaders }

theorem echo_hangs (fuel : Nat) : proxy plainUriParser { quietWorld with fuel }
    (singleSite echoSite) exampleAddr false echoRequest = none := by
  have opened : Text.splitOnce headerOpener "\x7bheader.X\x7d".toList =
      some ([], "X\x7d".toList) := by decide
  have closed : Text.splitOnce ['\x7d'] "X\x7d".toList = some (['X'], []) := by decide
  have echo : headerText (ensureRequestId exampleUuid echoRequest).2.headers ['X'] =
      headerOpener ++ ['X'] ++ ['\x7d'] := by decide
  have rescans := Text.expandFrom_echo opened closed echo fuel
  have never : processHeaderSubstitution fuel .empty exampleUuid
      (ensureRequestId exampleUuid echoRequest).2.headers "\x7bheader.X\x7d".toList = none := by
    simp only [processHeaderSubstitution, headerLoop, rescans, Option.map_none]
  exact @proxy_stuck plainUriParser { quietWorld with fuel } (singleSite echoSite) exampleAddr
    false echoRequest echoSite _ _ [] rfl rfl (by decide) never

/-! ## Every reachable state -/

/-- A listener that runs can come to serve another connection exactly when fewer requests
hang than there are permits; once that many hang, it never serves one again. -/
theorem serves_again_iff {codec : Codec} {started : Started} {start : Config}
    {maxConcurrency : Nat} {s : System}
    (reached : ReflTransGen (System.Moves codec) (started.system start maxConcurrency) s)
    {index : Nat} {listener : Listener} {state : LoopState}
    (here : s.loops[index]? = some (.listener listener, state)) (running : state ≠ .stopped)
    (remoteAddr : SocketAddr) :
    (∃ ready next, ReflTransGen (System.Moves codec) s ready ∧
      ready.step codec (.loop index .spawn remoteAddr) = some next) ↔
    (s.hanging codec).length < maxConcurrency := by
  obtain ⟨events, ran⟩ := run_of_moves reached
  have permitted := permitted_run ran
  have permits := permits_run ran
  constructor
  · rintro ⟨ready, next, later, spawned⟩
    by_contra full
    have wedged := wedged_moves (wedged_of_hanging permitted permits (not_lt.mp full)) permitted
      later
    obtain ⟨⟨loop, standing⟩, there, rest⟩ := Option.bind_eq_some_iff.mp spawned
    obtain ⟨_, taken, _⟩ := Option.bind_eq_some_iff.mp rest
    have same : loop = .listener listener := by
      have kept := congrArg (fun loops => loops[index]?) (loops_moves later)
      simpa [there, here] using kept
    have waits := wedged.loops _ (List.mem_of_getElem? there)
    rw [AcceptLoop.step_eq, same] at taken
    cases standing with
    | permitted => exact waits rfl
    | accepting => cases taken
    | accepted => cases taken
    | stopped => cases taken
  · intro fewer
    obtain ⟨middle, moves, _, stays, permit⟩ := permit_left permitted permits fewer here
    obtain ⟨ready, next, later, _, spawned⟩ :=
      @spawns_of_permit codec middle index listener state remoteAddr stays running permit
    exact ⟨ready, next, moves.trans later, spawned⟩

def echoEvents : List SystemEvent :=
  [.loop 0 .accept exampleAddr, .loop 0 .tryAcquire exampleAddr, .loop 0 .spawn exampleAddr,
    .session 0 (.receive (.request quietWorld echoRequest)), .session 0 .touch]

/-- One request that hangs takes the only permit for good. -/
theorem serves_again_never : ∃ s,
    ReflTransGen (System.Moves plainCodec) (plainStarted.system (singleSite echoSite) 1) s ∧
      s.loops = [(.listener (.http (.v4 .unspecified 80)), .accepting)] ∧
      ¬ ∃ ready next, ReflTransGen (System.Moves plainCodec) s ready ∧
        ready.step plainCodec (.loop 0 .spawn exampleAddr) = some next := by
  have ran : ∃ s task,
      run (System.step plainCodec) (plainStarted.system (singleSite echoSite) 1) echoEvents =
        some s ∧
      s.loops = [(.listener (.http (.v4 .unspecified 80)), .accepting)] ∧
      s.live = [(⟨.accepted (.listener (.http (.v4 .unspecified 80))) exampleAddr,
        .proxying 0 quietWorld exampleAddr false echoRequest (singleSite echoSite)⟩, task)] :=
    ⟨_, _, rfl, rfl, rfl⟩
  obtain ⟨s, task, ran, loops, live⟩ := ran
  have reached := moves_of_run (by simp [echoEvents]) ran
  have here : s.loops[0]? = some (.listener (.http (.v4 .unspecified 80)), .accepting) := by
    rw [loops]
    rfl
  have hangs : Activity.Hangs plainCodec
      (.proxying 0 quietWorld exampleAddr false echoRequest (singleSite echoSite)) := echo_hangs
  refine ⟨s, reached, loops, ?_⟩
  rw [serves_again_iff reached here (by decide), System.hanging, live,
    List.filter_cons_of_pos (by simpa using hangs)]
  exact Nat.lt_irrefl 1

end TinyProxy
