import TinyProxy.System.Progress

/-!
# Which sites a listener serves

A request is routed by its `Host` header and by nothing else of where it came
in: the address of a site does not keep other listeners from it.
-/

set_option autoImplicit false

namespace TinyProxy

open Rust Http Linearization Transition Relation

/-- The protocol that `find_site` is told. -/
def Listener.isTls : Listener → Bool
  | .http _ => false
  | .https _ _ => true

section Service
variable {codec : Codec} {s next : System} {index : Nat} {listener : Listener}
variable {task : ConnectionTask} {rest : List (Session × ConnectionTask)}

/-- A new connection can bring any request, which is served from the live configuration. -/
theorem request_moves (remoteAddr : SocketAddr) (world : World) (incoming : Request)
    (live : s.live = (⟨.accepted (.listener listener) remoteAddr, .idle⟩, task) :: rest) :
    ∃ final id, ReflTransGen (System.Moves codec) s final ∧
      final.cell.config = s.cell.config ∧ final.live =
        (⟨.accepted (.listener listener) remoteAddr,
          .proxying id world remoteAddr listener.isTls incoming s.cell.config⟩, task) :: rest := by
  let call : CellCall := .proxied world remoteAddr listener.isTls incoming
  let received : System := { s with
    cell := { s.cell with issued := s.cell.issued + 1 }.record (.invoke s.cell.issued call)
    live := (⟨.accepted (.listener listener) remoteAddr, .received s.cell.issued call⟩, task) ::
      rest }
  have receives : s.step codec (.session 0 (.receive (.request world incoming))) =
      some received := by
    rw [System.step, live]
    cases listener <;> rfl
  have touches : ∃ final, received.step codec (.session 0 .touch) = some final ∧
      final.cell.config = s.cell.config ∧ final.live =
        (⟨.accepted (.listener listener) remoteAddr,
          .proxying s.cell.issued world remoteAddr listener.isTls incoming s.cell.config⟩, task) ::
          rest := ⟨_, rfl, rfl, rfl⟩
  obtain ⟨final, touched, config, proxying⟩ := touches
  refine ⟨final, s.cell.issued, ?_, config, proxying⟩
  exact .tail (.single ⟨.session 0 _, trivial, receives⟩) ⟨.session 0 _, trivial, touched⟩

/-- The spawned task is in front, and it has the cell of the moment. -/
theorem spawned_live {remoteAddr : SocketAddr} {state : LoopState}
    (here : s.loops[index]? = some (.listener listener, state))
    (spawned : s.step codec (.loop index .spawn remoteAddr) = some next) :
    next.cell = s.cell ∧ ∃ task,
      next.live = (⟨.accepted (.listener listener) remoteAddr, .idle⟩, task) :: s.live := by
  obtain ⟨⟨loop, standing⟩, there, later⟩ := Option.bind_eq_some_iff.mp spawned
  obtain ⟨⟨newState, left, made⟩, taken, same⟩ := Option.bind_eq_some_iff.mp later
  obtain rfl := Option.some.inj same
  cases here.symm.trans there
  rw [AcceptLoop.step_eq] at taken
  cases state with
  | permitted =>
      cases taken
      exact ⟨rfl, ⟨true⟩, rfl⟩
  | accepting => cases taken
  | accepted => cases taken
  | stopped => cases taken

end Service

/-- Through every listener that runs, every site of the live configuration can be reached by its
address, be it the site of another socket or one that was added later. -/
theorem listener_reaches_every_site {codec : Codec} {started : Started} {start : Config}
    {maxConcurrency : Nat} {s : System}
    (reached : ReflTransGen (System.Moves codec) (started.system start maxConcurrency) s)
    (fewer : (s.hanging codec).length < maxConcurrency)
    {index : Nat} {listener : Listener} {state : LoopState}
    (here : s.loops[index]? = some (.listener listener, state)) (running : state ≠ .stopped)
    {site : SiteConfig} (world : World) (incoming : Request)
    (found : s.cell.config.sites.lookup
      (requestHost (ensureRequestId (world.uuids 0) incoming).2) = some site)
    (remoteAddr : SocketAddr) :
    ∃ final id task, ReflTransGen (System.Moves codec) s final ∧
      (⟨.accepted (.listener listener) remoteAddr,
        .proxying id world remoteAddr listener.isTls incoming s.cell.config⟩, task) ∈ final.live ∧
      findSite s.cell.config (requestHost (ensureRequestId (world.uuids 0) incoming).2)
        listener.isTls = some site := by
  obtain ⟨events, ran⟩ := run_of_moves reached
  obtain ⟨middle, moves, sameMiddle, stays, permit⟩ :=
    permit_left (permitted_run ran) (permits_run ran) fewer here
  obtain ⟨ready, next, later, sameReady, spawned⟩ :=
    @spawns_of_permit codec middle index listener state remoteAddr stays running permit
  have there : ∃ standing, ready.loops[index]? = some (.listener listener, standing) := by
    have kept := congrArg (fun loops => loops[index]?) (loops_moves (moves.trans later))
    simpa [here] using kept
  obtain ⟨standing, there⟩ := there
  obtain ⟨sameNext, task, live⟩ := spawned_live there spawned
  have config : next.cell.config = s.cell.config := by
    rw [sameNext, sameReady, sameMiddle]
  obtain ⟨final, id, served, _, proxying⟩ :=
    @request_moves codec next listener task ready.live remoteAddr world incoming live
  refine ⟨final, id, task, ?_, ?_, ?_⟩
  · exact ((moves.trans later).tail ⟨.loop index .spawn remoteAddr, trivial, spawned⟩).trans served
  · rw [proxying, config]
    exact List.mem_cons_self ..
  · rw [findSite, found]

def internalSite : SiteConfig :=
  ⟨"127.0.0.1:9000".toList, [.respond 200 "internal".toList], none⟩

/-- `GET /` with `Host: 127.0.0.1:9000`. -/
def internalRequest : Request :=
  { exampleRequest with headers := [(.host, ⟨utf8 "127.0.0.1:9000".toList, by decide⟩)] }

/-- The site of a loopback socket, through a listener on all interfaces. -/
theorem listener_reaches_every_site_loopback :
    ∃ final id task, ReflTransGen (System.Moves plainCodec)
        (plainStarted.system (singleSite internalSite) 1) final ∧
      (⟨.accepted (.listener (.http (.v4 .unspecified 80))) exampleAddr,
        .proxying id quietWorld exampleAddr false internalRequest (singleSite internalSite)⟩,
        task) ∈ final.live := by
  have quiet : ((plainStarted.system (singleSite internalSite) 1).hanging plainCodec).length <
      1 := by
    simp [System.hanging, Started.system]
  obtain ⟨final, id, task, moves, live, _⟩ :=
    @listener_reaches_every_site plainCodec plainStarted (singleSite internalSite) 1 _ .refl quiet
      0 (.http (.v4 .unspecified 80)) .accepting rfl (by decide) internalSite quietWorld
      internalRequest rfl exampleAddr
  exact ⟨final, id, task, moves, live⟩

end TinyProxy
