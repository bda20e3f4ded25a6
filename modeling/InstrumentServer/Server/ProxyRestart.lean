import InstrumentServer.Server.ProxyLifecycle
import InstrumentServer.Server.ProxyPromises

/-!
# Starting a proxy again

Nothing in the source notices the death of a worker: `running_` stays true, the listener thread goes on, and the promises that wait for the dead worker stay in `pending_responses_`. `start_all` then runs `start` on this proxy as it would on a new one. What a `start` does to the thread, the queue and the promises is noted as an event; on a proxy that was stopped since its last start, and that no promise waits for, all of them are consistent.
-/

namespace InstrumentServer

open Ipc Transition

namespace InstrumentWorkerProxy

variable {N : JsonLibrary} {px px' : InstrumentWorkerProxy}

/-! ### What a call and a response leave pending -/

theorem Advance.pending {p : PromiseId} {call : ExecuteCall} {msgs : List IpcMessage}
    (hstep : Advance N px p call px' msgs) :
    px'.promises = px.promises ∧ ∀ entry ∈ px'.pendingResponses, entry.2 = p ∨ entry ∈ px.pendingResponses := by
  cases hstep with
  | draw hpoint => exact ⟨rfl, fun _ hmem => Or.inr hmem⟩
  | store hpoint hm =>
      refine ⟨rfl, fun entry hmem => ?_⟩
      rcases SortedAssoc.mem_insert hmem with rfl | hold
      · exact Or.inl rfl
      · exact Or.inr hold
  | encode hpoint hm =>
      rw [InstrumentWorkerProxy.encode]
      split <;> exact ⟨rfl, fun _ hmem => Or.inr hmem⟩
  | send stats hpoint => exact ⟨rfl, fun _ hmem => Or.inr hmem⟩
  | fail hpoint => exact ⟨rfl, fun _ hmem => Or.inr hmem⟩
  | resolve hpoint hm =>
      rw [resolveUnsent]
      split
      · exact ⟨rfl, fun _ hmem => Or.inr (List.mem_filter.mp hmem).1⟩
      · exact ⟨rfl, fun _ hmem => Or.inr hmem⟩

theorem pending_runCall (N : JsonLibrary) (p : PromiseId) (sent : Bool) (steps : Nat) (px : InstrumentWorkerProxy) :
    (runCall N p sent steps px).1.promises = px.promises ∧
      ∀ entry ∈ (runCall N p sent steps px).1.pendingResponses, entry.2 = p ∨ entry ∈ px.pendingResponses := by
  induction steps generalizing px with
  | zero => exact ⟨rfl, fun _ hmem => Or.inr hmem⟩
  | succ steps ih =>
      rw [runCall]
      cases hadvance : px.advance N p sent with
      | none => exact ⟨rfl, fun _ hmem => Or.inr hmem⟩
      | some after =>
          obtain ⟨call, -, hstep⟩ := advance_cases hadvance
          obtain ⟨hpromises, hpending⟩ := hstep.pending
          obtain ⟨hpromises', hpending'⟩ := ih after.1
          refine ⟨hpromises'.trans hpromises, fun entry hmem => ?_⟩
          rcases hpending' entry hmem with hown | hmid
          · exact Or.inl hown
          · exact hpending entry hmid

/-- A call of `execute` stores at most its own promise, which is a new one. -/
theorem pending_execute (N : JsonLibrary) (px : InstrumentWorkerProxy) (cmd : SerializedCommand) (sent : Bool) :
    (px.execute N cmd sent).1.promises = px.promises + 1 ∧
      ∀ entry ∈ (px.execute N cmd sent).1.pendingResponses, entry.2 = px.promises ∨ entry ∈ px.pendingResponses :=
  pending_runCall N px.promises sent 5 (px.create cmd)

theorem pending_receive {msg : IpcMessage} (hnext : px.receive N msg = some px') :
    px'.promises = px.promises ∧ px'.pendingResponses ⊆ px.pendingResponses := by
  rcases receive_moves hnext with ⟨resp, p, stats, -, -, -, rfl⟩ | ⟨-, rfl⟩
  · exact ⟨rfl, fun _ hmem => (List.mem_filter.mp hmem).1⟩
  · exact ⟨rfl, List.Subset.refl _⟩

end InstrumentWorkerProxy

namespace ProxyLifecycle

/-! ### What a restart must not do -/

/-- A listener thread is still in its loop. -/
def listening (s : ProxyLifecycle) : Bool := s.responseThread.any (· ≠ .ended) || !s.detached.isEmpty

/-- The messages of this proxy that some party has yet to read or is working on. -/
def inFlight (s : ProxyLifecycle) : List IpcMessage :=
  s.ipcQueue.toList.flatMap (fun q => q.requests ++ q.responses) ++ s.worker.taken.toList ++
    (s.responseThread.toList ++ s.detached).filterMap ListenerPoint.held

/-- A message is on its way that can bring the promise stored under `id` its value: the command or its response. -/
def couldAnswer (s : ProxyLifecycle) (id : Nat) : Bool :=
  s.inFlight.any fun msg => (msg.type = .command || msg.type = .response) && msg.id = id

/-- Of the first `promises` promises, one is pending with no message left that could answer it. -/
def orphaned (s : ProxyLifecycle) (promises : Nat) : Bool :=
  s.px.pendingResponses.any fun entry => entry.2 < promises && !s.couldAnswer entry.1

inductive RestartEvent where
  /-- `ipc_queue_` is replaced -/
  | replaceQueue (listening : Bool)
  /-- `response_thread_` is assigned -/
  | assignThread (joinable : Bool)
  /-- `start` returns true -/
  | started (orphaned : Bool)
deriving DecidableEq

def RestartEvent.consistent : RestartEvent → Bool
  | .replaceQueue listening => !listening
  | .assignThread joinable => !joinable
  | .started orphaned => !orphaned

/-- The outcomes of the `start` that a step performs, if it performs one. -/
def starts (s : ProxyLifecycle) : LifecycleLabel → Option (Bool × Bool)
  | .start created spawned => some (created, spawned)
  | .startAll created spawned => if s.isAlive then none else some (created, spawned)
  | _ => none

def noteStart (s : ProxyLifecycle) (label : LifecycleLabel) : List RestartEvent :=
  match s.starts label with
  | some (true, spawned) =>
      .replaceQueue s.listening :: if spawned then [.assignThread s.responseThread.isSome] else []
  | _ => []

def noteReturn (s : ProxyLifecycle) (label : LifecycleLabel) : List RestartEvent :=
  match s.control, label with
  | .initializing promises, .wakeUp _ => if s.isAlive then [.started (s.orphaned promises)] else []
  | _, _ => []

def noteRestart (s : ProxyLifecycle) (label : LifecycleLabel) (_ : ProxyLifecycle) : List RestartEvent :=
  s.noteStart label ++ s.noteReturn label

/-- The lives of a proxy with what its starts do. -/
abbrev observed (N : JsonLibrary) (instrumentName : ByteString) :
    Transition.System (ProxyLifecycle × List RestartEvent) LifecycleLabel :=
  (system N instrumentName).logged noteRestart

/-- `start` creates its queues only on a proxy that was never started or was stopped since, with no detached listener left, and spawns a worker only when no promise is pending. -/
def StartsFresh (s : ProxyLifecycle) (label : LifecycleLabel) : Prop :=
  ∀ outcome ∈ s.starts label, outcome.1 = true →
    s.running = false ∧ s.detached = [] ∧ (outcome.2 = true → s.px.pendingResponses = [])

instance (s : ProxyLifecycle) (label : LifecycleLabel) : Decidable (s.StartsFresh label) :=
  inferInstanceAs (Decidable (∀ outcome ∈ s.starts label, outcome.1 = true →
    s.running = false ∧ s.detached = [] ∧ (outcome.2 = true → s.px.pendingResponses = [])))

/-! ### The steps -/

/-- The steps of a life, one constructor for each that treats the fields of the proxy in its own way. -/
inductive Move (N : JsonLibrary) (s : ProxyLifecycle) : LifecycleLabel → ProxyLifecycle → Prop where
  | start {label : LifecycleLabel} {created spawned : Bool} (hidle : s.control = .idle)
      (hstarts : s.starts label = some (created, spawned)) : Move N s label (s.start created spawned)
  | startAll {created spawned : Bool} (hstarts : s.starts (.startAll created spawned) = none) :
      Move N s (.startAll created spawned) s
  | wakeUp {promises : Nat} {sent : Bool} (hcontrol : s.control = .initializing promises) :
      Move N s (.wakeUp sent) (s.wakeUp sent)
  | stop {sent : Bool} (hidle : s.control = .idle) : Move N s (.stop sent) (s.beginStop sent)
  | stopWorker (worker : WorkerProcess) : Move N s .stopWorker { s with worker, control := .joining }
  /-- the thread is joined or detached -/
  | unjoin {label : LifecycleLabel} (detached : List ListenerPoint) :
      Move N s label { s with responseThread := none, detached, control := .draining }
  | drain (hcontrol : s.control = .draining) :
      Move N s .drain { s with px := s.px.cleanupPendingPromises, control := .releasing }
  | release (hcontrol : s.control = .releasing) : Move N s .release { s with ipcQueue := none, control := .idle }
  | execute {cmd : SerializedCommand} {sent : Bool} (ipcQueue : Option SharedQueue) :
      Move N s (.execute cmd sent) { s with px := (s.px.execute N cmd sent).1, ipcQueue }
  | listen {got : Bool} {point point' : ListenerPoint} {s' : ProxyLifecycle} (hthread : s.responseThread = some point)
      (hlisten : s.listen N got point = some (point', s')) :
      Move N s (.listen got) { s' with responseThread := some point' }
  | listenDetached {i : Nat} {got : Bool} {point point' : ListenerPoint} {s' : ProxyLifecycle}
      (hlisten : s.listen N got point = some (point', s')) (detached : List ListenerPoint) :
      Move N s (.listenDetached i got) { s' with detached }
  /-- the worker takes a request, answers or dies -/
  | process {label : LifecycleLabel} (worker : WorkerProcess) (ipcQueue : Option SharedQueue) :
      Move N s label { s with worker, ipcQueue }

variable {N : JsonLibrary} {instrumentName : ByteString} {s s' : ProxyLifecycle} {label : LifecycleLabel}

theorem step_move (hnext : s.step N label = some s') : Move N s label s' := by
  unfold step at hnext
  split at hnext
  · simp at hnext
  · rename_i hcontrol
    obtain rfl := Option.some.inj hnext
    exact .start hcontrol rfl
  · rename_i hcontrol
    obtain rfl := Option.some.inj hnext
    split
    · rename_i halive
      exact .startAll (if_pos halive)
    · rename_i halive
      exact .start hcontrol (if_neg halive)
  · rename_i hcontrol
    obtain rfl := Option.some.inj hnext
    exact .wakeUp hcontrol
  · rename_i hcontrol
    obtain rfl := Option.some.inj hnext
    exact .stop hcontrol
  · obtain rfl := Option.some.inj hnext
    exact .stopWorker _
  · obtain ⟨-, heq⟩ := Option.ite_none_right_eq_some.mp hnext
    obtain rfl := Option.some.inj heq
    exact .unjoin s.detached
  · obtain ⟨point, -, rfl⟩ := Option.map_eq_some_iff.mp hnext
    exact .unjoin _
  · rename_i hcontrol
    obtain rfl := Option.some.inj hnext
    exact .drain hcontrol
  · rename_i hcontrol
    obtain rfl := Option.some.inj hnext
    exact .release hcontrol
  · obtain ⟨q, -, rfl⟩ := Option.map_eq_some_iff.mp hnext
    exact .execute _
  · obtain ⟨point, hthread, hrest⟩ := Option.bind_eq_some_iff.mp hnext
    obtain ⟨⟨point', after⟩, hlisten, heq⟩ := Option.bind_eq_some_iff.mp hrest
    obtain rfl := Option.some.inj heq
    exact .listen hthread hlisten
  · obtain ⟨point, -, hrest⟩ := Option.bind_eq_some_iff.mp hnext
    obtain ⟨⟨point', after⟩, hlisten, heq⟩ := Option.bind_eq_some_iff.mp hrest
    obtain rfl := Option.some.inj heq
    exact .listenDetached hlisten _
  · rw [take] at hnext
    split at hnext
    · obtain rfl := Option.some.inj hnext
      exact .process _ _
    · simp at hnext
  · rw [answer] at hnext
    split at hnext
    · obtain rfl := Option.some.inj hnext
      exact .process _ _
    · simp at hnext
  · obtain ⟨-, heq⟩ := Option.ite_none_right_eq_some.mp hnext
    obtain rfl := Option.some.inj heq
    exact .process .dead s.ipcQueue
  · simp at hnext

/-- `start` is performed only when no other thread is in `start` or `stop`. -/
theorem idle_of_starts {outcome : Bool × Bool} (hstarts : s.starts label = some outcome)
    (hnext : s.step N label = some s') : s.control = .idle := by
  cases label <;> simp only [starts, reduceCtorEq] at hstarts <;> unfold step at hnext <;>
    cases hcontrol : s.control <;> simp [hcontrol] at hnext ⊢

/-! ### The invariant -/

structure RestartInv (s : ProxyLifecycle) : Prop where
  /-- while `start` sleeps, only promises made since it began are pending -/
  initializing : ∀ promises, s.control = .initializing promises →
    s.running = true ∧ promises ≤ s.px.promises ∧ ∀ entry ∈ s.px.pendingResponses, promises ≤ entry.2
  /-- `response_thread_` is joinable only while the proxy runs or `stop` is about to join it -/
  joinable : s.responseThread.isSome = true →
    s.running = true ∨ s.control = .stopping ∨ s.control = .joining ∨ s.control = .terminated

/-- A listener step changes promises and queues only, unless it ends the process. -/
theorem listen_frame {got : Bool} {point point' : ListenerPoint} (hlisten : s.listen N got point = some (point', s')) :
    s'.running = s.running ∧ s'.responseThread = s.responseThread ∧
      (s'.control = .terminated ∨ s'.control = s.control) ∧
      s'.px.promises = s.px.promises ∧ s'.px.pendingResponses ⊆ s.px.pendingResponses := by
  have hrefl := List.Subset.refl s.px.pendingResponses
  cases point with
  | checking =>
      obtain ⟨-, rfl⟩ := Prod.mk.inj (Option.some.inj hlisten)
      exact ⟨rfl, rfl, Or.inr rfl, rfl, hrefl⟩
  | receiving =>
      unfold listen at hlisten
      dsimp only at hlisten
      split at hlisten
      · obtain ⟨-, rfl⟩ := Prod.mk.inj (Option.some.inj hlisten)
        exact ⟨rfl, rfl, Or.inr rfl, rfl, hrefl⟩
      · obtain ⟨-, rfl⟩ := Prod.mk.inj (Option.some.inj hlisten)
        exact ⟨rfl, rfl, Or.inr rfl, rfl, hrefl⟩
      · simp at hlisten
  | handling msg =>
      unfold listen at hlisten
      dsimp only at hlisten
      split at hlisten
      · rename_i px hreceive
        obtain ⟨-, rfl⟩ := Prod.mk.inj (Option.some.inj hlisten)
        obtain ⟨hpromises, hpending⟩ := InstrumentWorkerProxy.pending_receive hreceive
        exact ⟨rfl, rfl, Or.inr rfl, hpromises, hpending⟩
      · obtain ⟨-, rfl⟩ := Prod.mk.inj (Option.some.inj hlisten)
        exact ⟨rfl, rfl, Or.inl rfl, rfl, hrefl⟩
  | ended => simp [listen] at hlisten

namespace RestartInv

theorem init : RestartInv (system N instrumentName).init where
  initializing _ hcontrol := by simp [system] at hcontrol
  joinable hjoinable := by simp [system] at hjoinable

/-- On a proxy that neither runs nor stops there is no thread to join. -/
theorem responseThread_eq_none (h : RestartInv s) (hidle : s.control = .idle) (hrunning : s.running = false) :
    s.responseThread = none := by
  cases hthread : s.responseThread with
  | none => rfl
  | some point =>
      rcases h.joinable (by simp [hthread]) with hrun | hstop | hjoin | hend
      · simp [hrunning] at hrun
      · simp [hidle] at hstop
      · simp [hidle] at hjoin
      · simp [hidle] at hend

theorem beginStop (sent : Bool) (hidle : s.running = false → s.responseThread = none) :
    RestartInv (s.beginStop sent) := by
  rw [ProxyLifecycle.beginStop]
  split
  · exact ⟨fun _ hcontrol => by simp at hcontrol, fun _ => Or.inr (Or.inl rfl)⟩
  · rename_i hrunning
    refine ⟨fun _ hcontrol => by simp at hcontrol, fun hjoinable => ?_⟩
    simp [hidle (by simpa using hrunning)] at hjoinable

theorem start (h : RestartInv s) {created spawned : Bool} (hidle : s.control = .idle)
    (hfresh : created = true → spawned = true → s.px.pendingResponses = []) :
    RestartInv (s.start created spawned) := by
  rw [ProxyLifecycle.start]
  split
  · rename_i hcreated
    dsimp only
    split
    · rename_i hspawned
      refine ⟨fun promises hcontrol => ?_, fun _ => Or.inl rfl⟩
      dsimp only at hcontrol
      split at hcontrol
      · simp at hcontrol
      · obtain rfl := ProxyControl.initializing.inj hcontrol
        refine ⟨rfl, le_rfl, fun entry hmem => ?_⟩
        simp [hfresh hcreated hspawned] at hmem
    · exact ⟨fun _ hcontrol => by simp [hidle] at hcontrol, h.joinable⟩
  · exact h

/-- A listener takes a step. -/
theorem listen (h : RestartInv s) {got : Bool} {point point' : ListenerPoint}
    (hlisten : s.listen N got point = some (point', s')) : RestartInv s' := by
  obtain ⟨hrunning, hthread, hcontrol, hpromises, hpending⟩ := listen_frame hlisten
  refine ⟨fun promises hinit => ?_, fun hjoinable => ?_⟩
  · rcases hcontrol with hend | hsame
    · simp [hend] at hinit
    · obtain ⟨hrun, hle, hentries⟩ := h.initializing promises (hsame ▸ hinit)
      exact ⟨hrunning ▸ hrun, hpromises ▸ hle, fun entry hmem => hentries entry (hpending hmem)⟩
  · rcases hcontrol with hend | hsame
    · exact Or.inr (Or.inr (Or.inr hend))
    · rw [hrunning, hsame]
      exact h.joinable (hthread ▸ hjoinable)

theorem step (h : RestartInv s) (hfresh : StartsFresh s label) (hnext : s.step N label = some s') : RestartInv s' := by
  cases step_move hnext with
  | start hidle hstarts =>
      exact h.start hidle fun hcreated hspawned => (hfresh _ hstarts hcreated).2.2 hspawned
  | startAll hstarts => exact h
  | wakeUp hcontrol =>
      obtain ⟨hrunning, -⟩ := h.initializing _ hcontrol
      rw [ProxyLifecycle.wakeUp]
      split
      · exact ⟨fun _ hcontrol' => by simp at hcontrol', fun _ => Or.inl hrunning⟩
      · exact beginStop _ fun hstopped => by simp [hrunning] at hstopped
  | stop hidle => exact beginStop _ (h.responseThread_eq_none hidle)
  | stopWorker worker => exact ⟨fun _ hcontrol => by simp at hcontrol, fun _ => Or.inr (Or.inr (Or.inl rfl))⟩
  | unjoin detached => exact ⟨fun _ hcontrol => by simp at hcontrol, fun hjoinable => by simp at hjoinable⟩
  | drain hcontrol =>
      refine ⟨fun _ hcontrol' => by simp at hcontrol', fun hjoinable => ?_⟩
      have hrunning := h.joinable hjoinable
      exact Or.inl (by simpa [hcontrol] using hrunning)
  | release hcontrol =>
      refine ⟨fun _ hcontrol' => by simp at hcontrol', fun hjoinable => ?_⟩
      have hrunning := h.joinable hjoinable
      exact Or.inl (by simpa [hcontrol] using hrunning)
  | execute ipcQueue =>
      obtain ⟨hpromises, hpending⟩ := InstrumentWorkerProxy.pending_execute N s.px _ _
      refine ⟨fun promises hcontrol => ?_, h.joinable⟩
      obtain ⟨hrunning, hle, hentries⟩ := h.initializing promises hcontrol
      refine ⟨hrunning, hpromises ▸ hle.trans (Nat.le_succ _), fun entry hmem => ?_⟩
      rcases hpending entry hmem with hown | hold
      · exact hown ▸ hle
      · exact hentries entry hold
  | listen hthread hlisten =>
      have h' := h.listen hlisten
      obtain ⟨-, hsame, -⟩ := listen_frame hlisten
      exact ⟨h'.initializing, fun _ => h'.joinable (by simp [hsame, hthread])⟩
  | listenDetached hlisten detached => exact ⟨(h.listen hlisten).initializing, (h.listen hlisten).joinable⟩
  | process worker ipcQueue => exact ⟨h.initializing, h.joinable⟩

theorem of_reachable (hreach : ReachableWhile (system N instrumentName) StartsFresh s) : RestartInv s :=
  hreach.invariant init fun _ _ _ h hfresh hnext => h.step hfresh hnext

/-- A `start` that keeps to the condition finds no thread of an earlier one. -/
theorem consistent_noteStart (h : RestartInv s) (hfresh : StartsFresh s label) (hnext : s.step N label = some s') :
    ∀ event ∈ s.noteStart label, event.consistent = true := by
  intro event hmem
  rw [noteStart] at hmem
  split at hmem
  · rename_i spawned hstarts
    obtain ⟨hrunning, hdetached, -⟩ := hfresh _ hstarts rfl
    have hthread := h.responseThread_eq_none (idle_of_starts hstarts hnext) hrunning
    rcases List.mem_cons.mp hmem with rfl | hmem
    · simp [RestartEvent.consistent, listening, hthread, hdetached]
    · split at hmem
      · obtain rfl := List.mem_singleton.mp hmem
        simp [RestartEvent.consistent, hthread]
      · simp at hmem
  · simp at hmem

/-- When `start` returns, the promises it found are answered. -/
theorem consistent_noteReturn (h : RestartInv s) (label : LifecycleLabel) :
    ∀ event ∈ s.noteReturn label, event.consistent = true := by
  intro event hmem
  unfold noteReturn at hmem
  split at hmem
  · rename_i promises sent hcontrol
    obtain ⟨-, -, hentries⟩ := h.initializing promises hcontrol
    split at hmem
    · obtain rfl := List.mem_singleton.mp hmem
      have hnone : s.orphaned promises = false := by
        rw [orphaned, List.any_eq_false]
        intro entry hentry
        simp [hentries entry hentry]
      rw [RestartEvent.consistent, hnone]
      rfl
    · simp at hmem
  · simp at hmem

end RestartInv

/-- In every life of a proxy in which `start` is performed only on a proxy that was stopped, no thread is assigned over a joinable one, no queue is replaced under a listener, and no promise is orphaned. -/
theorem restart_consistent {s : ProxyLifecycle × List RestartEvent}
    (hreach : ReachableWhile (observed N instrumentName) (fun s label => StartsFresh s.1 label) s) :
    ∀ event ∈ s.2, event.consistent = true := by
  refine (@ReachableWhile.logged _ _ _ (system N instrumentName) noteRestart StartsFresh RestartInv
    (fun _ log => ∀ event ∈ log, event.consistent = true) (fun _ => RestartInv.of_reachable) (by simp) ?_ s hreach).2
  intro s s' label log h hlog hfresh hnext event hmem
  rcases List.mem_append.mp hmem with hold | hnew
  · exact hlog event hold
  · rcases List.mem_append.mp hnew with hstart | hreturn
    · exact h.consistent_noteStart hfresh hnext event hstart
    · exact h.consistent_noteReturn label event hreturn

open InstrumentWorkerProxy (okResponse readCommand)

/-- `start` succeeds. -/
def startUp : List LifecycleLabel := [.start true true, .wakeUp true]

/-- `stop` of a proxy whose listener is at the head of its loop, up to the answers to the pending promises. -/
def stopUntilDrained : List LifecycleLabel := [.stop true, .stopWorker, .listen false, .join, .drain]

/-- One command is answered, the worker dies over the next, and the proxy is stopped and started again. -/
def orderlyRestart : List LifecycleLabel :=
  startUp ++ [.execute readCommand true, .take, .answer (okResponse 1), .listen true, .listen true,
    .listen true, .execute readCommand true, .die] ++ stopUntilDrained ++ [.release] ++ startUp

theorem restart_consistent_orderlyRestart :
    ∃ s, ReachableWhile (observed .compact (bytes "dmm")) (fun s label => StartsFresh s.1 label) s ∧
      s.2 = [.replaceQueue false, .assignThread false, .started false, .replaceQueue false, .assignThread false,
        .started false] ∧ ∀ event ∈ s.2, event.consistent = true := by
  obtain ⟨s, hreach, hview⟩ := @ReachableWhile.of_any _ _ (observed .compact (bytes "dmm"))
    (fun s label => StartsFresh s.1 label) _ orderlyRestart
    (fun s => s.2 = [.replaceQueue false, .assignThread false, .started false, .replaceQueue false,
      .assignThread false, .started false]) (by decide +kernel)
  exact ⟨s, hreach, by simpa using hview, restart_consistent hreach⟩

/-- The worker dies over a command and `start_all` starts the proxy again: the queue is replaced under the listener and a thread is assigned over a joinable one. In another life a call stores its promise after `stop` gave its answers, and the next `start` returns with the promise pending and nothing left to answer it. -/
theorem restart_inconsistent :
    (∃ s, Reachable (observed .compact (bytes "dmm")) s ∧ s.1.control = .terminated ∧
      s.2 = [.replaceQueue false, .assignThread false, .started false, .replaceQueue true, .assignThread true] ∧
      ¬ ∀ event ∈ s.2, event.consistent = true) ∧
    ∃ s, Reachable (observed .compact (bytes "dmm")) s ∧ s.1.px.pendingResponses = [(1, 0)] ∧ s.1.inFlight = [] ∧
      .started true ∈ s.2 ∧ ¬ ∀ event ∈ s.2, event.consistent = true := by
  constructor
  · obtain ⟨s, hreach, hview⟩ := @ReachableWhile.of_any _ _ (observed .compact (bytes "dmm")) (fun _ _ => True) _
      (startUp ++ [.execute readCommand true, .die, .startAll true true])
      (fun s => s.1.control = .terminated && s.2 = [.replaceQueue false, .assignThread false, .started false,
        .replaceQueue true, .assignThread true]) (by decide +kernel)
    obtain ⟨hend, hlog⟩ : s.1.control = .terminated ∧ s.2 = [.replaceQueue false, .assignThread false,
        .started false, .replaceQueue true, .assignThread true] := by simpa using hview
    refine ⟨s, hreach, hend, hlog, fun hall => ?_⟩
    simpa [RestartEvent.consistent] using hall (.assignThread true) (by simp [hlog])
  · obtain ⟨s, hreach, hview⟩ := @ReachableWhile.of_any _ _ (observed .compact (bytes "dmm")) (fun _ _ => True) _
      (startUp ++ stopUntilDrained ++ [.execute readCommand true, .release] ++ startUp)
      (fun s => s.1.px.pendingResponses = [(1, 0)] && s.1.inFlight = [] && s.2.contains (.started true))
      (by decide +kernel)
    obtain ⟨⟨hpending, hflight⟩, hstarted⟩ : (s.1.px.pendingResponses = [(1, 0)] ∧ s.1.inFlight = []) ∧
        .started true ∈ s.2 := by simpa using hview
    refine ⟨s, hreach, hpending, hflight, hstarted, fun hall => ?_⟩
    simpa [RestartEvent.consistent] using hall (.started true) hstarted

end ProxyLifecycle

end InstrumentServer
