import InstrumentServer.Lib.Transition
import InstrumentServer.Server.ServerDaemon

/-!
# The thread of the RPC server

`start`, `stop` and the destructor of `HttpRpcServer` in steps, with the steps of the server thread between them. The calls from outside come one after the other; requests may make the server thread call `stop` or `delete` itself. `running_` has two readers: the accept loop, which leaves when it is cleared, and `stop`, which has nothing to do when it is not set. A thread that clears it on its own has ended without being joined, and `stop` will not join it.

What the socket delivers is not part of the model; that a call fails is a choice of the label.
-/

namespace InstrumentServer

open Transition

/-- Where a call of `stop` is that found `running_` set. -/
inductive RpcStopPoint where
  | closing
  | joining
  /-- the body of the destructor is done, the members are destroyed next -/
  | destroying
deriving DecidableEq

/-- Where the calls from other threads are; `destroys` tells the destructor from `stop`. -/
inductive RpcOuterPoint where
  | idle
  /-- `start` has set `running_` -/
  | starting
  /-- the thread is there, but not in `server_thread_` -/
  | started
  | stopping (destroys : Bool) (point : RpcStopPoint)
  | destroyed
deriving DecidableEq

inductive RpcSocketCall where
  | socket
  | inetPton
  | bind
  | listen
deriving DecidableEq

/-- Where `run_loop` is. -/
inductive RpcThreadPoint where
  /-- there is no thread, or it was joined -/
  | absent
  | setUp (next : RpcSocketCall)
  /-- at the condition of the accept loop -/
  | looping
  | serving
  | stopping (destroys : Bool) (point : RpcStopPoint)
  /-- a call has failed or the loop is left, and `running_ = false` is next -/
  | clearing
  | ended
deriving DecidableEq

structure RpcLifecycle where
  running : Bool := false
  /-- `listen_fd_` is open -/
  listening : Bool := false
  /-- `server_thread_` can be joined -/
  joinable : Bool := false
  outer : RpcOuterPoint := .idle
  thread : RpcThreadPoint := .absent
  /-- `stop` has returned to another thread, and there was no `start` after it -/
  stopped : Bool := false
  /-- `std::terminate` -/
  terminated : Bool := false
deriving DecidableEq

inductive RpcLabel where
  | start
  | spawn
  | assign
  /-- `stop`, or the destructor -/
  | stop (caller : CallingThread) (destroys : Bool)
  /-- the next step of such a call -/
  | advance (caller : CallingThread)
  /-- the next call that sets the socket up -/
  | setUp (succeeds : Bool)
  | loop
  /-- a round of the loop ends -/
  | served
  | clear
deriving DecidableEq

namespace RpcLifecycle

/-- A call of `stop` is at a point. -/
def goTo (r : RpcLifecycle) (caller : CallingThread) (destroys : Bool) (point : RpcStopPoint) : RpcLifecycle :=
  match caller with
  | .rpcThread => { r with thread := .stopping destroys point }
  | .anotherThread => { r with outer := .stopping destroys point }

/-- `stop` returns, to its caller or into the destructor. -/
def returnFromStop (r : RpcLifecycle) (caller : CallingThread) (destroys : Bool) : RpcLifecycle :=
  if destroys then r.goTo caller true .destroying
  else
    match caller with
    | .rpcThread => { r with thread := .serving }
    | .anotherThread => { r with outer := .idle, stopped := true }

/-- The first step of `stop`. -/
def enterStop (r : RpcLifecycle) (caller : CallingThread) (destroys : Bool) : RpcLifecycle :=
  if r.running then { r with running := false }.goTo caller destroys .closing else r.returnFromStop caller destroys

/-- `join`: from the thread itself it throws, which the loop catches and a destructor does not let out. -/
def join (r : RpcLifecycle) (caller : CallingThread) (destroys : Bool) : Option RpcLifecycle :=
  match caller with
  | .rpcThread => some (if destroys then { r with terminated := true } else { r with thread := .serving })
  | .anotherThread =>
      if r.thread = .ended then some ({ r with joinable := false, thread := .absent }.returnFromStop caller destroys)
      else none

/-- A step of `stop` or of the destructor behind it. -/
def advanceStop (r : RpcLifecycle) (caller : CallingThread) (destroys : Bool) : RpcStopPoint → Option RpcLifecycle
  | .closing => some ({ r with listening := false }.goTo caller destroys .joining)
  | .joining => if r.joinable then r.join caller destroys else some (r.returnFromStop caller destroys)
  | .destroying => some (if r.joinable then { r with terminated := true } else { r with outer := .destroyed })

/-- A call of `run_loop` on its socket; `inet_pton` leaves the socket open when it fails. -/
def setUp (r : RpcLifecycle) (succeeds : Bool) : RpcSocketCall → RpcLifecycle
  | .socket => if succeeds then { r with listening := true, thread := .setUp .inetPton } else { r with thread := .clearing }
  | .inetPton => if succeeds then { r with thread := .setUp .bind } else { r with thread := .clearing }
  | .bind => if succeeds then { r with thread := .setUp .listen } else { r with listening := false, thread := .clearing }
  | .listen => if succeeds then { r with thread := .looping } else { r with listening := false, thread := .clearing }

def step (r : RpcLifecycle) (label : RpcLabel) : Option RpcLifecycle :=
  if r.terminated then none
  else
    match label, r.outer, r.thread with
    | .start, .idle, _ => some (if r.running then r else { r with running := true, outer := .starting, stopped := false })
    | .spawn, .starting, _ => some { r with outer := .started, thread := .setUp .socket }
    | .assign, .started, _ =>
        some (if r.joinable then { r with terminated := true } else { r with outer := .idle, joinable := true })
    | .stop .anotherThread destroys, .idle, _ => some (r.enterStop .anotherThread destroys)
    | .stop .rpcThread destroys, _, .serving => some (r.enterStop .rpcThread destroys)
    | .advance .anotherThread, .stopping destroys point, _ => r.advanceStop .anotherThread destroys point
    | .advance .rpcThread, _, .stopping destroys point => r.advanceStop .rpcThread destroys point
    | .setUp succeeds, _, .setUp next => some (r.setUp succeeds next)
    | .loop, _, .looping =>
        some (if r.running then { r with thread := .serving } else { r with listening := false, thread := .clearing })
    | .served, _, .serving => some { r with thread := .looping }
    | .clear, _, .clearing => some { r with running := false, thread := .ended }
    | _, _, _ => none

end RpcLifecycle

/-- A server that was never started. -/
def rpcLifecycle : System RpcLifecycle RpcLabel where
  init := {}
  step := RpcLifecycle.step

/-! ### The condition -/

namespace RpcLifecycle

/-- The thread is neither destroyed nor assigned to while it can be joined, and `stop` leaves no thread behind. -/
structure ThreadSafe (r : RpcLifecycle) : Prop where
  alive : r.terminated = false
  joined : r.stopped = true → r.joinable = false ∧ r.thread = .absent

instance (r : RpcLifecycle) : Decidable r.ThreadSafe :=
  decidable_of_iff (r.terminated = false ∧ (r.stopped = true → r.joinable = false ∧ r.thread = .absent))
    ⟨fun h => ⟨h.1, h.2⟩, fun h => ⟨h.1, h.2⟩⟩

/-- The server thread does not clear `running_` while it is set, neither by itself nor by `stop`, and it does not destroy the server. -/
def LeavesRunning (r : RpcLifecycle) : RpcLabel → Prop
  | .clear => r.running = false
  | .stop .rpcThread destroys => r.running = false ∧ destroys = false
  | _ => True

instance (r : RpcLifecycle) : (label : RpcLabel) → Decidable (r.LeavesRunning label)
  | .clear => inferInstanceAs (Decidable (r.running = false))
  | .stop .rpcThread destroys => inferInstanceAs (Decidable (r.running = false ∧ destroys = false))
  | .stop .anotherThread _ | .start | .spawn | .assign | .advance _ | .setUp _ | .loop | .served =>
      inferInstanceAs (Decidable True)

/-! ### The invariant -/

/-- What `running_`, `server_thread_` and the thread are while the outer calls are at a point. -/
def Agrees (r : RpcLifecycle) : RpcOuterPoint → Prop
  | .idle => r.joinable = r.running ∧ (r.thread = .absent ↔ r.running = false)
  | .starting => r.running = true ∧ r.joinable = false ∧ r.thread = .absent ∧ r.stopped = false
  | .started => r.running = true ∧ r.joinable = false ∧ r.thread ≠ .absent
  | .stopping _ .closing | .stopping _ .joining => r.running = false ∧ r.joinable = true ∧ r.thread ≠ .absent
  | .stopping _ .destroying | .destroyed => r.running = false ∧ r.joinable = false ∧ r.thread = .absent

structure Inv (r : RpcLifecycle) : Prop extends r.ThreadSafe where
  agrees : r.Agrees r.outer
  thread : ∀ destroys point, r.thread ≠ .stopping destroys point

variable {r t : RpcLifecycle}

/-- The thread goes on, and leaves the rest as it is. -/
theorem Inv.moveThread (h : r.Inv) {point : RpcThreadPoint} (listening : Bool) (hthread : r.thread ≠ .absent)
    (hpoint : point ≠ .absent) (hstop : ∀ destroys next, point ≠ .stopping destroys next) :
    Inv { r with listening, thread := point } where
  alive := h.alive
  joined hstopped := absurd (h.joined hstopped).2 hthread
  agrees := by
    have hagrees := h.agrees
    show Agrees { r with listening, thread := point } r.outer
    cases houter : r.outer with
    | stopping destroys next => cases next <;> simp_all [Agrees]
    | _ => simp_all [Agrees]
  thread := hstop

theorem Inv.setUp (h : r.Inv) {next : RpcSocketCall} (hthread : r.thread = .setUp next) (succeeds : Bool) :
    (r.setUp succeeds next).Inv := by
  have hpresent : r.thread ≠ .absent := by simp [hthread]
  cases next <;> cases succeeds <;> exact h.moveThread _ hpresent (by simp) (by simp)

/-- `stop` comes to its end behind the thread, and a destructor to the members. -/
theorem Inv.returnFromStop (hagrees : r.running = false ∧ r.joinable = false ∧ r.thread = .absent)
    (halive : r.terminated = false) (destroys : Bool) : (r.returnFromStop .anotherThread destroys).Inv := by
  obtain ⟨hrunning, hjoinable, hthread⟩ := hagrees
  cases destroys with
  | false =>
      exact
        { alive := halive
          joined := fun _ => ⟨hjoinable, hthread⟩
          agrees := ⟨hjoinable.trans hrunning.symm, iff_of_true hthread hrunning⟩
          thread := by simp [RpcLifecycle.returnFromStop, hthread] }
  | true =>
      exact
        { alive := halive
          joined := fun _ => ⟨hjoinable, hthread⟩
          agrees := ⟨hrunning, hjoinable, hthread⟩
          thread := by simp [RpcLifecycle.returnFromStop, goTo, hthread] }

theorem Inv.enterStop (h : r.Inv) (houter : r.outer = .idle) (destroys : Bool) :
    (r.enterStop .anotherThread destroys).Inv := by
  have hagrees := h.agrees
  rw [houter, Agrees] at hagrees
  rw [RpcLifecycle.enterStop]
  split
  · rename_i hrunning
    have hpresent : r.thread ≠ .absent := by simp [hagrees.2, hrunning]
    exact
      { alive := h.alive
        joined := fun hstopped => absurd (h.joined hstopped).2 hpresent
        agrees := ⟨rfl, hagrees.1.trans hrunning, hpresent⟩
        thread := h.thread }
  · rename_i hstill
    have hrunning : r.running = false := Bool.eq_false_iff.mpr hstill
    exact Inv.returnFromStop ⟨hrunning, hagrees.1.trans hrunning, hagrees.2.mpr hrunning⟩ h.alive destroys

theorem Inv.advanceStop (h : r.Inv) {destroys : Bool} {point : RpcStopPoint} (houter : r.outer = .stopping destroys point)
    (hnext : r.advanceStop .anotherThread destroys point = some t) : t.Inv := by
  have hagrees := h.agrees
  rw [houter] at hagrees
  cases point with
  | closing =>
      cases hnext
      exact
        { alive := h.alive
          joined := h.joined
          agrees := hagrees
          thread := h.thread }
  | joining =>
      rw [RpcLifecycle.advanceStop, if_pos hagrees.2.1, RpcLifecycle.join] at hnext
      split at hnext
      · cases hnext
        exact Inv.returnFromStop (r := { r with joinable := false, thread := .absent }) ⟨hagrees.1, rfl, rfl⟩ h.alive
          destroys
      · contradiction
  | destroying =>
      rw [RpcLifecycle.advanceStop, if_neg (by simp [hagrees.2.1])] at hnext
      cases hnext
      exact
        { alive := h.alive
          joined := h.joined
          agrees := hagrees
          thread := h.thread }

theorem Inv.step {label : RpcLabel} (h : r.Inv) (hok : r.LeavesRunning label) (hnext : r.step label = some t) : t.Inv := by
  have hagrees := h.agrees
  rw [RpcLifecycle.step.eq_def, if_neg (show ¬ r.terminated = true by simp [h.alive])] at hnext
  split at hnext
  · -- start
    rename_i houter
    rw [houter] at hagrees
    split at hnext <;> cases hnext
    · exact h
    · rename_i hstill
      have hrunning : r.running = false := Bool.eq_false_iff.mpr hstill
      exact
        { alive := h.alive
          joined := fun hstopped => Bool.noConfusion hstopped
          agrees := ⟨rfl, hagrees.1.trans hrunning, hagrees.2.mpr hrunning, rfl⟩
          thread := h.thread }
  · -- spawn
    rename_i houter
    rw [houter] at hagrees
    cases hnext
    exact
      { alive := h.alive
        joined := fun hstopped => absurd (hagrees.2.2.2.symm.trans hstopped) Bool.false_ne_true
        agrees := ⟨hagrees.1, hagrees.2.1, by simp⟩
        thread := by simp }
  · -- assign
    rename_i houter
    rw [houter] at hagrees
    rw [if_neg (show ¬ r.joinable = true by simp [hagrees.2.1])] at hnext
    cases hnext
    exact
      { alive := h.alive
        joined := fun hstopped => absurd (h.joined hstopped).2 hagrees.2.2
        agrees := ⟨hagrees.1.symm, by simp [hagrees.1, hagrees.2.2]⟩
        thread := h.thread }
  · -- stop
    rename_i houter
    cases hnext
    exact h.enterStop houter _
  · -- `stop` by the server thread finds `running_` cleared
    rename_i hthread
    obtain ⟨hrunning, hstop⟩ := hok
    cases hnext
    rw [hstop, RpcLifecycle.enterStop, if_neg (by simp [hrunning])]
    exact h.moveThread _ (by simp [hthread]) (by simp) (by simp)
  · rename_i houter
    exact h.advanceStop houter hnext
  · rename_i hthread
    exact absurd hthread (h.thread _ _)
  · rename_i hthread
    cases hnext
    exact h.setUp hthread _
  · -- loop
    rename_i hthread
    cases hnext
    split
    · exact h.moveThread _ (by simp [hthread]) (by simp) (by simp)
    · exact h.moveThread _ (by simp [hthread]) (by simp) (by simp)
  · -- served
    rename_i hthread
    cases hnext
    exact h.moveThread _ (by simp [hthread]) (by simp) (by simp)
  · -- clear
    rename_i hthread
    cases hnext
    have hrunning : r.running = false := hok
    rw [← hrunning]
    exact h.moveThread _ (by simp [hthread]) (by simp) (by simp)
  · contradiction

/-! ### Behind a step that breaks the condition -/

theorem step_clear (hnext : r.step .clear = some t) :
    r.thread = .clearing ∧ { r with running := false, thread := .ended } = t := by
  rw [RpcLifecycle.step.eq_def] at hnext
  cases hthread : r.thread <;> simp_all

theorem step_stop_rpcThread {destroys : Bool} (hnext : r.step (.stop .rpcThread destroys) = some t) :
    r.thread = .serving ∧ r.enterStop .rpcThread destroys = t := by
  rw [RpcLifecycle.step.eq_def] at hnext
  cases hthread : r.thread <;> simp_all

/-- Some continuation of the run leaves a thread behind, or ends the process. -/
def Doomed (r : RpcLifecycle) : Prop := ∃ u, Reachable (rpcLifecycle.startingAt r) u ∧ ¬ u.ThreadSafe

theorem Doomed.of_step {label : RpcLabel} (hstep : r.step label = some t) (h : t.Doomed) : r.Doomed := by
  obtain ⟨u, hreach, hunsafe⟩ := h
  refine ⟨u, ?_, hunsafe⟩
  clear hunsafe
  induction hreach with
  | init => exact ReachableWhile.init.step trivial hstep
  | step _ hok hnext ih => exact ih.step hok hnext

theorem Doomed.of_not_threadSafe (h : ¬ r.ThreadSafe) : r.Doomed := ⟨r, .init, h⟩

/-- With `running_` cleared `stop` does not join a thread that is still there. -/
theorem doomed_of_unjoined (halive : r.terminated = false) (hrunning : r.running = false)
    (houter : r.outer = .idle) (hjoinable : r.joinable = true) : r.Doomed := by
  have hstop : r.step (.stop .anotherThread false) = some { r with outer := .idle, stopped := true } := by
    simp [RpcLifecycle.step.eq_def, halive, houter, RpcLifecycle.enterStop, hrunning, RpcLifecycle.returnFromStop]
  refine Doomed.of_step hstop (.of_not_threadSafe fun hsafe => ?_)
  exact absurd ((hsafe.joined rfl).1.symm.trans hjoinable) Bool.false_ne_true

/-- A thread that is there or about to be assigned when `running_` is cleared. -/
theorem Inv.doomed_of_cleared (h : r.Inv) (hrunning : r.running = true) (hthread : r.thread ≠ .absent)
    (point : RpcThreadPoint) : Doomed { r with running := false, thread := point } := by
  have hagrees := h.agrees
  have hplace : r.outer = .idle ∧ r.joinable = true ∨ r.outer = .started ∧ r.joinable = false := by
    cases houter : r.outer with
    | stopping destroys next => cases next <;> simp_all [Agrees]
    | _ => simp_all [Agrees]
  rcases hplace with ⟨houter, hjoinable⟩ | ⟨houter, hjoinable⟩
  · exact doomed_of_unjoined h.alive rfl houter hjoinable
  · have hassign : RpcLifecycle.step { r with running := false, thread := point } .assign =
        some { r with running := false, thread := point, outer := .idle, joinable := true } := by
      simp [RpcLifecycle.step.eq_def, h.alive, houter, hjoinable]
    exact Doomed.of_step hassign (doomed_of_unjoined h.alive rfl rfl rfl)

/-- A server thread that comes to the members of the server finds itself among them. -/
theorem Inv.doomed_of_destroying (h : r.Inv) (hrunning : r.running = false) (hthread : r.thread ≠ .absent) :
    Doomed { r with thread := .stopping true .destroying } := by
  have hagrees := h.agrees
  have hjoinable : r.joinable = true := by
    cases houter : r.outer with
    | stopping destroys next => cases next <;> simp_all [Agrees]
    | _ => simp_all [Agrees]
  have hdestroy : RpcLifecycle.step { r with thread := .stopping true .destroying } (.advance .rpcThread) =
      some { r with thread := .stopping true .destroying, terminated := true } := by
    simp [RpcLifecycle.step.eq_def, h.alive, RpcLifecycle.advanceStop, hjoinable]
  exact Doomed.of_step hdestroy (.of_not_threadSafe fun hsafe => absurd hsafe.alive Bool.noConfusion)

end RpcLifecycle

section

variable {r : RpcLifecycle}

theorem inv_of_reachable (hreach : ReachableWhile rpcLifecycle RpcLifecycle.LeavesRunning r) : r.Inv :=
  hreach.invariant
    { alive := rfl
      joined := fun hstopped => Bool.noConfusion hstopped
      agrees := ⟨rfl, by simp [rpcLifecycle]⟩
      thread := by simp [rpcLifecycle] }
    fun _ _ _ hinv hok hnext => hinv.step hok hnext

/-- A step that breaks the condition is one too many. -/
theorem doomed_of_not_leavesRunning {t : RpcLifecycle} {label : RpcLabel}
    (hreach : ReachableWhile rpcLifecycle RpcLifecycle.LeavesRunning r) (hbreaks : ¬ r.LeavesRunning label)
    (hnext : r.step label = some t) : t.Doomed := by
  have hinv := inv_of_reachable hreach
  cases label with
  | clear =>
      have hrunning : r.running = true := Bool.not_eq_false _ ▸ hbreaks
      obtain ⟨hthread, rfl⟩ := RpcLifecycle.step_clear hnext
      exact hinv.doomed_of_cleared hrunning (by simp [hthread]) _
  | stop caller destroys =>
      cases caller with
      | anotherThread => exact absurd trivial hbreaks
      | rpcThread =>
          obtain ⟨hthread, rfl⟩ := RpcLifecycle.step_stop_rpcThread hnext
          have hpresent : r.thread ≠ .absent := by simp [hthread]
          rw [RpcLifecycle.enterStop]
          split
          · rename_i hrunning
            exact hinv.doomed_of_cleared hrunning hpresent _
          · rename_i hstill
            have hrunning : r.running = false := Bool.eq_false_iff.mpr hstill
            have hdestroys : destroys = true := by simpa [RpcLifecycle.LeavesRunning, hrunning] using hbreaks
            rw [hdestroys]
            exact hinv.doomed_of_destroying hrunning hpresent
  | start | spawn | assign | advance | setUp | loop | served => exact absurd trivial hbreaks

end

/-- As long as the server thread leaves `running_` to the callers of `stop`, the thread is never destroyed or assigned to while it can be joined, and `stop` returns when it is joined. -/
theorem rpcServer_threadSafe {r : RpcLifecycle} (hreach : ReachableWhile rpcLifecycle RpcLifecycle.LeavesRunning r) :
    r.ThreadSafe :=
  (inv_of_reachable hreach).toThreadSafe

/-! ### Whole calls -/

namespace RpcLifecycle

/-- The server as the daemon sees it, between the calls. -/
def coarse (r : RpcLifecycle) : HttpRpcServer where
  running := r.running
  listening := r.listening
  joinable := r.joinable
  accepting := r.thread = .looping

/-- `start` with a free port and with a used one. -/
theorem coarse_start (bound : Bool) :
    ∃ r, Reachable rpcLifecycle r ∧ r.outer = .idle ∧ r.coarse = HttpRpcServer.start bound := by
  have hrun : (rpcLifecycle.run ([.start, .spawn, .assign, .setUp true, .setUp true, .setUp bound] ++
      [if bound then .setUp true else .clear])).any
        (fun r => decide (r.outer = .idle) && decide (r.coarse = HttpRpcServer.start bound)) = true := by
    cases bound <;> decide
  obtain ⟨r, hreach, hstarted⟩ := ReachableWhile.of_any hrun
  obtain ⟨houter, hcoarse⟩ := Bool.and_eq_true_iff.mp hstarted
  exact ⟨r, hreach, of_decide_eq_true houter, of_decide_eq_true hcoarse⟩

variable {r : RpcLifecycle}

/-- `stop` called by another thread, while the server accepts requests or after it failed. -/
theorem coarse_stop (halive : r.terminated = false) (houter : r.outer = .idle)
    (haccepts : r.running = true → r.joinable = true ∧ r.thread = .looping) :
    ∃ u, Reachable (rpcLifecycle.startingAt r) u ∧ u.outer = .idle ∧ u.stopped = true ∧
      u.coarse = (r.coarse.stop .anotherThread).1 := by
  cases hrunning : r.running with
  | false =>
      have hstop : r.step (.stop .anotherThread false) = some { r with outer := .idle, stopped := true } := by
        simp [RpcLifecycle.step.eq_def, halive, houter, RpcLifecycle.enterStop, hrunning, RpcLifecycle.returnFromStop]
      refine ⟨_, ReachableWhile.init.step trivial hstop, rfl, rfl, ?_⟩
      simp [coarse, HttpRpcServer.stop, hrunning]
  | true =>
      obtain ⟨hjoinable, hthread⟩ := haccepts hrunning
      have hrun : (rpcLifecycle.startingAt r).run
          [.stop .anotherThread false, .advance .anotherThread, .loop, .clear, .advance .anotherThread] =
          some { r with running := false, listening := false, joinable := false, thread := .absent, outer := .idle,
                        stopped := true } := by
        simp [System.runWhile, System.startingAt, rpcLifecycle, RpcLifecycle.step.eq_def, halive, houter, hrunning,
          hjoinable, hthread, RpcLifecycle.enterStop, RpcLifecycle.goTo, RpcLifecycle.advanceStop, RpcLifecycle.join,
          RpcLifecycle.returnFromStop]
      refine ⟨_, reachable_of_run hrun, rfl, rfl, ?_⟩
      simp [coarse, HttpRpcServer.stop, hrunning, hjoinable]

end RpcLifecycle

/-! ### Runs -/

/-- A port that is free: the server is started, stopped while it accepts requests, and destroyed. -/
def freePort : List RpcLabel :=
  [.start, .spawn, .assign, .setUp true, .setUp true, .setUp true, .setUp true, .loop, .stop .anotherThread false,
    .advance .anotherThread, .served, .loop, .clear, .advance .anotherThread, .stop .anotherThread true,
    .advance .anotherThread]

theorem rpcServer_threadSafe_freePort :
    ∃ r, ReachableWhile rpcLifecycle RpcLifecycle.LeavesRunning r ∧ r.outer = .destroyed ∧ r.ThreadSafe := by
  have hrun : (rpcLifecycle.runWhile RpcLifecycle.LeavesRunning rpcLifecycle.init freePort).any
      (fun r => r.outer = .destroyed) = true := by decide
  obtain ⟨r, hreach, houter⟩ := ReachableWhile.of_any hrun
  exact ⟨r, hreach, of_decide_eq_true houter, rpcServer_threadSafe hreach⟩

/-- A port that is in use: `bind` fails, and the thread clears `running_` and ends. -/
def usedPort : List RpcLabel := [.start, .spawn, .assign, .setUp true, .setUp true, .setUp false, .clear]

/-- Then `stop` does not join the thread, and the destructor and a second `start` end the process. -/
theorem rpcServer_not_threadSafe_usedPort :
    (rpcLifecycle.run (usedPort ++ [.stop .anotherThread false])).any (fun r => r.stopped && r.joinable) = true ∧
      (rpcLifecycle.run (usedPort ++ [.stop .anotherThread true, .advance .anotherThread])).any
        RpcLifecycle.terminated = true ∧
      (rpcLifecycle.run (usedPort ++ [.start, .spawn, .assign])).any RpcLifecycle.terminated = true ∧
      ¬ ∀ r, Reachable rpcLifecycle r → r.ThreadSafe := by
  refine ⟨by decide, by decide, by decide, fun hsafe => ?_⟩
  have hrun : (rpcLifecycle.run (usedPort ++ [.stop .anotherThread false])).any
      (fun r => !decide r.ThreadSafe) = true := by decide
  obtain ⟨r, hreach, hunsafe⟩ := ReachableWhile.of_any hrun
  exact absurd (hsafe r hreach) (by simpa using hunsafe)

end InstrumentServer
