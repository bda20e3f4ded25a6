import InstrumentServer.Lib.Json.Text
import InstrumentServer.Server.Measurement

/-!
# The coordinator of a measure job

`worker_loop` declares the coordinator of a measure job inside the branch for measure jobs and hands a reference to the context of the script. The detached monitor keeps the context alive, and with it the reference; the coordinator itself goes when `worker_loop` leaves the branch. Here the server has one step more, with which `worker_loop` leaves the branch of a job whose script is over, and the observer of a job notes for every access to its coordinator whether it is still there.
-/

namespace InstrumentServer

open Ipc Transition

/-- The server, and which jobs' branches `worker_loop` has left. -/
structure BranchState where
  server : ServerState
  left : Nat → Bool := fun _ => false

inductive BranchLabel where
  | server (label : ServerLabel)
  /-- `worker_loop` leaves the branch of a measure job, by its end or by an exception -/
  | leave (c : Nat)

/-- An access of a context to its coordinator, and whether the coordinator is alive. -/
inductive CoordinatorAccess where
  | registerBarrier (token : SyncToken) (alive : Bool)
  | clearBarrier (token : SyncToken) (alive : Bool)
deriving DecidableEq

/-- The action is a `clear_barrier`. -/
def RunAction.isClear : RunAction → Bool
  | .clear _ => true
  | _ => false

def CoordinatorAccess.alive : CoordinatorAccess → Bool
  | .registerBarrier _ alive | .clearBarrier _ alive => alive

namespace BranchState

variable (N : JsonLibrary) (expects : ByteString → ByteString → Bool) (enqueueMode : Nat → Bool)

/-- The branch is left once, after the script of the job. -/
def step (b : BranchState) : BranchLabel → Option BranchState
  | .server label => (b.server.step N expects enqueueMode label).map fun server => { b with server }
  | .leave c =>
      if enqueueMode c = true ∧ (b.server.runs c).phase ≠ .script ∧ b.left c = false then
        some { b with left := Function.update b.left c true }
      else none

def system : System BranchState BranchLabel where
  init := { server := (ServerState.system N expects enqueueMode).init }
  step := step N expects enqueueMode

/-- The barriers that the context of a job registers and clears in a step, with the state its coordinator is in then. -/
def noteAccesses (c : Nat) (b : BranchState) (_ : BranchLabel) (b' : BranchState) : List CoordinatorAccess :=
  (((b'.server.runs c).registered.drop (b.server.runs c).registered.length).map fun entry =>
      .registerBarrier entry.1 (!b.left c)) ++
    ((b'.server.runs c).cleared.drop (b.server.runs c).cleared.length).map fun token => .clearBarrier token (!b.left c)

/-- The server with the accesses of one job. -/
def observed (c : Nat) : System (BranchState × List CoordinatorAccess) BranchLabel :=
  (system N expects enqueueMode).logged (noteAccesses c)

/-- `worker_loop` leaves the branch of a job only when its monitor has no barrier left to clear. -/
def LeavesCleared (b : BranchState) : BranchLabel → Prop
  | .leave c => ∀ action ∈ (b.server.runs c).todo, action.isClear = false
  | .server _ => True

instance (b : BranchState) (label : BranchLabel) : Decidable (LeavesCleared b label) :=
  match label with
  | .leave c => inferInstanceAs (Decidable (∀ action ∈ (b.server.runs c).todo, action.isClear = false))
  | .server _ => inferInstanceAs (Decidable True)

end BranchState

namespace ServerState

/-- Behind its script, the context of a run registers nothing and only works off its actions. -/
theorem RunMove.behind_script {expects : ByteString → ByteString → Bool} {mode : Bool} {s t : ServerState} {c : Nat}
    {run run' : MeasurementRun} {label : ServerLabel} (hmove : RunMove expects mode s t c run label run')
    (hphase : run.phase ≠ .script) : run'.phase ≠ .script ∧ run'.todo ⊆ run.todo := by
  have htail : ∀ {action : RunAction} {todo : List RunAction}, run.todo = action :: todo → todo ⊆ run.todo :=
    fun htodo => htodo ▸ List.subset_cons_self _ _
  cases hmove with
  | beginEnqueue hmode hscript op found => exact absurd hscript.1 hphase
  | beginSync hmode hscript op found => exact absurd hscript.1 hphase
  | monitor hmode hscript => exact absurd hscript.1 hphase
  | done hmode hscript => exact absurd hscript.1 hphase
  | fail hscript => exact absurd hscript.1 hphase
  | finish hcall htodo hphase' => exact ⟨by simp, List.Subset.refl _⟩
  | rest | dispatch | send | recordBlock => exact ⟨hphase, List.Subset.refl _⟩
  | noWorker hcall htodo => exact ⟨hphase, htail htodo⟩
  | await hcall htodo hvalue => exact ⟨hphase, htail htodo⟩
  | release hcall htodo => exact ⟨hphase, htail htodo⟩
  | clear hcall htodo => exact ⟨hphase, htail htodo⟩
  | skip hcall htodo => exact ⟨hphase, htail htodo⟩
  | recordCall hcall htodo resp => exact ⟨hphase, htail htodo⟩
  | endBlock hcall htodo => exact ⟨hphase, htail htodo⟩
  | sent hcall hpoint =>
      rw [MeasurementRun.phase_sent, MeasurementRun.sent]
      refine ⟨hphase, ?_⟩
      split
      · rename_i htodo
        exact htail htodo
      · rename_i htodo
        exact htail htodo
      · exact List.Subset.refl _
  | raised hcall hpoint =>
      rw [MeasurementRun.phase_raised, MeasurementRun.raised]
      refine ⟨hphase, ?_⟩
      split <;> exact List.nil_subset _

/-- A context with its script behind it and no barrier to clear leaves its coordinator alone. -/
theorem BarrierMove.untouched {expects : ByteString → ByteString → Bool} {mode : Bool} {c : Nat}
    {run run' : MeasurementRun} {label : ServerLabel} (hmove : BarrierMove expects mode c run label run')
    (hphase : run.phase ≠ .script) (hclear : ∀ action ∈ run.todo, action.isClear = false) :
    run'.registered = run.registered ∧ run'.cleared = run.cleared := by
  cases hmove with
  | keep hnext hcoordinator hregistered hcleared => exact ⟨hregistered, hcleared⟩
  | register hscript hopened hnext hcoordinator hregistered hcleared => exact absurd hscript.1 hphase
  | clear hcall htodo =>
      have hnext := hclear (.clear _) (htodo ▸ List.mem_cons_self)
      simp [RunAction.isClear] at hnext

end ServerState

namespace BranchState

variable {N : JsonLibrary} {expects : ByteString → ByteString → Bool} {enqueueMode : Nat → Bool} {b b' : BranchState}
  {label : BranchLabel}

/-- A job whose branch was left is behind its script and has no barrier left to clear. -/
def LeftInv (b : BranchState) : Prop :=
  ∀ c, b.left c = true → (b.server.runs c).phase ≠ .script ∧ ∀ action ∈ (b.server.runs c).todo, action.isClear = false

theorem LeftInv.init : LeftInv (system N expects enqueueMode).init := by
  intro c hleft
  simp [system] at hleft

theorem LeftInv.step (h : LeftInv b) (hcleared : LeavesCleared b label)
    (hnext : b.step N expects enqueueMode label = some b') : LeftInv b' := by
  cases label with
  | server label =>
      obtain ⟨server, hserver, rfl⟩ := Option.map_eq_some_iff.mp hnext
      intro c hleft
      obtain ⟨hphase, hclear⟩ := h c hleft
      obtain ⟨hphase', htodo⟩ := (ServerState.step_runMove hserver c).behind_script hphase
      exact ⟨hphase', fun action hmem => hclear action (htodo hmem)⟩
  | leave c =>
      obtain ⟨⟨-, hphase, -⟩, heq⟩ := Option.ite_none_right_eq_some.mp hnext
      obtain rfl := Option.some.inj heq
      intro c' hleft
      by_cases hc : c' = c
      · subst hc
        exact ⟨hphase, hcleared⟩
      · exact h c' (by simpa [hc] using hleft)

theorem leftInv_of_reachable (hreach : ReachableWhile (system N expects enqueueMode) LeavesCleared b) : LeftInv b :=
  hreach.invariant LeftInv.init fun _ _ _ h hcleared hnext => h.step hcleared hnext

/-- Once the branch of a job is left, its context has no access to note. -/
theorem LeftInv.noteAccesses (h : LeftInv b) (hnext : b.step N expects enqueueMode label = some b') {c : Nat}
    (hleft : b.left c = true) : noteAccesses c b label b' = [] := by
  have hsame : (b'.server.runs c).registered = (b.server.runs c).registered ∧
      (b'.server.runs c).cleared = (b.server.runs c).cleared := by
    cases label with
    | server label =>
        obtain ⟨server, hserver, rfl⟩ := Option.map_eq_some_iff.mp hnext
        obtain ⟨hphase, hclear⟩ := h c hleft
        exact (ServerState.step_barrierMove hserver c).untouched hphase hclear
    | leave c' =>
        obtain ⟨-, heq⟩ := Option.ite_none_right_eq_some.mp hnext
        obtain rfl := Option.some.inj heq
        exact ⟨rfl, rfl⟩
  simp [BranchState.noteAccesses, hsame]

/-- In every run in which `worker_loop` leaves the branch of a job only when the monitor has no barrier left to clear, every access of the job finds its coordinator alive. -/
theorem coordinator_alive {c : Nat} {s : BranchState × List CoordinatorAccess}
    (hreach : ReachableWhile (observed N expects enqueueMode c) (fun s label => LeavesCleared s.1 label) s) :
    ∀ access ∈ s.2, access.alive = true := by
  refine (@ReachableWhile.logged _ _ _ (system N expects enqueueMode) (noteAccesses c) LeavesCleared LeftInv
    (fun _ log => ∀ access ∈ log, access.alive = true) (fun _ => leftInv_of_reachable) (by simp) ?_ s hreach).2
  intro b b' label log hinv hlog _ hnext access hmem
  rcases List.mem_append.mp hmem with hold | hnew
  · exact hlog access hold
  · cases hleft : b.left c with
    | true =>
        rw [hinv.noteAccesses hnext hleft] at hnew
        simp at hnew
    | false =>
        rcases List.mem_append.mp hnew with hnew | hnew
        · obtain ⟨entry, -, rfl⟩ := List.mem_map.mp hnew
          simp [CoordinatorAccess.alive, hleft]
        · obtain ⟨token, -, rfl⟩ := List.mem_map.mp hnew
          simp [CoordinatorAccess.alive, hleft]

/-- The script of a measure job makes one call and ends, and its monitor begins. -/
def oneCallJob : List ServerLabel :=
  [.begin 0 (.call [bytes "DMM"] ⟨bytes "DMM.MEASURE", .positional []⟩) true] ++ ServerState.sentTo 0 (bytes "DMM") 0 ++
    [.endScript 0]

/-- The worker answers, and the monitor collects the response, releases the worker and clears the barrier. -/
def monitorOneCall : List ServerLabel :=
  ServerState.executedOn (bytes "DMM") ++ [.act 0 true, .act 0 true, .act 0 true]

/-- The branch is left after the monitor is through. -/
theorem coordinator_alive_waiting :
    ∃ s, ReachableWhile (observed .compact (fun _ _ => true) (fun _ => true) 0)
        (fun s label => LeavesCleared s.1 label) s ∧
      s.1.left 0 = true ∧ s.2 = [.registerBarrier 1 true, .clearBarrier 1 true] ∧
      ∀ access ∈ s.2, access.alive = true := by
  obtain ⟨s, hreach, hview⟩ := @ReachableWhile.of_any _ _ (observed .compact (fun _ _ => true) (fun _ => true) 0)
    (fun s label => LeavesCleared s.1 label) _ (oneCallJob.map .server ++ monitorOneCall.map .server ++ [.leave 0])
    (fun s => s.1.left 0 = true && s.2 = [.registerBarrier 1 true, .clearBarrier 1 true]) (by decide +kernel)
  obtain ⟨hleft, hlog⟩ : s.1.left 0 = true ∧ s.2 = [.registerBarrier 1 true, .clearBarrier 1 true] := by
    simpa using hview
  exact ⟨s, hreach, hleft, hlog, coordinator_alive hreach⟩

/-- `worker_loop` goes on to the next job while the monitor waits for the response; the monitor then clears a barrier of a coordinator that is gone. -/
theorem coordinator_gone_oneCallJob :
    ∃ s, Reachable (observed .compact (fun _ _ => true) (fun _ => true) 0) s ∧
      s.2 = [.registerBarrier 1 true, .clearBarrier 1 false] ∧ ¬ ∀ access ∈ s.2, access.alive = true := by
  obtain ⟨s, hreach, hview⟩ := @ReachableWhile.of_any _ _ (observed .compact (fun _ _ => true) (fun _ => true) 0)
    (fun _ _ => True) _ (oneCallJob.map .server ++ [.leave 0] ++ monitorOneCall.map .server)
    (fun s => s.2 = [.registerBarrier 1 true, .clearBarrier 1 false]) (by decide +kernel)
  have hlog : s.2 = [.registerBarrier 1 true, .clearBarrier 1 false] := by simpa using hview
  refine ⟨s, hreach, hlog, fun halive => ?_⟩
  have hgone := halive (.clearBarrier 1 false) (by simp [hlog])
  simp [CoordinatorAccess.alive] at hgone

end BranchState

end InstrumentServer
