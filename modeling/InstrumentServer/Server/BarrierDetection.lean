import InstrumentServer.Lib.Json.Text
import InstrumentServer.Server.Measurement

/-!
# Barriers are registered where no acknowledgement arrives

A run registers its barriers with the coordinator that `handle_measure` or the job's thread put on its stack. The proxies acknowledge to the coordinator of the registry, and nothing is ever registered there. So no acknowledgement completes a barrier, and every barrier of a run stays as it was registered until the run itself clears it.
-/

namespace InstrumentServer

open Ipc Transition

namespace ServerState

/-- Every instrument of the barrier acknowledged the token, and its proxy passed it on. -/
def AllAcked (s : ServerState) (token : SyncToken) (instruments : List ByteString) : Prop :=
  ∀ inst ∈ instruments, ∃ reply ∈ s.acks, reply.token = token ∧ reply.inst = inst

instance (s : ServerState) (token : SyncToken) (instruments : List ByteString) :
    Decidable (s.AllAcked token instruments) :=
  inferInstanceAs (Decidable (∀ inst ∈ instruments, ∃ reply ∈ s.acks, reply.token = token ∧ reply.inst = inst))

/-- How often `handle_ack` reported the token complete. -/
def reports (s : ServerState) (token : SyncToken) : Nat :=
  (s.acks.filter fun reply => reply.token = token ∧ reply.complete = true).length

/-- Once all have acknowledged, completion was reported once and the barrier of the run is gone. -/
def DetectsCompletion (s : ServerState) (c : Nat) (token : SyncToken) (instruments : List ByteString) : Prop :=
  s.AllAcked token instruments → s.reports token = 1 ∧ (s.runs c).coordinator.barriers token = none

end ServerState

/-- A barrier that was registered and not cleared is there, and no one has acknowledged. -/
structure BarrierBooks (run : MeasurementRun) : Prop where
  below : ∀ entry ∈ run.registered, entry.1 < run.ctx.nextSyncToken
  live : ∀ entry ∈ run.registered, entry.1 ∉ run.cleared →
    run.coordinator.barriers entry.1 = some ⟨entry.2.toFinset, ∅⟩

namespace BarrierBooks

variable {run run' : MeasurementRun}

theorem init : BarrierBooks {} := ⟨by simp, by simp⟩

theorem keep (h : BarrierBooks run) (hnext : run'.ctx.nextSyncToken = run.ctx.nextSyncToken)
    (hcoordinator : run'.coordinator = run.coordinator) (hregistered : run'.registered = run.registered)
    (hcleared : run'.cleared = run.cleared) : BarrierBooks run' := by
  refine ⟨?_, ?_⟩
  · rw [hregistered, hnext]
    exact h.below
  · rw [hregistered, hcleared, hcoordinator]
    exact h.live

theorem register (h : BarrierBooks run) (instruments : List ByteString)
    (hnext : run'.ctx.nextSyncToken = run.ctx.nextSyncToken + 1)
    (hcoordinator : run'.coordinator = run.coordinator.registerBarrier run.ctx.nextSyncToken instruments)
    (hregistered : run'.registered = run.registered ++ [(run.ctx.nextSyncToken, instruments)])
    (hcleared : run'.cleared = run.cleared) : BarrierBooks run' := by
  refine ⟨fun entry hentry => ?_, fun entry hentry hlive => ?_⟩
  · rw [hregistered] at hentry
    rw [hnext]
    rcases List.mem_append.mp hentry with hold | hnew
    · exact Nat.lt_succ_of_lt (h.below entry hold)
    · rw [List.mem_singleton.mp hnew]
      exact Nat.lt_succ_self _
  · rw [hregistered] at hentry
    rw [hcleared] at hlive
    rw [hcoordinator]
    rcases List.mem_append.mp hentry with hold | hnew
    · have hne : entry.1 ≠ run.ctx.nextSyncToken := (h.below entry hold).ne
      exact (SyncCoordinator.apply_barriers_of_ne _ (.registerBarrier _ instruments) hne).trans (h.live entry hold hlive)
    · rw [List.mem_singleton.mp hnew]
      exact SyncCoordinator.registerBarrier_self _ _ _

theorem clear (h : BarrierBooks run) (token : SyncToken) (todo : List RunAction) :
    BarrierBooks { run.clearBarrier token with todo } := by
  refine ⟨h.below, fun entry hentry hlive => ?_⟩
  have hlive' : entry.1 ∉ run.cleared ++ [token] := hlive
  rw [List.mem_append, not_or] at hlive'
  have hne : entry.1 ≠ token := fun heq => hlive'.2 (List.mem_singleton.mpr heq)
  exact (SyncCoordinator.apply_barriers_of_ne _ (.clearBarrier token) hne).trans (h.live entry hentry hlive'.1)

theorem move (h : BarrierBooks run) {expects : ByteString → ByteString → Bool} {enqueueMode : Bool} {c : Nat}
    {label : ServerLabel} (hmove : ServerState.BarrierMove expects enqueueMode c run label run') : BarrierBooks run' := by
  cases hmove with
  | keep hnext hcoordinator hregistered hcleared => exact h.keep hnext hcoordinator hregistered hcleared
  | register hscript hopened hnext hcoordinator hregistered hcleared =>
      exact h.register _ hnext hcoordinator hregistered hcleared
  | clear hcall htodo => exact h.clear _ _

end BarrierBooks

namespace ServerState

variable {N : JsonLibrary} {expects : ByteString → ByteString → Bool} {enqueueMode : Nat → Bool} {s t : ServerState}

/-- Nothing is registered with the coordinator of the registry, and it never reports completion. -/
structure Unregistered (s : ServerState) : Prop where
  barriers : ∀ token, s.coordinator.barriers token = none
  silent : ∀ reply ∈ s.acks, reply.complete = false

theorem Unregistered.step (h : Unregistered s) {label : ServerLabel}
    (hnext : s.step N expects enqueueMode label = some t) : Unregistered t := by
  have hsame : t.coordinator = s.coordinator → t.acks = s.acks → Unregistered t := by
    intro hcoordinator hacks
    exact ⟨hcoordinator ▸ h.barriers, hacks ▸ h.silent⟩
  cases label with
  | listen inst =>
      obtain ⟨⟨l, token⟩, -, rfl⟩ := Option.map_eq_some_iff.mp hnext
      cases token with
      | none => exact hsame rfl rfl
      | some token =>
          have hack : s.coordinator.handleAck token inst = (s.coordinator, false) :=
            SyncCoordinator.handleAck_of_none (h.barriers token)
          refine ⟨?_, fun reply hreply => ?_⟩
          · show ∀ token', (s.coordinator.handleAck token inst).1.barriers token' = none
            rw [hack]
            exact h.barriers
          · rcases List.mem_append.mp hreply with hold | hnew
            · exact h.silent reply hold
            · rw [List.mem_singleton.mp hnew, hack]
  | act c found =>
      obtain ⟨⟨hcoordinator, hacks⟩, -⟩ := @act_effects N _ _ _ _ hnext
      exact hsame hcoordinator hacks
  | endCall c =>
      obtain ⟨_, -, ⟨-, rfl⟩ | ⟨-, rfl⟩⟩ := endCall_cases hnext
      · exact hsame rfl rfl
      · exact hsame rfl rfl
  | timeout c =>
      obtain ⟨_, _, _, _, _, -, -, -, rfl⟩ := timeout_cases hnext
      exact hsame rfl rfl
  | _ =>
      obtain ⟨_, -, rfl⟩ := Option.map_eq_some_iff.mp hnext
      exact hsame rfl rfl

theorem unregistered_of_reachable (hreach : Reachable (system N expects enqueueMode) s) : Unregistered s :=
  hreach.invariant ⟨fun _ => rfl, by simp [system]⟩ fun _ _ _ h hnext => h.step hnext

theorem barrierBooks_of_reachable (hreach : Reachable (system N expects enqueueMode) s) (c : Nat) :
    BarrierBooks (s.runs c) := by
  have hall : ∀ c, BarrierBooks (s.runs c) :=
    @Reachable.invariant _ _ _ (fun s => ∀ c, BarrierBooks (s.runs c)) (fun _ => .init)
      (fun s t label h hnext c => (h c).move (step_barrierMove hnext c)) s hreach
  exact hall c

/-- No run ever learns from the coordinator that its barrier is complete: at a token that all instruments have acknowledged, nothing was reported, and the barrier is there until the run clears it. -/
theorem barrier_completion_undetected (hreach : Reachable (system N expects enqueueMode) s) {c : Nat}
    {token : SyncToken} {instruments : List ByteString} (hregistered : (token, instruments) ∈ (s.runs c).registered)
    (hacked : s.AllAcked token instruments) :
    ¬ s.DetectsCompletion c token instruments ∧ s.reports token = 0 ∧
      (token ∉ (s.runs c).cleared → (s.runs c).coordinator.hasBarrier token = true) := by
  have hreports : s.reports token = 0 := by
    rw [reports, List.length_eq_zero_iff, List.filter_eq_nil_iff]
    intro reply hreply
    simp [(unregistered_of_reachable hreach).silent reply hreply]
  refine ⟨fun hdetects => ?_, hreports, fun hcleared => ?_⟩
  · have hone := (hdetects hacked).1
    omega
  · rw [SyncCoordinator.hasBarrier, (barrierBooks_of_reachable hreach c).live _ hregistered hcleared]
    rfl

/-- A measure job calls its only instrument. -/
def singleCallRun : List ServerLabel :=
  [.begin 0 (.call [bytes "DMM"] ⟨bytes "DMM.MEASURE", .positional []⟩) true] ++ sentTo 0 (bytes "DMM") 0 ++
    executedOn (bytes "DMM")

/-- A measure request runs a block on two instruments. -/
def syncBlockRun : List ServerLabel :=
  [.begin 0 (.parallel [] [⟨bytes "Scope.READ", .positional []⟩, ⟨bytes "DMM.MEASURE", .positional []⟩]) true] ++
    sentTo 0 (bytes "Scope") 0 ++ sentTo 0 (bytes "DMM") 0 ++ executedOn (bytes "DMM") ++ executedOn (bytes "Scope")

theorem barrier_completion_undetected_syncBlock :
    ∃ s, Reachable (system .compact (fun _ _ => true) fun _ => false) s ∧
      s.AllAcked 1 [bytes "Scope", bytes "DMM"] ∧ ¬ s.DetectsCompletion 0 1 [bytes "Scope", bytes "DMM"] := by
  obtain ⟨s, hreach, hview⟩ := @ReachableWhile.of_any _ _ (system .compact (fun _ _ => true) fun _ => false)
    (fun _ _ => True) _ syncBlockRun
    (fun s => (s.runs 0).registered = [(1, [bytes "Scope", bytes "DMM"])] && s.AllAcked 1 [bytes "Scope", bytes "DMM"])
    (by decide +kernel)
  obtain ⟨hregistered, hacked⟩ : (s.runs 0).registered = [(1, [bytes "Scope", bytes "DMM"])] ∧
    s.AllAcked 1 [bytes "Scope", bytes "DMM"] := by simpa using hview
  exact ⟨s, hreach, hacked, (barrier_completion_undetected hreach (by simp [hregistered]) hacked).1⟩

/-- The only instrument of a job has acknowledged, and the job does not learn of it. -/
theorem completion_undetected_singleCall :
    ¬ ∀ s, Reachable (system .compact (fun _ _ => true) fun _ => true) s → ∀ c token instruments,
      (token, instruments) ∈ (s.runs c).registered → token ∉ (s.runs c).cleared → s.DetectsCompletion c token instruments := by
  intro hdetects
  obtain ⟨s, hreach, hview⟩ := @ReachableWhile.of_any _ _ (system .compact (fun _ _ => true) fun _ => true)
    (fun _ _ => True) _ singleCallRun
    (fun s => (s.runs 0).registered = [(1, [bytes "DMM"])] && (s.runs 0).cleared = [] &&
      s.AllAcked 1 [bytes "DMM"] && s.reports 1 = 0) (by decide +kernel)
  obtain ⟨⟨⟨hregistered, hcleared⟩, hacked⟩, hreports⟩ : (((s.runs 0).registered = [(1, [bytes "DMM"])] ∧
    (s.runs 0).cleared = []) ∧ s.AllAcked 1 [bytes "DMM"]) ∧ s.reports 1 = 0 := by simpa using hview
  have hdetected := hdetects s hreach 0 1 [bytes "DMM"] (by simp [hregistered]) (by simp [hcleared]) hacked
  rw [hreports] at hdetected
  exact absurd hdetected.1 (by decide)

end ServerState

end InstrumentServer
