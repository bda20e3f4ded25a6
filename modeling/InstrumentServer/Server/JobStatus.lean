import InstrumentServer.Server.JobDispatch
import Mathlib.Data.List.Chain

/-!
# The life of a job

An observer of one job notes every change of its status and every `cancel_job` of it that returned true. The history is a path of the documented graph in every run in which nobody cancels the job while it runs or while `worker_loop` has peeked it. A cancellation of a running job is requested and never carried out: nothing ever writes `canceled` over `canceling`, a sleep job that notices the request is marked failed, and a measure job is marked completed by its monitor, which does not look.
-/

namespace InstrumentServer

open ByteString Transition

/-- The documented graph of the statuses. -/
inductive JobStatus.Next : JobStatus → JobStatus → Prop where
  | start : Next .queued .running
  | complete : Next .running .completed
  | fail : Next .running .failed
  | cancelQueued : Next .queued .canceled
  | cancelRunning : Next .running .canceling
  | abort : Next .canceling .canceled

/-- The statuses that are never left. -/
def JobStatus.Terminal (status : JobStatus) : Prop := status = .completed ∨ status = .failed ∨ status = .canceled

theorem JobStatus.Next.not_terminal {old new : JobStatus} (h : old.Next new) : ¬ old.Terminal := by
  rintro (rfl | rfl | rfl) <;> cases h

/-- What the observer of a job notes. -/
inductive JobEntry where
  | became (status : JobStatus)
  /-- `cancel_job` returned true -/
  | cancelGranted
deriving DecidableEq

def JobEntry.status? : JobEntry → Option JobStatus
  | .became status => some status
  | .cancelGranted => none

namespace JobManager

/-- What is noted when the status changes. -/
def changeNote (old new : Option JobStatus) : List JobEntry := if new = old then [] else new.toList.map .became

/-- What is noted of a call of `cancel_job`. -/
def grantNote (jid : JobId) (m : JobManager) : Label → List JobEntry
  | .cancelJob other => if other = jid ∧ (m.cancelJob jid).2 = true then [.cancelGranted] else []
  | _ => []

def noteJob (jid : JobId) (m : JobManager) (label : Label) (m' : JobManager) : List JobEntry :=
  changeNote (m.status jid) (m'.status jid) ++ grantNote jid m label

/-- The job manager with the history of one job. -/
def observed (jid : JobId) : System (JobManager × List JobEntry) Label := system.logged (noteJob jid)

/-- The statuses of the job, in order. -/
def statusHistory (log : List JobEntry) : List JobStatus := log.filterMap JobEntry.status?

/-- What the documentation promises about the history of a job. -/
structure LawfulHistory (log : List JobEntry) : Prop where
  /-- it begins with `queued` and follows the graph -/
  first : ∀ status, (statusHistory log).head? = some status → status = .queued
  path : (statusHistory log).IsChain JobStatus.Next
  /-- a terminal status is the last one -/
  terminal : ∀ before status after, statusHistory log = before ++ status :: after → status.Terminal → after = []
  /-- a job whose cancellation was granted does not complete afterwards -/
  canceled : log.Pairwise fun entry later => entry = .cancelGranted → later ≠ .became .completed

/-- No caller cancels the job while it is running or while `worker_loop` has peeked it. -/
def CancelsWaiting (jid : JobId) (m : JobManager) : Label → Prop
  | .cancelJob other => other = jid → m.status jid ≠ some .running ∧ m.worker.peeked? ≠ some jid
  | _ => True

instance (jid : JobId) (m : JobManager) (label : Label) : Decidable (CancelsWaiting jid m label) :=
  match label with
  | .cancelJob other =>
      inferInstanceAs (Decidable (other = jid → m.status jid ≠ some .running ∧ m.worker.peeked? ≠ some jid))
  | .submitBegin _ _ _ | .submitEnqueue _ | .stop | .worker _ _ | .monitorDone _ _ => inferInstanceAs (Decidable True)

/-! ### One step -/

/-- A step of one job: nothing, its submission, or an edge of the graph. -/
inductive StatusStep : Option JobStatus → Option JobStatus → Prop where
  | same {status : Option JobStatus} : StatusStep status status
  | submit : StatusStep none (some .queued)
  | next {old new : JobStatus} (hnext : old.Next new) : StatusStep (some old) (some new)

/-- The job is queued while it is peeked, and running while its body or its monitor is under way. -/
structure RunningInv (jid : JobId) (m : JobManager) : Prop where
  peeked : m.worker = .measureWait jid → m.status jid = some .queued
  current : m.worker.job? = some jid → ¬ m.worker.Handed → m.status jid = some .running
  monitored : jid ∈ m.monitors → m.status jid = some .running

section Step

variable {jid : JobId} {m m' : JobManager} {label : Label}

theorem status_of_jobs {info : JobInfo} (hinfo : m.jobs jid = some info) : m.status jid = some info.status := by
  simp [status, hinfo]

/-- The status of a job that the table is changed at. -/
theorem status_of_setJob {info' : JobInfo} (hjobs : m'.jobs = (m.setJob jid info').jobs) :
    m'.status jid = some info'.status := by
  rw [status, hjobs]
  exact (status_setJob m jid jid info').trans (if_pos rfl)

/-- Where the table is changed at one job, the statuses of the others stay. -/
theorem status_of_setJob_ne {other : JobId} {info' : JobInfo} (hjobs : m'.jobs = (m.setJob other info').jobs)
    (hne : jid ≠ other) : m'.status jid = m.status jid := by
  rw [status, hjobs]
  exact (status_setJob m other jid info').trans (if_neg hne)

theorem statusStep_setJob {other : JobId} {info info' : JobInfo} (hinfo : m.jobs other = some info)
    (hjobs : m'.jobs = (m.setJob other info').jobs) (hnext : jid = other → info.status.Next info'.status) :
    StatusStep (m.status jid) (m'.status jid) := by
  by_cases hother : jid = other
  · subst hother
    rw [status_of_jobs hinfo, status_of_setJob hjobs]
    exact .next (hnext rfl)
  · rw [status_of_setJob_ne hjobs hother]
    exact .same

namespace RunningInv

theorem init (jid : JobId) : RunningInv jid JobManager.init := by
  constructor <;> simp [JobManager.init, WorkerPoint.job?]

theorem queued_of_start (h : RunningInv jid m) (hq : QueueSide m)
    (hfrom : m.queue.head? = some jid ∨ m.worker = .measureWait jid) : m.status jid = some .queued :=
  hfrom.elim (fun hhead => hq.queued jid (List.mem_of_head? hhead)) h.peeked

/-- A job at the end of its body that is not handed over is running and has no monitor. -/
theorem running_of_finishing (h : RunningInv jid m) (hm : MonitorSide m) {runInfo : JobInfo}
    {outcome : Except ByteString Json} (hworker : m.worker = .finishing jid runInfo outcome)
    (hhanded : ¬ (WorkerPoint.finishing jid runInfo outcome).Handed) :
    m.status jid = some .running ∧ jid ∉ m.monitors := by
  have hjob : m.worker.job? = some jid := by
    rw [hworker]
    rfl
  rw [← hworker] at hhanded
  exact ⟨h.current hjob hhanded, hm.unspawned jid hjob hhanded⟩

theorem statusStep (h : RunningInv jid m) (hinv : DispatchInv m) (hcancel : CancelsWaiting jid m label)
    (hmove : JobMove m label m') : StatusStep (m.status jid) (m'.status jid) := by
  have hold : ∀ {info status}, m.jobs jid = some info → m.status jid = some status → info.status = status :=
    fun hinfo hstatus => Option.some.inj ((status_of_jobs hinfo).symm.trans hstatus)
  cases hmove with
  | submitBegin | cancelRefused | stop | exit | peek | wait | body | activate | spawn | leave | monitorLost =>
      exact .same
  | submitEnqueue hdraft =>
      rename_i info
      obtain ⟨hqueued, hnone, -⟩ := hinv.ids.drafts info hdraft
      have hjobs := hinv.ids.jobs_submitEnqueue hdraft
      by_cases hjid : jid = info.id
      · subst hjid
        have hunknown : m.status info.id = none := by simp [status, hnone]
        rw [hunknown, status_of_setJob hjobs, hqueued]
        exact .submit
      · rw [status_of_setJob_ne hjobs hjid]
        exact .same
  | cancelQueued hinfo hstatus =>
      refine statusStep_setJob hinfo rfl fun _ => ?_
      rw [hstatus]
      exact .cancelQueued
  | cancelRunning hinfo hstatus =>
      refine statusStep_setJob hinfo rfl ?_
      rintro rfl
      exact absurd (hstatus ▸ status_of_jobs hinfo) (hcancel rfl).1
  | start hinfo hfrom halone =>
      refine statusStep_setJob hinfo rfl ?_
      rintro rfl
      rw [hold hinfo (h.queued_of_start hinv.queue hfrom)]
      exact .start
  | complete hworker hinfo htype =>
      refine statusStep_setJob hinfo rfl ?_
      rintro rfl
      rw [hold hinfo (h.running_of_finishing hinv.monitors hworker htype).1]
      exact .complete
  | fail hworker hinfo =>
      refine statusStep_setJob hinfo rfl ?_
      rintro rfl
      rw [hold hinfo (h.running_of_finishing hinv.monitors hworker id).1]
      exact .fail
  | monitorDone hmonitor hinfo =>
      refine statusStep_setJob hinfo rfl ?_
      rintro rfl
      rw [hold hinfo (h.monitored hmonitor)]
      exact .complete

/-- A step that neither changes the status of the job nor brings the worker or a monitor to it. -/
theorem frame (h : RunningInv jid m) (hstatus : m'.status jid = m.status jid)
    (hpeeked : m'.worker = .measureWait jid → m.worker = .measureWait jid)
    (hjob : m'.worker.job? = some jid → ¬ m'.worker.Handed → m.worker.job? = some jid ∧ ¬ m.worker.Handed)
    (hmonitor : jid ∈ m'.monitors → jid ∈ m.monitors) : RunningInv jid m' := by
  refine ⟨fun hwait => ?_, fun hcurrent hhanded => ?_, fun hmem => ?_⟩
  · rw [hstatus]
    exact h.peeked (hpeeked hwait)
  · obtain ⟨hold, hnot⟩ := hjob hcurrent hhanded
    rw [hstatus]
    exact h.current hold hnot
  · rw [hstatus]
    exact h.monitored (hmonitor hmem)

/-- A step after which neither the worker nor a monitor has the job. -/
theorem free (hpeeked : m'.worker ≠ .measureWait jid) (hjob : m'.worker.job? ≠ some jid) (hmonitor : jid ∉ m'.monitors) :
    RunningInv jid m' :=
  ⟨fun hwait => absurd hwait hpeeked, fun hcurrent => absurd hcurrent hjob, fun hmem => absurd hmem hmonitor⟩

/-- A queued job that is not peeked is nowhere near the worker. -/
theorem free_of_queued (h : RunningInv jid m) (hm : MonitorSide m) (hqueued : m.status jid = some .queued)
    (hpeeked : m.worker.peeked? ≠ some jid) (hworker : m'.worker = m.worker) (hmonitors : m'.monitors = m.monitors) :
    RunningInv jid m' := by
  refine free (fun hwait => ?_) (fun hjob => ?_) fun hmem => ?_
  · rw [hworker] at hwait
    exact hpeeked (by rw [hwait]; rfl)
  · obtain ⟨info, hinfo, hbegun, -⟩ := hm.body jid (hworker ▸ hjob)
    exact hbegun.1 (Option.some.inj ((status_of_jobs hinfo).symm.trans hqueued))
  · have hrunning := h.monitored (hmonitors ▸ hmem)
    simp [hqueued] at hrunning

theorem move (h : RunningInv jid m) (hinv : DispatchInv m) (hcancel : CancelsWaiting jid m label)
    (hmove : JobMove m label m') : RunningInv jid m' := by
  cases hmove with
  | submitBegin | cancelRefused | stop | wait => exact h.frame rfl id (fun hjob hhanded => ⟨hjob, hhanded⟩) id
  | submitEnqueue hdraft =>
      rename_i info
      have hjobs := hinv.ids.jobs_submitEnqueue hdraft
      by_cases hjid : jid = info.id
      · subst hjid
        have hunknown : m.status info.id = none := by simp [status, (hinv.ids.drafts info hdraft).2.1]
        refine free (fun hwait => ?_) (fun hjob => ?_) fun hmem => ?_
        · have hqueued := h.peeked hwait
          simp [hunknown] at hqueued
        · obtain ⟨info', hinfo', -⟩ := hinv.monitors.body _ hjob
          simp [status_of_jobs hinfo'] at hunknown
        · have hrunning := h.monitored hmem
          simp [hunknown] at hrunning
      · exact h.frame (status_of_setJob_ne hjobs hjid) id (fun hjob hhanded => ⟨hjob, hhanded⟩) id
  | cancelQueued hinfo hstatus =>
      rename_i other info
      by_cases hjid : jid = other
      · subst hjid
        exact h.free_of_queued hinv.monitors (hstatus ▸ status_of_jobs hinfo) (hcancel rfl).2 rfl rfl
      · exact h.frame (status_of_setJob_ne rfl hjid) id (fun hjob hhanded => ⟨hjob, hhanded⟩) id
  | cancelRunning hinfo hstatus =>
      rename_i other info
      by_cases hjid : jid = other
      · subst hjid
        exact absurd (hstatus ▸ status_of_jobs hinfo) (hcancel rfl).1
      · exact h.frame (status_of_setJob_ne rfl hjid) id (fun hjob hhanded => ⟨hjob, hhanded⟩) id
  | exit | leave => exact h.frame rfl (by simp) (by simp [WorkerPoint.job?]) id
  | peek hhead =>
      refine ⟨?_, by simp [WorkerPoint.job?], h.monitored⟩
      rintro ⟨⟩
      exact hinv.queue.queued jid (List.mem_of_head? hhead)
  | start hinfo hfrom halone =>
      rename_i other info
      by_cases hjid : jid = other
      · subst hjid
        have hstarted : (m.setJob jid { info with status := .running }).status jid = some .running := status_of_setJob rfl
        exact ⟨by simp, fun _ _ => hstarted, fun _ => hstarted⟩
      · exact h.frame (status_of_setJob_ne rfl hjid) (by simp) (fun hjob => absurd (Option.some.inj hjob).symm hjid) id
  | body hworker hbody =>
      rename_i other before point
      obtain ⟨hjob, hhanded⟩ := hbody.job_before
      obtain ⟨info, hinfo, -, htyped⟩ := hinv.monitors.body other (hworker ▸ hjob)
      obtain ⟨hjob', -, -, -⟩ := hbody.typed hinfo (hworker ▸ htyped)
      refine h.frame rfl (fun hwait => ?_) (fun hcurrent _ => ?_) id
      · obtain rfl : point = .measureWait jid := hwait
        simp [WorkerPoint.job?] at hjob'
      · obtain rfl := Option.some.inj (hjob'.symm.trans hcurrent)
        exact ⟨hworker ▸ hjob, hworker ▸ hhanded⟩
  | activate hworker =>
      refine h.frame rfl (by simp) (fun hjob _ => ?_) id
      rw [hworker]
      exact ⟨hjob, id⟩
  | spawn hworker =>
      rename_i other runInfo
      obtain ⟨info, -, -, htyped⟩ := hinv.monitors.body other (by rw [hworker]; rfl)
      rw [hworker] at htyped
      refine ⟨by simp, fun _ hhanded => absurd (htyped.1.trans htyped.2) hhanded, fun hmem => ?_⟩
      rcases List.mem_append.mp hmem with hold | hnew
      · exact h.monitored hold
      · obtain rfl := List.mem_singleton.mp hnew
        exact h.current (by rw [hworker]; rfl) (by rw [hworker]; exact id)
  | complete hworker hinfo htype =>
      rename_i other info runInfo result
      by_cases hjid : jid = other
      · subst hjid
        exact free (by simp) (by simp [WorkerPoint.job?]) (h.running_of_finishing hinv.monitors hworker htype).2
      · exact h.frame (status_of_setJob_ne rfl hjid) (by simp) (by simp [WorkerPoint.job?]) id
  | fail hworker hinfo =>
      rename_i other info runInfo err
      by_cases hjid : jid = other
      · subst hjid
        exact free (by simp) (by simp [WorkerPoint.job?]) (h.running_of_finishing hinv.monitors hworker id).2
      · exact h.frame (status_of_setJob_ne rfl hjid) (by simp) (by simp [WorkerPoint.job?]) id
  | monitorDone hmonitor hinfo =>
      rename_i other info result
      by_cases hjid : jid = other
      · subst hjid
        have hrunning := h.monitored hmonitor
        refine ⟨fun hwait => ?_, fun hjob hhanded => ?_, fun hmem => ?_⟩
        · simp [h.peeked hwait] at hrunning
        · exact absurd hmonitor (hinv.monitors.unspawned jid hjob hhanded)
        · exact absurd hmem hinv.monitors.nodup.not_mem_erase
      · exact h.frame (status_of_setJob_ne rfl hjid) id (fun hjob hhanded => ⟨hjob, hhanded⟩) List.mem_of_mem_erase
  | monitorLost hmonitor hnone =>
      exact h.frame rfl id (fun hjob hhanded => ⟨hjob, hhanded⟩) List.mem_of_mem_erase

end RunningInv

theorem runningInv_of_reachable (hreach : ReachableWhile system (CancelsWaiting jid) m) :
    DispatchInv m ∧ RunningInv jid m := by
  induction hreach with
  | init => exact ⟨.init, .init jid⟩
  | step _ hcancel hnext ih => exact ⟨ih.1.step hnext, ih.2.move ih.1 hcancel (step_jobMove hnext)⟩

end Step

/-! ### Histories -/

/-- What the history says about the present: its last status, and that a job whose cancellation was granted is canceled. -/
structure HistoryInv (jid : JobId) (m : JobManager) (log : List JobEntry) : Prop where
  last : (statusHistory log).getLast? = m.status jid
  first : ∀ status, (statusHistory log).head? = some status → status = .queued
  path : (statusHistory log).IsChain JobStatus.Next
  granted : .cancelGranted ∈ log → m.status jid = some .canceled
  canceled : log.Pairwise fun entry later => entry = .cancelGranted → later ≠ .became .completed

/-- A terminal status of a path is its last one. -/
theorem terminal_of_path {history : List JobStatus} (hpath : history.IsChain JobStatus.Next)
    (before : List JobStatus) (status : JobStatus) (after : List JobStatus)
    (hsplit : history = before ++ status :: after) (hterminal : status.Terminal) : after = [] := by
  cases after with
  | nil => rfl
  | cons next rest =>
      rw [hsplit] at hpath
      exact absurd hterminal (List.isChain_append_cons_cons.mp hpath).2.1.not_terminal

namespace HistoryInv

variable {jid : JobId} {m m' : JobManager} {label : Label} {log : List JobEntry}

theorem init (jid : JobId) : HistoryInv jid JobManager.init [] := by
  constructor <;> simp [statusHistory, JobManager.init, status]

theorem change (h : HistoryInv jid m log) (hstep : StatusStep (m.status jid) (m'.status jid)) :
    HistoryInv jid m' (log ++ changeNote (m.status jid) (m'.status jid)) := by
  obtain ⟨hlast, hfirst, hpath, hgranted, hcanceled⟩ := h
  generalize m.status jid = old at hstep hlast hgranted ⊢
  generalize hnew : m'.status jid = new at hstep ⊢
  cases hstep with
  | same =>
      rw [changeNote, if_pos rfl, List.append_nil]
      exact ⟨hlast.trans hnew.symm, hfirst, hpath, fun hmem => hnew.trans (hgranted hmem), hcanceled⟩
  | submit =>
      have hempty : statusHistory log = [] := List.getLast?_eq_none_iff.mp hlast
      have hnote : changeNote none (some .queued) = [.became .queued] := rfl
      have hhistory : statusHistory (log ++ [.became .queued]) = [.queued] := by
        rw [statusHistory, List.filterMap_append, ← statusHistory, hempty]
        rfl
      rw [hnote]
      refine ⟨by rw [hhistory, hnew]; rfl, ?_, by simp [hhistory], fun hmem => ?_, ?_⟩
      · rw [hhistory]
        rintro status ⟨⟩
        rfl
      · have hold := hgranted (by simpa using hmem)
        simp at hold
      · refine List.pairwise_append.mpr ⟨hcanceled, by simp, fun entry _ later hlater _ => ?_⟩
        rw [List.mem_singleton.mp hlater]
        simp
  | next hnext =>
      rename_i old new
      have hne : some new ≠ some old := by
        rintro ⟨⟩
        cases hnext
      have hnote : changeNote (some old) (some new) = [.became new] := if_neg hne
      have hhistory : statusHistory (log ++ [.became new]) = statusHistory log ++ [new] := by
        rw [statusHistory, List.filterMap_append]
        rfl
      have hungranted : .cancelGranted ∉ log := by
        intro hmem
        obtain rfl := Option.some.inj (hgranted hmem)
        cases hnext
      rw [hnote]
      refine ⟨by rw [hhistory, hnew, List.getLast?_concat], fun status hhead => ?_, ?_, fun hmem => ?_, ?_⟩
      · rw [hhistory, List.head?_append] at hhead
        cases hcases : (statusHistory log).head? with
        | none => simp [List.head?_eq_none_iff.mp hcases] at hlast
        | some first =>
            rw [hcases] at hhead
            exact hfirst status (hcases.trans hhead)
      · rw [hhistory]
        refine List.isChain_append.mpr ⟨hpath, List.isChain_singleton _, fun left hleft right hright => ?_⟩
        rw [hlast] at hleft
        obtain rfl : left = old := by simpa using hleft.symm
        obtain rfl : right = new := by simpa using hright.symm
        exact hnext
      · exact absurd (by simpa using hmem) hungranted
      · exact List.pairwise_append.mpr ⟨hcanceled, by simp, fun entry hentry later _ he =>
          absurd (he ▸ hentry) hungranted⟩

theorem grant (h : HistoryInv jid m' log) (hstatus : m'.status jid = some .canceled) :
    HistoryInv jid m' (log ++ [.cancelGranted]) := by
  have hhistory : statusHistory (log ++ [.cancelGranted]) = statusHistory log := by
    rw [statusHistory, List.filterMap_append]
    simp [statusHistory, JobEntry.status?]
  refine ⟨hhistory ▸ h.last, hhistory ▸ h.first, hhistory ▸ h.path, fun _ => hstatus, ?_⟩
  refine List.pairwise_append.mpr ⟨h.canceled, by simp, fun entry _ later hlater _ => ?_⟩
  rw [List.mem_singleton.mp hlater]
  simp

/-- A cancellation that is granted while only waiting jobs are canceled marks the job canceled. -/
theorem status_of_granted (hcancel : CancelsWaiting jid m (.cancelJob jid)) (hgranted : (m.cancelJob jid).2 = true) :
    (m.cancelJob jid).1.status jid = some .canceled := by
  cases hinfo : m.jobs jid with
  | none => simp [cancelJob, hinfo] at hgranted
  | some info =>
      cases hstatus : info.status with
      | queued => simp [cancelJob, hinfo, hstatus, status, setJob]
      | running => exact absurd (hstatus ▸ status_of_jobs hinfo) (hcancel rfl).1
      | completed | failed | canceling | canceled => simp [cancelJob, hinfo, hstatus] at hgranted

theorem step (h : HistoryInv jid m log) (hinv : DispatchInv m ∧ RunningInv jid m)
    (hcancel : CancelsWaiting jid m label) (hnext : m.step label = some m') :
    HistoryInv jid m' (log ++ noteJob jid m label m') := by
  have hchange := h.change (hinv.2.statusStep hinv.1 hcancel (step_jobMove hnext))
  rw [noteJob, ← List.append_assoc]
  cases label with
  | cancelJob other =>
      obtain rfl := Option.some.inj hnext
      rw [grantNote]
      split
      · rename_i hgranted
        obtain ⟨rfl, hgranted⟩ := hgranted
        exact hchange.grant (status_of_granted hcancel hgranted)
      · rw [List.append_nil]
        exact hchange
  | submitBegin | submitEnqueue | stop | worker | monitorDone =>
      simpa [grantNote] using hchange

end HistoryInv

end JobManager

open JobManager in
/-- In every run in which nobody cancels the job while it is running or peeked, its history is a path of the documented graph. -/
theorem jobStatus_lawful {jid : JobId} {s : JobManager × List JobEntry}
    (hreach : ReachableWhile (observed jid) (fun s label => CancelsWaiting jid s.1 label) s) : LawfulHistory s.2 := by
  obtain ⟨-, hlast, hfirst, hpath, hgranted, hcanceled⟩ := ReachableWhile.logged (fun _ => runningInv_of_reachable)
    (HistoryInv.init jid) (fun _ _ _ _ hinv hhistory hcancel hnext => hhistory.step hinv hcancel hnext) hreach
  exact ⟨hfirst, hpath, terminal_of_path hpath, hcanceled⟩

open JobManager in
theorem jobStatus_lawful_cancelOtherRun :
    ∃ s, ReachableWhile (observed (makeJobId 0 3)) (fun s label => CancelsWaiting (makeJobId 0 3) s.1 label) s ∧
      s.2 = [.became .queued, .became .canceled, .cancelGranted] ∧ LawfulHistory s.2 := by
  have hview : ((observed (makeJobId 0 3)).runWhile (fun s label => CancelsWaiting (makeJobId 0 3) s.1 label) (init, [])
      cancelOtherRun).map Prod.snd = some [.became .queued, .became .canceled, .cancelGranted] := by decide
  obtain ⟨s, hs, hlog⟩ := Option.map_eq_some_iff.mp hview
  have hreach : ReachableWhile (observed (makeJobId 0 3))
      (fun s label => CancelsWaiting (makeJobId 0 3) s.1 label) s := ReachableWhile.init.run hs
  exact ⟨s, hreach, hlog, jobStatus_lawful hreach⟩

/-- A measure job is dispatched, canceled while its monitor waits, and completed by the monitor. -/
def JobManager.cancelRunningRun : List Label :=
  [.submitBegin measureType (.object [(bytes "script_path", .string (bytes "sweep.lua"))]) 0,
    .submitEnqueue (makeJobId 0 1), .worker true [], .worker true [], .worker true [], .worker true [], .worker true [],
    .cancelJob (makeJobId 0 1), .monitorDone (makeJobId 0 1) .null]

open JobManager in
/-- The job leaves `canceling` for `completed` after its cancellation was granted. -/
theorem jobStatus_unlawful_cancelRunningRun :
    ∃ s, (observed (makeJobId 0 1)).run cancelRunningRun = some s ∧
      Reachable (observed (makeJobId 0 1)) s ∧
      s.2 = [.became .queued, .became .running, .became .canceling, .cancelGranted, .became .completed] ∧
      ¬ LawfulHistory s.2 := by
  have hview : ((observed (makeJobId 0 1)).run cancelRunningRun).map Prod.snd =
      some [.became .queued, .became .running, .became .canceling, .cancelGranted, .became .completed] := by decide
  obtain ⟨s, hs, hlog⟩ := Option.map_eq_some_iff.mp hview
  refine ⟨s, hs, reachable_of_run hs, hlog, fun hlawful => ?_⟩
  have hcanceled := hlawful.canceled
  rw [hlog] at hcanceled
  simp at hcanceled

end InstrumentServer
