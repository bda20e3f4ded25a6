import InstrumentServer.Server.JobQueue

/-!
# Which jobs run together

The invariant that ties the active measure jobs, the detached monitors and the program point of `worker_loop` together. It holds in every run, also in those where a caller cancels the job `worker_loop` has peeked: the queue loses a job there, but no job is started twice, so no job ever has two monitors.
-/

namespace InstrumentServer

open ByteString Transition

namespace WorkerPoint

/-- The body of a measure job is over and its monitor was spawned. -/
def Handed : WorkerPoint → Prop
  | .finishing _ runInfo (.ok _) => runInfo.type = JobManager.measureType
  | _ => False

/-- What the program point says about the type of its job. -/
def Typed (jobType : ByteString) : WorkerPoint → Prop
  | .sleeping _ runInfo _ _ => runInfo.type = jobType ∧ jobType ≠ JobManager.measureType
  | .scripting _ runInfo | .spawning _ runInfo => runInfo.type = jobType ∧ jobType = JobManager.measureType
  | .finishing _ runInfo _ => runInfo.type = jobType
  | _ => True

end WorkerPoint

namespace JobManager

/-! ### The queue, the worker and the monitors -/

/-- What is left of the queue's promises when the peeked job may be canceled. -/
structure QueueSide (m : JobManager) : Prop where
  nodup : m.queue.Nodup
  queued : ∀ jid ∈ m.queue, m.status jid = some .queued
  peeked : ∀ jid, m.worker = .measureWait jid → m.queue.head? = some jid ∨ m.status jid = some .canceled

/-- A job is begun from its start on, and has a monitor from the time it is handed over until the monitor is done. -/
structure MonitorSide (m : JobManager) : Prop where
  body : ∀ jid, m.worker.job? = some jid →
    ∃ info, m.jobs jid = some info ∧ info.status.Begun ∧ m.worker.Typed info.type
  unspawned : ∀ jid, m.worker.job? = some jid → ¬ m.worker.Handed → jid ∉ m.monitors
  activated : ∀ jid runInfo, m.worker = .spawning jid runInfo → jid ∈ m.activeMeasureJobs
  nodup : m.monitors.Nodup
  monitored : ∀ jid ∈ m.monitors, jid ∈ m.activeMeasureJobs ∧ ∃ info, m.jobs jid = some info ∧ info.status.Begun

theorem BodyMove.job_before {m : JobManager} {jid : JobId} {before point : WorkerPoint}
    (hmove : BodyMove m jid before point) : before.job? = some jid ∧ ¬ before.Handed := by
  cases hmove with
  | sleep | script | reject | round | wake | scriptError | spawnError => exact ⟨rfl, id⟩

theorem BodyMove.typed {m : JobManager} {jid : JobId} {info : JobInfo} {before point : WorkerPoint}
    (hmove : BodyMove m jid before point) (hinfo : m.jobs jid = some info) (htyped : before.Typed info.type) :
    point.job? = some jid ∧ point.Typed info.type ∧ ¬ point.Handed ∧
      ∀ other runInfo, point ≠ .spawning other runInfo := by
  have hsame : ∀ {runInfo}, m.jobs jid = some runInfo → runInfo = info := fun h => Option.some.inj (h.symm.trans hinfo)
  cases hmove with
  | sleep hrun htype =>
      obtain rfl := hsame hrun
      exact ⟨rfl, ⟨rfl, by rw [htype]; decide⟩, id, by simp⟩
  | script hrun htype =>
      obtain rfl := hsame hrun
      exact ⟨rfl, ⟨rfl, htype⟩, id, by simp⟩
  | reject hrun =>
      obtain rfl := hsame hrun
      exact ⟨rfl, rfl, id, by simp⟩
  | round => exact ⟨rfl, htyped, id, by simp⟩
  | wake =>
      rename_i outcome
      refine ⟨rfl, htyped.1, ?_, by simp⟩
      cases outcome with
      | ok result => exact fun hmeasure => htyped.2 (htyped.1.symm.trans hmeasure)
      | error err => exact id
  | scriptError | spawnError => exact ⟨rfl, htyped.1, id, by simp⟩

namespace MonitorSide

variable {m m' : JobManager} {label : Label}

theorem init : MonitorSide JobManager.init := by
  constructor <;> simp [JobManager.init, WorkerPoint.job?]

theorem monitored_keeps (h : MonitorSide m) (hkeeps : Keeps m.jobs m'.jobs) {jid : JobId} (hjid : jid ∈ m.monitors) :
    ∃ info, m'.jobs jid = some info ∧ info.status.Begun := by
  obtain ⟨-, info, hinfo, hbegun⟩ := h.monitored jid hjid
  obtain ⟨info', hinfo', -, hbegun'⟩ := hkeeps jid info hinfo
  exact ⟨info', hinfo', hbegun' hbegun⟩

/-- A step that leaves the worker where it is and only takes jobs out of the monitors. -/
theorem frame (h : MonitorSide m) (hkeeps : Keeps m.jobs m'.jobs) (hworker : m'.worker = m.worker)
    (hsub : m'.monitors.Sublist m.monitors)
    (hactive : ∀ jid ∈ m.activeMeasureJobs, jid ∈ m'.monitors ∨ jid ∉ m.monitors → jid ∈ m'.activeMeasureJobs) :
    MonitorSide m' := by
  refine ⟨fun jid hjob => ?_, fun jid hjob hhanded hmem => ?_, fun jid runInfo hspawn => ?_, h.nodup.sublist hsub,
    fun jid hmem => ⟨hactive jid (h.monitored jid (hsub.subset hmem)).1 (Or.inl hmem),
      h.monitored_keeps hkeeps (hsub.subset hmem)⟩⟩
  · rw [hworker] at hjob ⊢
    obtain ⟨info, hinfo, hbegun, htyped⟩ := h.body jid hjob
    obtain ⟨info', hinfo', htype, hbegun'⟩ := hkeeps jid info hinfo
    exact ⟨info', hinfo', hbegun' hbegun, htype ▸ htyped⟩
  · rw [hworker] at hjob hhanded
    exact h.unspawned jid hjob hhanded (hsub.subset hmem)
  · rw [hworker] at hspawn
    refine hactive jid (h.activated jid runInfo hspawn) (Or.inr (h.unspawned jid ?_ ?_))
    · rw [hspawn]
      rfl
    · rw [hspawn]
      exact id

/-- A step that leaves the worker outside every body and takes no monitored job out of the active set. -/
theorem idle (h : MonitorSide m) (hkeeps : Keeps m.jobs m'.jobs) (hjob : m'.worker.job? = none)
    (hmonitors : m'.monitors = m.monitors)
    (hactive : ∀ jid ∈ m.monitors, jid ∈ m.activeMeasureJobs → jid ∈ m'.activeMeasureJobs) : MonitorSide m' := by
  refine ⟨fun jid hjid => ?_, fun jid hjid => ?_, fun jid runInfo hspawn => ?_, hmonitors ▸ h.nodup, fun jid hmem => ?_⟩
  · simp [hjob] at hjid
  · simp [hjob] at hjid
  · simp [hspawn, WorkerPoint.job?] at hjob
  · rw [hmonitors] at hmem
    exact ⟨hactive jid hmem (h.monitored jid hmem).1, h.monitored_keeps hkeeps hmem⟩

/-- A step of the worker to another point in the body of the job `jid`. -/
theorem enter (h : MonitorSide m) (hkeeps : Keeps m.jobs m'.jobs) {jid : JobId} {info : JobInfo}
    (hjob : m'.worker.job? = some jid) (hinfo : m'.jobs jid = some info) (hbegun : info.status.Begun)
    (htyped : m'.worker.Typed info.type) (hunspawned : jid ∉ m.monitors) (hmonitors : m'.monitors = m.monitors)
    (hactive : m.activeMeasureJobs ⊆ m'.activeMeasureJobs)
    (hactivated : ∀ other runInfo, m'.worker = .spawning other runInfo → other ∈ m'.activeMeasureJobs) :
    MonitorSide m' := by
  have hsame : ∀ other, m'.worker.job? = some other → other = jid := fun other hother =>
    Option.some.inj (hother.symm.trans hjob)
  refine ⟨fun other hother => ?_, fun other hother _ => ?_, hactivated, hmonitors ▸ h.nodup, fun other hmem => ?_⟩
  · rw [hsame other hother]
    exact ⟨info, hinfo, hbegun, htyped⟩
  · rw [hsame other hother, hmonitors]
    exact hunspawned
  · rw [hmonitors] at hmem
    exact ⟨hactive (h.monitored other hmem).1, h.monitored_keeps hkeeps hmem⟩

theorem move (h : MonitorSide m) (hq : QueueSide m) (hmove : JobMove m label m') : MonitorSide m' := by
  have hkeeps := hmove.keeps
  cases hmove with
  | submitBegin | submitEnqueue | cancelQueued | cancelRunning | cancelRefused | stop | wait =>
      exact h.frame hkeeps rfl (List.Sublist.refl _) fun jid hjid _ => hjid
  | exit | peek | leave => exact h.idle hkeeps rfl rfl fun jid _ hjid => hjid
  | complete hworker hinfo htype => exact h.idle hkeeps rfl rfl fun jid _ hjid => hjid
  | start hinfo hfrom halone =>
      rename_i jid info
      have hstatus : m.status jid = some .queued ∨ m.status jid = some .canceled := by
        rcases hfrom with hhead | hwait
        · exact Or.inl (hq.queued jid (List.mem_of_head? hhead))
        · exact (hq.peeked jid hwait).imp_left fun hhead => hq.queued jid (List.mem_of_head? hhead)
      have hnot : jid ∉ m.monitors := by
        intro hmem
        obtain ⟨-, info', hinfo', hqueued, hcanceled⟩ := h.monitored jid hmem
        simp [status, hinfo', hqueued, hcanceled] at hstatus
      have hrunning : (m.setJob jid { info with status := .running }).jobs jid =
          some { info with status := .running } := by simp [setJob]
      exact h.enter hkeeps rfl hrunning ⟨by simp, by simp⟩ trivial hnot rfl (Finset.Subset.refl _) (by simp)
  | body hworker hbody =>
      rename_i jid before point
      obtain ⟨hjob, hhanded⟩ := hbody.job_before
      obtain ⟨info, hinfo, hbegun, htyped⟩ := h.body jid (hworker ▸ hjob)
      obtain ⟨hjob', htyped', -, hspawn⟩ := hbody.typed hinfo (hworker ▸ htyped)
      exact h.enter hkeeps hjob' hinfo hbegun htyped' (h.unspawned jid (hworker ▸ hjob) (hworker ▸ hhanded)) rfl
        (Finset.Subset.refl _) fun other runInfo he => absurd he (hspawn other runInfo)
  | activate hworker =>
      rename_i jid runInfo
      obtain ⟨info, hinfo, hbegun, htyped⟩ := h.body jid (by rw [hworker]; rfl)
      rw [hworker] at htyped
      have hnot := h.unspawned jid (by rw [hworker]; rfl) (by rw [hworker]; exact id)
      refine h.enter hkeeps rfl hinfo hbegun htyped hnot rfl (Finset.subset_insert _ _) ?_
      rintro other runInfo' ⟨⟩
      exact Finset.mem_insert_self _ _
  | spawn hworker =>
      rename_i jid runInfo
      obtain ⟨info, hinfo, hbegun, htyped⟩ := h.body jid (by rw [hworker]; rfl)
      rw [hworker] at htyped
      have hnot := h.unspawned jid (by rw [hworker]; rfl) (by rw [hworker]; exact id)
      have hactive := h.activated jid runInfo hworker
      refine ⟨?_, ?_, by simp, ?_, fun other hmem => ?_⟩
      · rintro other ⟨⟩
        exact ⟨info, hinfo, hbegun, htyped.1⟩
      · exact fun other _ hhanded => absurd (htyped.1.trans htyped.2) hhanded
      · exact List.nodup_append.mpr ⟨h.nodup, by simp, fun other hother single hsingle he =>
          hnot (List.mem_singleton.mp hsingle ▸ he ▸ hother)⟩
      · rcases List.mem_append.mp hmem with hold | hnew
        · exact h.monitored other hold
        · rw [List.mem_singleton.mp hnew]
          exact ⟨hactive, info, hinfo, hbegun⟩
  | fail hworker hinfo =>
      rename_i jid info runInfo err
      have hnot := h.unspawned jid (by rw [hworker]; rfl) (by rw [hworker]; exact id)
      refine h.idle hkeeps rfl rfl fun other hmem hactive => ?_
      have hne : other ≠ jid := fun he => hnot (he ▸ hmem)
      show other ∈ if runInfo.type = measureType then m.activeMeasureJobs.erase jid else m.activeMeasureJobs
      split
      · exact Finset.mem_erase.mpr ⟨hne, hactive⟩
      · exact hactive
  | monitorDone hmonitor hinfo =>
      refine h.frame hkeeps rfl List.erase_sublist fun other hactive hother => Finset.mem_erase.mpr ⟨?_, hactive⟩
      rintro rfl
      rcases hother with hmem | hnot
      · exact (List.Nodup.not_mem_erase h.nodup) hmem
      · exact hnot hmonitor
  | monitorLost hmonitor hnone =>
      refine h.frame hkeeps rfl List.erase_sublist fun other hactive hother => Finset.mem_erase.mpr ⟨?_, hactive⟩
      rintro rfl
      rcases hother with hmem | hnot
      · exact (List.Nodup.not_mem_erase h.nodup) hmem
      · exact hnot hmonitor

end MonitorSide

namespace QueueSide

variable {m m' : JobManager} {label : Label}

theorem init : QueueSide JobManager.init := by
  constructor <;> simp [JobManager.init]

/-- A step that touches neither the queue nor a status and leaves `measure_cv_.wait` alone. -/
theorem frame (h : QueueSide m) (hqueue : m'.queue = m.queue) (hstatus : ∀ jid, m'.status jid = m.status jid)
    (hpeeked : ∀ jid, m'.worker = .measureWait jid → m.queue.head? = some jid ∨ m.status jid = some .canceled) :
    QueueSide m' := by
  refine ⟨hqueue ▸ h.nodup, fun jid hjid => ?_, fun jid hwait => ?_⟩
  · rw [hstatus]
    exact h.queued jid (hqueue ▸ hjid)
  · rw [hqueue, hstatus]
    exact hpeeked jid hwait

/-- A begun job gets another status of a begun job. -/
theorem setBegun (h : QueueSide m) {jid : JobId} {info info' : JobInfo} (hinfo : m.jobs jid = some info)
    (hbegun : info.status.Begun) (hqueue : m'.queue = m.queue) (hjobs : m'.jobs = (m.setJob jid info').jobs)
    (hworker : ∀ other, m'.worker = .measureWait other → m.worker = .measureWait other) : QueueSide m' := by
  have hold : m.status jid = some info.status := by simp [status, hinfo]
  have hstatus : ∀ other, other ≠ jid → m'.status other = m.status other := by
    intro other hne
    rw [status, hjobs]
    exact (status_setJob m jid other info').trans (if_neg hne)
  refine ⟨hqueue ▸ h.nodup, fun other hother => ?_, fun other hwait => ?_⟩
  · rw [hqueue] at hother
    have hqueued := h.queued other hother
    rw [hstatus other]
    · exact hqueued
    · rintro rfl
      exact hbegun.1 (Option.some.inj (hold.symm.trans hqueued))
  · rw [hqueue]
    refine (h.peeked other (hworker other hwait)).imp_right fun hcanceled => ?_
    rw [hstatus other]
    · exact hcanceled
    · rintro rfl
      exact hbegun.2 (Option.some.inj (hold.symm.trans hcanceled))

theorem submitEnqueue (h : QueueSide m) (hids : IdInv m) {info : JobInfo} (hdraft : info ∈ m.submitting) :
    QueueSide (m.submitEnqueue info) := by
  obtain ⟨hqueued, hnone, -⟩ := hids.drafts info hdraft
  have hold : m.status info.id = none := by simp [status, hnone]
  have hnot : info.id ∉ m.queue := by
    intro hmem
    have := h.queued _ hmem
    simp [hold] at this
  have hself : (m.submitEnqueue info).status info.id = some .queued := by
    simp [status, hids.jobs_submitEnqueue hdraft, hqueued]
  have hother : ∀ jid, jid ≠ info.id → (m.submitEnqueue info).status jid = m.status jid := by
    intro jid hne
    simp [status, hids.jobs_submitEnqueue hdraft, hne]
  refine ⟨?_, fun jid hjid => ?_, fun jid hwait => ?_⟩
  · exact List.nodup_append.mpr ⟨h.nodup, by simp, fun jid hjid single hsingle he =>
      hnot (List.mem_singleton.mp hsingle ▸ he ▸ hjid)⟩
  · by_cases hne : jid = info.id
    · rw [hne]
      exact hself
    · rw [hother jid hne]
      rcases List.mem_append.mp hjid with hmem | hmem
      · exact h.queued jid hmem
      · exact absurd (List.mem_singleton.mp hmem) hne
  · rcases h.peeked jid hwait with hhead | hcanceled
    · left
      show (m.queue ++ [info.id]).head? = some jid
      rw [List.head?_append, hhead]
      rfl
    · right
      rw [hother jid]
      · exact hcanceled
      · rintro rfl
        simp [hold] at hcanceled

theorem cancelQueued (h : QueueSide m) {jid : JobId} {info' : JobInfo} (hcanceled : info'.status = .canceled)
    (hqueue : m'.queue = m.queue.erase jid) (hjobs : m'.jobs = (m.setJob jid info').jobs)
    (hworker : m'.worker = m.worker) : QueueSide m' := by
  have hstatus : ∀ other, m'.status other = if other = jid then some .canceled else m.status other := by
    intro other
    rw [status, hjobs, ← hcanceled]
    exact status_setJob m jid other info'
  refine ⟨hqueue ▸ h.nodup.erase jid, fun other hother => ?_, fun other hwait => ?_⟩
  · obtain ⟨hne, hmem⟩ := h.nodup.mem_erase_iff.mp (hqueue ▸ hother)
    rw [hstatus, if_neg hne]
    exact h.queued other hmem
  · rw [hstatus, hqueue]
    by_cases hother : other = jid
    · exact Or.inr (if_pos hother)
    · rw [if_neg hother]
      refine (h.peeked other (hworker ▸ hwait)).imp_left fun hhead => ?_
      obtain ⟨rest, hrest⟩ := List.head?_eq_some_iff.mp hhead
      rw [hrest, List.erase_cons_tail (by simpa using hother)]
      rfl

theorem start (h : QueueSide m) {jid : JobId} {info' : JobInfo}
    (hfrom : m.queue.head? = some jid ∨ m.worker = .measureWait jid) (hqueue : m'.queue = m.queue.tail)
    (hjobs : m'.jobs = (m.setJob jid info').jobs) (hworker : m'.worker = .started jid) : QueueSide m' := by
  have hnot : jid ∉ m.queue.tail := by
    intro hmem
    have htail := List.mem_of_mem_tail hmem
    rcases hfrom.imp_right (h.peeked jid) with hhead | hhead | hcanceled
    · obtain ⟨rest, hrest⟩ := List.head?_eq_some_iff.mp hhead
      have hnodup := h.nodup
      rw [hrest] at hnodup hmem
      exact (List.nodup_cons.mp hnodup).1 hmem
    · obtain ⟨rest, hrest⟩ := List.head?_eq_some_iff.mp hhead
      have hnodup := h.nodup
      rw [hrest] at hnodup hmem
      exact (List.nodup_cons.mp hnodup).1 hmem
    · simp [h.queued jid htail] at hcanceled
  refine ⟨hqueue ▸ h.nodup.sublist (List.tail_sublist _), fun other hother => ?_, by simp [hworker]⟩
  rw [hqueue] at hother
  have hne : other ≠ jid := fun he => hnot (he ▸ hother)
  rw [status, hjobs]
  exact ((status_setJob m jid other info').trans (if_neg hne)).trans (h.queued other (List.mem_of_mem_tail hother))

theorem move (h : QueueSide m) (hids : IdInv m) (hm : MonitorSide m) (hmove : JobMove m label m') : QueueSide m' := by
  cases hmove with
  | submitBegin | cancelRefused | stop | wait | monitorLost => exact h.frame rfl (fun _ => rfl) h.peeked
  | submitEnqueue hdraft => exact h.submitEnqueue hids hdraft
  | cancelQueued hinfo hstatus => exact h.cancelQueued (by simp) rfl rfl rfl
  | cancelRunning hinfo hstatus =>
      exact h.setBegun hinfo ⟨by simp [hstatus], by simp [hstatus]⟩ rfl rfl fun _ hwait => hwait
  | exit | activate | spawn | leave => exact h.frame rfl (fun _ => rfl) (by simp)
  | peek hhead =>
      refine h.frame rfl (fun _ => rfl) ?_
      rintro other ⟨⟩
      exact Or.inl hhead
  | start hinfo hfrom halone => exact h.start hfrom rfl rfl rfl
  | body hworker hbody =>
      refine h.frame rfl (fun _ => rfl) fun other hwait => ?_
      obtain ⟨info, hinfo, -, htyped⟩ := hm.body _ (hworker ▸ hbody.job_before.1)
      have hjob := (hbody.typed hinfo (hworker ▸ htyped)).1
      obtain rfl : _ = WorkerPoint.measureWait other := hwait
      simp [WorkerPoint.job?] at hjob
  | complete hworker hinfo htype =>
      obtain ⟨info', hinfo', hbegun, -⟩ := hm.body _ (by rw [hworker]; rfl)
      obtain rfl := Option.some.inj (hinfo.symm.trans hinfo')
      exact h.setBegun hinfo hbegun rfl rfl (by simp)
  | fail hworker hinfo =>
      obtain ⟨info', hinfo', hbegun, -⟩ := hm.body _ (by rw [hworker]; rfl)
      obtain rfl := Option.some.inj (hinfo.symm.trans hinfo')
      exact h.setBegun hinfo hbegun rfl rfl (by simp)
  | monitorDone hmonitor hinfo =>
      obtain ⟨-, info', hinfo', hbegun⟩ := hm.monitored _ hmonitor
      obtain rfl := Option.some.inj (hinfo.symm.trans hinfo')
      exact h.setBegun hinfo hbegun rfl rfl fun _ hwait => hwait

end QueueSide

/-- While the server runs, a job that is no measure job is in its body only when no measure job is active. -/
def RunsAlone (m : JobManager) : Prop :=
  m.running = true → ∀ jid info, m.worker.job? = some jid → m.jobs jid = some info → info.type ≠ measureType →
    m.activeMeasureJobs = ∅

/-- The invariant of all runs. -/
structure DispatchInv (m : JobManager) : Prop where
  ids : IdInv m
  queue : QueueSide m
  monitors : MonitorSide m
  alone : RunsAlone m

section Alone

variable {m m' : JobManager} {label : Label}

/-- A step that adds nothing to the active set and leaves the worker in the body it is in, or in none. -/
theorem RunsAlone.frame (h : RunsAlone m) (hbody : MonitorSide m) (hkeeps : Keeps m.jobs m'.jobs)
    (hrunning : m'.running = true → m.running = true)
    (hjob : ∀ jid, m'.worker.job? = some jid → m.worker.job? = some jid)
    (hactive : m'.activeMeasureJobs ⊆ m.activeMeasureJobs) : RunsAlone m' := by
  intro hrun jid info hcurrent hinfo htype
  obtain ⟨old, hold, -, -⟩ := hbody.body jid (hjob jid hcurrent)
  obtain ⟨info', hinfo', hsame, -⟩ := hkeeps jid old hold
  obtain rfl := Option.some.inj (hinfo.symm.trans hinfo')
  have hempty := h (hrunning hrun) jid old (hjob jid hcurrent) hold (hsame ▸ htype)
  exact Finset.subset_empty.mp (hempty ▸ hactive)

theorem RunsAlone.move (h : RunsAlone m) (hm : MonitorSide m) (hmove : JobMove m label m') : RunsAlone m' := by
  have hkeeps := hmove.keeps
  cases hmove with
  | submitBegin | submitEnqueue | cancelQueued | cancelRunning | cancelRefused | wait =>
      exact h.frame hm hkeeps id (fun _ => id) (Finset.Subset.refl _)
  | stop => exact h.frame hm hkeeps (by simp [JobManager.stop]) (fun _ => id) (Finset.Subset.refl _)
  | exit | peek | leave | complete =>
      exact h.frame hm hkeeps id (by simp [WorkerPoint.job?]) (Finset.Subset.refl _)
  | start hinfo hfrom halone =>
      rintro hrunning jid info' ⟨⟩ hinfo' htype
      obtain rfl : _ = info' := by simpa [setJob] using hinfo'
      exact halone hrunning htype
  | body hworker hbody =>
      obtain ⟨info, hinfo, -, htyped⟩ := hm.body _ (hworker ▸ hbody.job_before.1)
      have hjob := (hbody.typed hinfo (hworker ▸ htyped)).1
      refine h.frame hm hkeeps id (fun other hother => ?_) (Finset.Subset.refl _)
      rw [hworker, hbody.job_before.1, ← hjob]
      exact hother
  | activate hworker =>
      obtain ⟨info, hinfo, -, htyped⟩ := hm.body _ (by rw [hworker]; rfl)
      rw [hworker] at htyped
      rintro - jid info' ⟨⟩ hinfo' htype
      obtain rfl := Option.some.inj (hinfo.symm.trans hinfo')
      exact absurd htyped.2 htype
  | spawn hworker =>
      refine h.frame hm hkeeps id (fun other hother => ?_) (Finset.Subset.refl _)
      rw [hworker]
      exact hother
  | fail hworker hinfo =>
      refine h.frame hm hkeeps id (by simp [WorkerPoint.job?]) ?_
      dsimp only
      split
      · exact Finset.erase_subset _ _
      · exact Finset.Subset.refl _
  | monitorDone | monitorLost => exact h.frame hm hkeeps id (fun _ => id) (Finset.erase_subset _ _)

theorem DispatchInv.step (h : DispatchInv m) (hnext : m.step label = some m') : DispatchInv m' :=
  have hmove := step_jobMove hnext
  ⟨h.ids.move hmove, h.queue.move h.ids h.monitors hmove, h.monitors.move h.queue hmove, h.alone.move h.monitors hmove⟩

theorem DispatchInv.init : DispatchInv JobManager.init :=
  ⟨.init, .init, .init, fun _ jid _ hjob => by simp [JobManager.init, WorkerPoint.job?] at hjob⟩

theorem dispatchInv_of_reachable {ok : JobManager → Label → Prop} (hreach : ReachableWhile system ok m) :
    DispatchInv m :=
  hreach.invariant DispatchInv.init fun _ _ _ hinv _ hnext => hinv.step hnext

end Alone

end JobManager

open JobManager in
/-- While the server runs and `worker_loop` executes a job that is no measure job, no measure job is active and no monitor is outstanding. -/
theorem nonMeasure_runs_alone {m : JobManager} (hreach : Reachable system m) (hrunning : m.running = true) {jid : JobId}
    {info : JobInfo} (hjob : m.worker.job? = some jid) (hinfo : m.jobs jid = some info)
    (htype : info.type ≠ measureType) : m.activeMeasureJobs = ∅ ∧ m.monitors = [] := by
  have hinv := dispatchInv_of_reachable hreach
  have hempty := hinv.alone hrunning jid info hjob hinfo htype
  refine ⟨hempty, List.eq_nil_iff_forall_not_mem.mpr fun other hmem => ?_⟩
  have hactive := (hinv.monitors.monitored other hmem).1
  simp [hempty] at hactive

open JobManager in
theorem nonMeasure_runs_alone_cancelOtherRun :
    ∃ m, system.run cancelOtherRun = some m ∧ m.running = true ∧ m.worker.job? = some (makeJobId 0 2) ∧
      m.activeMeasureJobs = ∅ ∧ m.monitors = [] := by
  have hview : (system.run cancelOtherRun).map
      (fun m => (m.running, m.worker.job?, (m.jobs (makeJobId 0 2)).map JobInfo.type)) =
      some (true, some (makeJobId 0 2), some sleepType) := by decide
  obtain ⟨m, hm, hfields⟩ := Option.map_eq_some_iff.mp hview
  obtain ⟨hrunning, hfields⟩ := Prod.mk.inj hfields
  obtain ⟨hjob, htypes⟩ := Prod.mk.inj hfields
  obtain ⟨info, hinfo, htype⟩ := Option.map_eq_some_iff.mp htypes
  have hsleep : info.type ≠ measureType := by
    rw [htype]
    decide
  obtain ⟨hactive, hmonitors⟩ := nonMeasure_runs_alone (reachable_of_run hm) hrunning hjob hinfo hsleep
  exact ⟨m, hm, hrunning, hjob, hactive, hmonitors⟩

end InstrumentServer
