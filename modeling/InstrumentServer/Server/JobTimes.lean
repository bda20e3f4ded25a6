import InstrumentServer.Server.JobRecords

/-!
# What the records of the jobs tell

What a step does to the record of one job, said once: `RecordStep`. From it, in every run in which the clock is not set back and the peeked job is not canceled: the time points of every record are in order, a client is told them truthfully unless the job is canceled or about to be, and the record of a finished job never changes again.
-/

namespace InstrumentServer

open HandlerEnd Transition

namespace JobManager

/-- A job that somebody takes care of is not over. -/
def OpenInv (m : JobManager) : Prop :=
  ∀ jid, m.Attended jid → ∀ status, m.status jid = some status → status = .running ∨ status = .canceling

section Open

variable {m m' : JobManager} {label : Label}

theorem OpenInv.frame (h : OpenInv m) (hattended : ∀ jid, m'.Attended jid → m.Attended jid ∨ m'.status jid = some .running)
    (hstatus : ∀ jid, m'.Attended jid → m'.status jid = m.status jid ∨ m'.status jid = some .running ∨
      m'.status jid = some .canceling) : OpenInv m' := by
  intro jid hjid status hnew
  rcases hstatus jid hjid with hsame | hrunning | hcanceling
  · rcases hattended jid hjid with hold | hrunning
    · exact h jid hold status (hsame ▸ hnew)
    · exact Or.inl (Option.some.inj (hnew.symm.trans hrunning))
  · exact Or.inl (Option.some.inj (hnew.symm.trans hrunning))
  · exact Or.inr (Option.some.inj (hnew.symm.trans hcanceling))

/-- A step that takes the worker out of any body. -/
theorem OpenInv.idle (h : OpenInv m) (hjob : m'.worker.job? = none) (hmonitors : m'.monitors = m.monitors)
    (hjobs : m'.jobs = m.jobs) : OpenInv m' := by
  refine h.frame (fun other hother => Or.inl (Or.inl ?_)) fun other _ => Or.inl (by rw [status, status, hjobs])
  rcases hother with hmonitor | ⟨hcurrent, -⟩
  · exact hmonitors ▸ hmonitor
  · simp [hjob] at hcurrent

/-- A step after which nobody takes care of the one job whose status it writes. -/
theorem OpenInv.finish (h : OpenInv m) {jid : JobId} {info : JobInfo} (hjobs : m'.jobs = (m.setJob jid info).jobs)
    (hover : ¬ m'.Attended jid) (hattended : ∀ other, m'.Attended other → m.Attended other) : OpenInv m' := by
  refine h.frame (fun other hother => Or.inl (hattended other hother)) fun other hother => Or.inl ?_
  exact status_of_setJob_ne hjobs fun heq => hover (heq ▸ hother)

theorem OpenInv.step (h : OpenInv m) (hinv : DispatchInv m) (hnext : m.step label = some m') : OpenInv m' := by
  have hmove := step_jobMove hnext
  cases hmove with
  | submitBegin | cancelRefused | stop | wait => exact h
  | submitEnqueue hdraft =>
      rename_i info
      have hjobs := hinv.ids.jobs_submitEnqueue hdraft
      have hnone := (hinv.ids.drafts info hdraft).2.1
      refine h.finish hjobs (fun hattended => ?_) fun _ => id
      rcases hattended with hmonitor | ⟨hjob, -⟩
      · obtain ⟨-, info', hinfo', -⟩ := hinv.monitors.monitored _ hmonitor
        simp [hnone] at hinfo'
      · obtain ⟨info', hinfo', -⟩ := hinv.monitors.body _ hjob
        simp [hnone] at hinfo'
  | cancelQueued hinfo hstatus =>
      rename_i jid info
      refine h.finish rfl (fun hattended => ?_) fun _ => id
      have hopen := h jid hattended _ (hstatus ▸ status_of_jobs hinfo)
      simp at hopen
  | cancelRunning hinfo hstatus =>
      rename_i jid info
      refine h.frame (fun _ => Or.inl) fun other _ => ?_
      by_cases hother : other = jid
      · subst hother
        exact Or.inr (Or.inr (status_of_setJob rfl))
      · exact Or.inl (status_of_setJob_ne rfl hother)
  | exit | peek => exact h.idle (by simp [WorkerPoint.job?]) rfl rfl
  | leave => exact h.idle (by simp [WorkerPoint.job?]) rfl rfl
  | start hinfo hfrom halone =>
      rename_i jid info
      have hrunning : (m.setJob jid { info with status := .running }).status jid = some .running := status_of_setJob rfl
      refine h.frame (fun other hother => ?_) fun other _ => ?_
      · rcases hother with hmonitor | ⟨hjob, -⟩
        · exact Or.inl (Or.inl hmonitor)
        · obtain rfl : jid = other := Option.some.inj hjob
          exact Or.inr hrunning
      · by_cases hother : other = jid
        · subst hother
          exact Or.inr (Or.inl hrunning)
        · exact Or.inl (status_of_setJob_ne rfl hother)
  | body hworker hbody =>
      obtain ⟨hjob, hhanded⟩ := hbody.job_before
      have hsame := hbody.same_job
      refine h.frame (fun other hother => Or.inl ?_) fun _ _ => Or.inl rfl
      refine hother.imp_right fun hcurrent => ?_
      rw [hworker]
      exact ⟨hsame.1.trans (hsame.2.symm.trans hcurrent.1), hhanded⟩
  | activate hworker =>
      refine h.frame (fun other hother => Or.inl ?_) fun _ _ => Or.inl rfl
      refine hother.imp_right fun hcurrent => ?_
      rw [hworker]
      exact ⟨hcurrent.1, id⟩
  | spawn hworker =>
      rename_i jid runInfo
      have hcurrent : m.Attended jid := Or.inr (by rw [hworker]; exact ⟨rfl, id⟩)
      refine h.frame (fun other hother => Or.inl ?_) fun _ _ => Or.inl rfl
      rcases hother with hmonitor | ⟨hjob, -⟩
      · rcases List.mem_append.mp hmonitor with hold | hnew
        · exact Or.inl hold
        · exact List.mem_singleton.mp hnew ▸ hcurrent
      · obtain rfl : jid = other := Option.some.inj hjob
        exact hcurrent
  | complete hworker hinfo htype =>
      rename_i jid info runInfo result
      have hunspawned := hinv.monitors.unspawned jid (by rw [hworker]; rfl) (by rw [hworker]; exact htype)
      refine h.finish rfl (fun hattended => ?_) fun other hother => ?_
      · exact hattended.elim hunspawned fun hcurrent => by simp [WorkerPoint.job?] at hcurrent
      · exact hother.imp_right fun hcurrent => by simp [WorkerPoint.job?] at hcurrent
  | fail hworker hinfo =>
      rename_i jid info runInfo err
      have hunspawned := hinv.monitors.unspawned jid (by rw [hworker]; rfl) (by rw [hworker]; exact id)
      refine h.finish rfl (fun hattended => ?_) fun other hother => ?_
      · exact hattended.elim hunspawned fun hcurrent => by simp [WorkerPoint.job?] at hcurrent
      · exact hother.imp_right fun hcurrent => by simp [WorkerPoint.job?] at hcurrent
  | monitorDone hmonitor hinfo =>
      rename_i jid info result
      refine h.finish rfl (fun hattended => ?_) fun other hother => hother.imp_left List.mem_of_mem_erase
      rcases hattended with hmonitored | ⟨hjob, hhanded⟩
      · exact hinv.monitors.nodup.not_mem_erase hmonitored
      · exact hinv.monitors.unspawned jid hjob hhanded hmonitor
  | monitorLost hmonitor hnone =>
      exact h.frame (fun _ hother => Or.inl (hother.imp_left List.mem_of_mem_erase)) fun _ _ => Or.inl rfl

/-- The jobs that were marked running are those whose status says so. -/
def StartsInv (m : JobManager) : Prop := ∀ jid info, m.jobs jid = some info → (jid ∈ m.starts ↔ info.status.Begun)

theorem mem_starts_append {event : JobEvent} (hevents : m'.events = m.events ++ [event]) {jid : JobId} :
    jid ∈ m'.starts ↔ jid ∈ m.starts ∨ event.start? = some jid := by
  rw [starts, hevents, List.filterMap_append, ← starts, List.mem_append]
  exact or_congr_right (by simp [eq_comm])

/-- A step that writes one record, and no other job than that one starts. -/
theorem StartsInv.setJob (h : StartsInv m) {jid : JobId} {info : JobInfo} {started : Option JobId}
    (hjobs : m'.jobs = (m.setJob jid info).jobs)
    (hstarts : ∀ other, other ∈ m'.starts ↔ other ∈ m.starts ∨ started = some other)
    (halone : ∀ other, started = some other → other = jid)
    (hself : jid ∈ m.starts ∨ started = some jid ↔ info.status.Begun) : StartsInv m' := by
  intro other info' hinfo'
  rw [hjobs] at hinfo'
  rw [hstarts]
  by_cases hother : other = jid
  · subst hother
    obtain rfl : info = info' := by simpa [JobManager.setJob] using hinfo'
    exact hself
  · rw [or_iff_left fun hstarted => hother (halone other hstarted)]
    exact h other info' (by simpa [JobManager.setJob, hother] using hinfo')

/-- A step that writes the record of a started job, which stays begun. -/
theorem StartsInv.setStarted (h : StartsInv m) {jid : JobId} {info : JobInfo} (hjobs : m'.jobs = (m.setJob jid info).jobs)
    (hevents : m'.events = m.events) (hstarted : jid ∈ m.starts) (hbegun : info.status.Begun) : StartsInv m' := by
  refine @setJob m m' h jid info none hjobs (fun other => ?_) (by simp) (iff_of_true (Or.inl hstarted) hbegun)
  simp [starts, hevents]

theorem StartsInv.step (h : StartsInv m) (hinv : QueueInv m) (hnext : m.step label = some m') : StartsInv m' := by
  have hmove := step_jobMove hnext
  cases hmove with
  | submitBegin | cancelRefused | stop | exit | peek | wait | body | activate | spawn | leave | monitorLost => exact h
  | submitEnqueue hdraft =>
      rename_i info
      obtain ⟨hqueued, hnone, -⟩ := hinv.drafts info hdraft
      have hunstarted : info.id ∉ m.starts := by
        intro hstarted
        have hknown := (hinv.known _).mp (hinv.order.subset (List.mem_append_left _ hstarted))
        simp [hnone] at hknown
      exact h.setJob (hinv.ids.jobs_submitEnqueue hdraft) (fun _ => mem_starts_append rfl) (by simp [JobEvent.start?])
        (by simp [JobEvent.start?, hunstarted, JobStatus.Begun, hqueued])
  | @cancelQueued jid info hinfo hstatus =>
      have hunstarted : jid ∉ m.starts := fun hstarted => ((h jid info hinfo).mp hstarted).1 hstatus
      exact h.setJob rfl (fun _ => mem_starts_append rfl) (by simp [JobEvent.start?])
        (by simp [JobEvent.start?, hunstarted, JobStatus.Begun])
  | @cancelRunning jid info hinfo hstatus =>
      have hstarted : jid ∈ m.starts := (h jid info hinfo).mpr (by simp [hstatus, JobStatus.Begun])
      exact h.setStarted rfl rfl hstarted (by simp [JobStatus.Begun])
  | start =>
      exact h.setJob rfl (fun _ => mem_starts_append rfl) (by simp [JobEvent.start?])
        (by simp [JobEvent.start?, JobStatus.Begun])
  | complete hworker | fail hworker =>
      exact h.setStarted rfl rfl (hinv.current _ (by rw [hworker]; rfl)) (by simp [JobStatus.Begun])
  | monitorDone hmonitor => exact h.setStarted rfl rfl (hinv.monitored _ hmonitor) (by simp [JobStatus.Begun])

/-- Only a call of `submit_job` that begins adds to the records that wait for the mutex. -/
theorem JobMove.submitting (hmove : JobMove m label m') :
    (∃ jobType params ms, label = .submitBegin jobType params ms) ∨ ∀ info ∈ m'.submitting, info ∈ m.submitting := by
  cases hmove with
  | submitBegin => exact Or.inl ⟨_, _, _, rfl⟩
  | submitEnqueue => exact Or.inr fun other hmem => (List.mem_filter.mp hmem).1
  | cancelQueued | cancelRunning | cancelRefused | stop | exit | peek | wait | start | body | activate | spawn | leave
    | complete | fail | monitorDone | monitorLost => exact Or.inr fun _ => id

/-- What `worker_loop` does at a wait: nothing to the table, or it starts a job. -/
theorem jobs_of_wait (hwait : m.worker = .waiting ∨ ∃ jid, m.worker = .measureWait jid) {ok : Bool} {what : ByteString}
    (hnext : m.workerStep ok what = some m') :
    (m'.jobs = m.jobs ∧ ∀ jid, m'.worker ≠ .started jid) ∨
      ∃ jid info, m.jobs jid = some info ∧ (m.queue.head? = some jid ∨ m.worker = .measureWait jid) ∧
        m'.jobs = (m.setJob jid { info with status := .running }).jobs ∧ m'.worker = .started jid := by
  have hidle : m.worker.job? = none := by
    obtain hwaiting | ⟨jid, hpeeked⟩ := hwait
    · rw [hwaiting]
      rfl
    · rw [hpeeked]
      rfl
  cases workerStep_move hnext with
  | exit => exact Or.inl ⟨rfl, by simp⟩
  | peek => exact Or.inl ⟨rfl, by simp⟩
  | wait =>
      refine Or.inl ⟨rfl, fun jid hstarted => ?_⟩
      rw [hstarted] at hidle
      simp [WorkerPoint.job?] at hidle
  | start hinfo hfrom halone => exact Or.inr ⟨_, _, hinfo, hfrom, rfl, rfl⟩
  | body hworker hbody =>
      rw [hworker, hbody.same_job.1] at hidle
      simp at hidle
  | activate hworker | spawn hworker | leave hworker | complete hworker | fail hworker =>
      rw [hworker] at hidle
      simp [WorkerPoint.job?] at hidle

/-- Inside a body, short of its end, the worker writes nothing to the table. -/
theorem jobs_of_body {jid : JobId} (hjob : m.worker.job? = some jid)
    (hunfinished : ∀ other runInfo outcome, m.worker ≠ .finishing other runInfo outcome) {ok : Bool} {what : ByteString}
    (hnext : m.workerStep ok what = some m') : m'.jobs = m.jobs := by
  cases workerStep_move hnext with
  | exit | peek | wait | body | activate | spawn | leave => rfl
  | start =>
      have hidle := job?_eq_none_of_step hnext (Or.inr (Or.inr ⟨_, rfl⟩))
      simp [hjob] at hidle
  | complete hworker | fail hworker => exact absurd hworker (hunfinished _ _ _)

end Open

end JobManager

namespace JobRecords

open JobManager

/-! ### One step -/

/-- What a step does to the record of one job. -/
inductive RecordStep (r r' : JobRecords) (now : Int64) (jid : JobId) : Prop where
  | same (hinfo' : r'.manager.jobs jid = r.manager.jobs jid) (htimes : r'.times jid = r.times jid)
  | submitted {info : JobInfo} (hnone : r.manager.jobs jid = none) (hdraft : info ∈ r.manager.submitting)
      (hid : info.id = jid) (hinfo' : r'.manager.jobs jid = some info)
      (htimes : r'.times jid = { createdAt := r.drafted jid })
  | started {info : JobInfo} (hinfo : r.manager.jobs jid = some info) (hstatus : info.status = .queued)
      (hinfo' : r'.manager.jobs jid = some { info with status := .running })
      (htimes : r'.times jid = { r.times jid with startedAt := now })
  | canceled {info : JobInfo} (hinfo : r.manager.jobs jid = some info) (hstatus : info.status = .queued)
      (hinfo' : r'.manager.jobs jid = some { info with status := .canceled, error := bytes "canceled" })
      (htimes : r'.times jid = { r.times jid with finishedAt := now })
  | canceling {info : JobInfo} (hinfo : r.manager.jobs jid = some info) (hstatus : info.status = .running)
      (hinfo' : r'.manager.jobs jid = some { info with status := .canceling }) (htimes : r'.times jid = r.times jid)
  | finished {info : JobInfo} {status : JobStatus} {result : Json} {error : ByteString}
      (hinfo : r.manager.jobs jid = some info) (hopen : info.status = .running ∨ info.status = .canceling)
      (hstatus : status = .completed ∨ status = .failed)
      (hinfo' : r'.manager.jobs jid = some { info with status, result, error })
      (htimes : r'.times jid = { r.times jid with finishedAt := now })

section Step

variable {r r' : JobRecords} {now : Int64} {jid other : JobId}

/-- A step that writes one record: the other records stay. -/
theorem RecordStep.of_setJob {info' : JobInfo} {times : JobTimes}
    (hjobs : r'.manager.jobs = (r.manager.setJob other info').jobs) (htimes : r'.times = Function.update r.times other times)
    (hself : r'.manager.jobs other = some info' → r'.times other = times → RecordStep r r' now other) :
    RecordStep r r' now jid := by
  by_cases hjid : jid = other
  · subst hjid
    exact hself (by simp [hjobs, setJob]) (by simp [htimes])
  · exact .same (by simp [hjobs, setJob, hjid]) (by simp [htimes, hjid])

/-- The invariant of the manager that the steps of a record rest on. -/
structure RecordsInv (r : JobRecords) : Prop where
  queue : QueueInv r.manager
  dispatch : DispatchInv r.manager
  taken : OpenInv r.manager

theorem RecordsInv.open_of_job (h : RecordsInv r) {info : JobInfo} (hinfo : r.manager.jobs jid = some info)
    (hattended : r.manager.Attended jid) : info.status = .running ∨ info.status = .canceling :=
  h.taken jid hattended _ (status_of_jobs hinfo)

theorem RecordsInv.queued_of_start (h : RecordsInv r) {info : JobInfo} (hinfo : r.manager.jobs jid = some info)
    (hfrom : r.manager.queue.head? = some jid ∨ r.manager.worker = .measureWait jid) : info.status = .queued := by
  have hhead : r.manager.queue.head? = some jid := hfrom.elim id (h.queue.peeked jid)
  have hstatus := (h.queue.queued jid).mp (List.mem_of_head? hhead)
  rw [status_of_jobs hinfo] at hstatus
  exact Option.some.inj hstatus

theorem recordStep_cancelJob (jid : JobId) (now : Int64) : RecordStep r (r.cancelJob other now).1 now jid := by
  rw [cancelJob]
  cases hinfo : r.manager.jobs other with
  | none => exact .same (by simp [JobManager.cancelJob, status, hinfo]) (by simp [status, hinfo])
  | some info =>
      cases hstatus : info.status with
      | queued =>
          refine @RecordStep.of_setJob _ _ _ _ other { info with status := .canceled, error := bytes "canceled" }
            { r.times other with finishedAt := now } ?_ ?_ fun hinfo' htimes => .canceled hinfo hstatus hinfo' htimes
          · simp [JobManager.cancelJob, status, hinfo, hstatus, noteFinish, setJob]
          · simp [JobManager.cancelJob, status, hinfo, hstatus, noteFinish]
      | running =>
          refine @RecordStep.of_setJob _ _ _ _ other { info with status := .canceling } (r.times other) ?_ ?_
            fun hinfo' htimes => .canceling hinfo hstatus hinfo' htimes
          · simp [JobManager.cancelJob, status, hinfo, hstatus, setJob]
          · simp [status, hinfo, hstatus]
      | completed | failed | canceling | canceled =>
          exact .same (by simp [JobManager.cancelJob, status, hinfo, hstatus]) (by simp [status, hinfo, hstatus])

theorem RecordsInv.recordStep_afterWait (h : RecordsInv r) (hwait : r.manager.worker = .waiting ∨
      ∃ jid, r.manager.worker = .measureWait jid) {ok : Bool} {what : ByteString} {m : JobManager}
    (hnext : r.manager.workerStep ok what = some m) : RecordStep r (r.afterWait m now) now jid := by
  obtain ⟨hjobs, hnone⟩ | ⟨other, info, hinfo, hfrom, hjobs, hworker⟩ := jobs_of_wait hwait hnext
  · have hafter : r.afterWait m now = { r with manager := m } := by
      rw [afterWait]
      split
      · exact absurd ‹_› (hnone _)
      · rfl
    rw [hafter]
    exact .same (by rw [hjobs]) rfl
  · have hafter : r.afterWait m now = { r with manager := m }.noteStart other now := by rw [afterWait, hworker]
    rw [hafter]
    exact RecordStep.of_setJob hjobs rfl fun hinfo' htimes => .started hinfo (h.queued_of_start hinfo hfrom) hinfo' htimes

theorem RecordsInv.recordStep_afterBody (h : RecordsInv r) {runInfo : JobInfo} {outcome : Except ByteString Json}
    (hworker : r.manager.worker = .finishing other runInfo outcome) :
    RecordStep r (r.afterBody (r.manager.finishBody other runInfo outcome) other runInfo outcome now) now jid := by
  cases hinfo : r.manager.jobs other with
  | none => exact .same (by simp [afterBody, finishBody, hinfo]) (by simp [afterBody, hinfo])
  | some info =>
      cases outcome with
      | ok result =>
          by_cases htype : runInfo.type = measureType
          · exact .same (by simp [afterBody, finishBody, hinfo, htype]) (by simp [afterBody, hinfo, htype])
          · have hattended : r.manager.Attended other := Or.inr (by rw [hworker]; exact ⟨rfl, htype⟩)
            have hafter : ∀ m, r.afterBody m other runInfo (.ok result) now =
                { r with manager := m }.noteFinish other now := by simp [afterBody, hinfo, htype]
            rw [hafter]
            refine @RecordStep.of_setJob _ _ _ _ other { info with status := .completed, result := result } _ ?_ rfl
              fun hinfo' htimes => .finished hinfo (h.open_of_job hinfo hattended) (Or.inl rfl) hinfo' htimes
            simp [finishBody, hinfo, htype, noteFinish, setJob]
      | error err =>
          have hattended : r.manager.Attended other := Or.inr (by rw [hworker]; exact ⟨rfl, id⟩)
          have hafter : ∀ m, r.afterBody m other runInfo (.error err) now =
              { r with manager := m }.noteFinish other now := by simp [afterBody, hinfo]
          rw [hafter]
          refine @RecordStep.of_setJob _ _ _ _ other { info with status := .failed, error := err } _ ?_ rfl
            fun hinfo' htimes => .finished hinfo (h.open_of_job hinfo hattended) (Or.inr rfl) hinfo' htimes
          by_cases htype : runInfo.type = measureType <;> simp [finishBody, hinfo, htype, noteFinish, setJob]

theorem RecordsInv.recordStep_monitorDone (h : RecordsInv r) (hmonitor : other ∈ r.manager.monitors) (result : Json) :
    RecordStep r (r.monitorDone other result now) now jid := by
  obtain ⟨-, info, hinfo, -⟩ := h.dispatch.monitors.monitored other hmonitor
  refine @RecordStep.of_setJob _ _ _ _ other { info with status := .completed, result := result }
    { r.times other with finishedAt := now } ?_ ?_ fun hinfo' htimes =>
      .finished hinfo (h.open_of_job hinfo (Or.inl hmonitor)) (Or.inl rfl) hinfo' htimes
  · simp [monitorDone, JobManager.monitorDone, hinfo, noteFinish, setJob]
  · simp [monitorDone, hinfo, noteFinish]

/-- A step of the records is a step of the manager, and it reads the clock. -/
theorem manager_step {label : Label} (hnext : r.step (label, now) = some r') :
    r.manager.step label = some r'.manager ∧ r'.clock = now := by
  cases label with
  | submitBegin jobType params ms =>
      obtain rfl := Option.some.inj hnext
      exact ⟨rfl, rfl⟩
  | submitEnqueue other =>
      obtain ⟨info, hfind, rfl⟩ := Option.map_eq_some_iff.mp hnext
      exact ⟨Option.map_eq_some_iff.mpr ⟨info, hfind, rfl⟩, rfl⟩
  | cancelJob other =>
      obtain rfl := Option.some.inj hnext
      have hsame := sameBeside_cancelJob { r with clock := now } other now
      exact ⟨congrArg some hsame.manager.symm, hsame.clock⟩
  | stop =>
      obtain rfl := Option.some.inj hnext
      exact ⟨rfl, rfl⟩
  | worker ok what =>
      obtain ⟨m, hm, hsame⟩ := sameBeside_workerStep hnext
      exact ⟨hm.trans (congrArg some hsame.manager.symm), hsame.clock⟩
  | monitorDone other result =>
      simp only [step] at hnext
      split at hnext
      · rename_i hmonitor
        obtain rfl := Option.some.inj hnext
        have hsame := sameBeside_monitorDone { r with clock := now } other result now
        exact ⟨(if_pos hmonitor).trans (congrArg some hsame.manager.symm), hsame.clock⟩
      · simp at hnext

theorem RecordsInv.recordStep (h : RecordsInv r) {label : Label} (hnext : r.step (label, now) = some r') (jid : JobId) :
    RecordStep r r' now jid := by
  have hclock : RecordsInv { r with clock := now } := ⟨h.queue, h.dispatch, h.taken⟩
  suffices RecordStep { r with clock := now } r' now jid by
    cases this with
    | same hinfo' htimes => exact .same hinfo' htimes
    | submitted hnone hdraft hid hinfo' htimes => exact .submitted hnone hdraft hid hinfo' htimes
    | started hinfo hstatus hinfo' htimes => exact .started hinfo hstatus hinfo' htimes
    | canceled hinfo hstatus hinfo' htimes => exact .canceled hinfo hstatus hinfo' htimes
    | canceling hinfo hstatus hinfo' htimes => exact .canceling hinfo hstatus hinfo' htimes
    | finished hinfo hopen hstatus hinfo' htimes => exact .finished hinfo hopen hstatus hinfo' htimes
  cases label with
  | submitBegin jobType params ms =>
      obtain rfl := Option.some.inj hnext
      exact .same rfl rfl
  | submitEnqueue other =>
      obtain ⟨info, hfind, rfl⟩ := Option.map_eq_some_iff.mp hnext
      have hdraft := List.mem_of_find?_eq_some hfind
      have hnone := (h.dispatch.ids.drafts info hdraft).2.1
      refine @RecordStep.of_setJob _ _ _ _ info.id info { createdAt := r.drafted info.id } ?_ ?_
        fun hinfo' htimes => .submitted hnone hdraft rfl hinfo' htimes
      · exact h.dispatch.ids.jobs_submitEnqueue hdraft
      · simp [submitEnqueue, hnone]
  | cancelJob other =>
      obtain rfl := Option.some.inj hnext
      exact recordStep_cancelJob jid now
  | stop =>
      obtain rfl := Option.some.inj hnext
      exact .same rfl rfl
  | worker ok what =>
      obtain ⟨m, hm, rfl⟩ := Option.map_eq_some_iff.mp hnext
      cases hworker : r.manager.worker with
      | waiting => exact hclock.recordStep_afterWait (Or.inl hworker) hm
      | measureWait other => exact hclock.recordStep_afterWait (Or.inr ⟨other, hworker⟩) hm
      | finishing other runInfo outcome =>
          have hfinish : m = r.manager.finishBody other runInfo outcome := by
            rw [JobManager.workerStep, hworker] at hm
            exact (Option.some.inj hm).symm
          rw [hfinish]
          exact hclock.recordStep_afterBody hworker
      | started other | sleeping other _ _ _ | scripting other _ | spawning other _ =>
          have hjobs := @jobs_of_body r.manager _ _ (by rw [hworker]; rfl) (by simp [hworker]) _ _ hm
          exact .same (by rw [hjobs]) rfl
      | exited => simp [JobManager.workerStep, hworker] at hm
  | monitorDone other result =>
      simp only [step] at hnext
      split at hnext
      · rename_i hmonitor
        obtain rfl := Option.some.inj hnext
        exact hclock.recordStep_monitorDone hmonitor result
      · simp at hnext

theorem RecordsInv.step (h : RecordsInv r) {label : Label} (hspares : SparesPeeked r.manager label)
    (hnext : r.step (label, now) = some r') : RecordsInv r' := by
  have hmanager := (manager_step hnext).1
  exact ⟨queueInv_step h.queue hspares hmanager, h.dispatch.step hmanager, h.taken.step h.dispatch hmanager⟩

end Step

/-! ### Runs -/

theorem recordsInv_of_reachable {r : JobRecords} (hreach : ReachableWhile system Steady r) : RecordsInv r := by
  refine hreach.invariant ⟨.init, .init, ?_⟩ fun _ _ label hinv hsteady hnext => hinv.step hsteady.2 hnext
  intro jid hattended
  rcases hattended with hmonitor | ⟨hjob, -⟩
  · simp [system, init, JobManager.init] at hmonitor
  · simp [system, init, JobManager.init, WorkerPoint.job?] at hjob

theorem startsInv_of_reachable {r : JobRecords} (hreach : ReachableWhile system Steady r) : StartsInv r.manager := by
  induction hreach with
  | init => simp [StartsInv, system, init, JobManager.init]
  | step hreach _ hnext ih => exact ih.step (recordsInv_of_reachable hreach).queue (manager_step hnext).1

/-- The time points of a record up to the present. -/
def InOrder (status : JobStatus) (times : JobTimes) (clock : Int64) : Prop :=
  match status with
  | .queued => times.createdAt ≤ clock ∧ times.startedAt = 0 ∧ times.finishedAt = 0
  | .running | .canceling => times.createdAt ≤ times.startedAt ∧ times.startedAt ≤ clock ∧ times.finishedAt = 0
  | .completed | .failed =>
      times.createdAt ≤ times.startedAt ∧ times.startedAt ≤ times.finishedAt ∧ times.finishedAt ≤ clock
  | .canceled => times.createdAt ≤ times.finishedAt ∧ times.finishedAt ≤ clock ∧ times.startedAt = 0

/-- Every record has the id it is stored under, and its time points are in order. -/
structure TimesInv (r : JobRecords) : Prop where
  drafted : ∀ info ∈ r.manager.submitting, r.drafted info.id ≤ r.clock
  stored : ∀ jid info, r.manager.jobs jid = some info → info.id = jid
  inOrder : ∀ jid info, r.manager.jobs jid = some info → InOrder info.status (r.times jid) r.clock

section Times

variable {r r' : JobRecords} {now : Int64} {jid : JobId}

theorem InOrder.mono {status : JobStatus} {times : JobTimes} {clock : Int64} (h : InOrder status times clock)
    (hclock : clock ≤ now) : InOrder status times now := by
  cases status with
  | queued => exact ⟨Int64.le_trans h.1 hclock, h.2⟩
  | running | canceling => exact ⟨h.1, Int64.le_trans h.2.1 hclock, h.2.2⟩
  | completed | failed => exact ⟨h.1, h.2.1, Int64.le_trans h.2.2 hclock⟩
  | canceled => exact ⟨h.1, Int64.le_trans h.2.1 hclock, h.2.2⟩

/-- The record of a job after a step, if it was in order before. -/
theorem RecordStep.inOrder (hstep : RecordStep r r' now jid) (h : TimesInv r) (hqueued : RecordsInv r)
    (hclock : r.clock ≤ now) {info' : JobInfo} (hinfo' : r'.manager.jobs jid = some info') :
    info'.id = jid ∧ InOrder info'.status (r'.times jid) now := by
  cases hstep with
  | same hsame htimes =>
      rw [hsame] at hinfo'
      rw [htimes]
      exact ⟨h.stored jid info' hinfo', (h.inOrder jid info' hinfo').mono hclock⟩
  | submitted hnone hdraft hid hnew htimes =>
      obtain rfl := Option.some.inj (hnew.symm.trans hinfo')
      rw [htimes, (hqueued.dispatch.ids.drafts _ hdraft).1, ← hid]
      exact ⟨rfl, Int64.le_trans (h.drafted _ hdraft) hclock, rfl, rfl⟩
  | @started info hinfo hstatus hnew htimes =>
      obtain rfl := Option.some.inj (hnew.symm.trans hinfo')
      have hbefore := h.inOrder jid _ hinfo
      rw [hstatus] at hbefore
      rw [htimes]
      exact ⟨h.stored jid info hinfo, Int64.le_trans hbefore.1 hclock, Int64.le_refl _, hbefore.2.2⟩
  | @canceled info hinfo hstatus hnew htimes =>
      obtain rfl := Option.some.inj (hnew.symm.trans hinfo')
      have hbefore := h.inOrder jid _ hinfo
      rw [hstatus] at hbefore
      rw [htimes]
      exact ⟨h.stored jid info hinfo, Int64.le_trans hbefore.1 hclock, Int64.le_refl _, hbefore.2.1⟩
  | @canceling info hinfo hstatus hnew htimes =>
      obtain rfl := Option.some.inj (hnew.symm.trans hinfo')
      have hbefore := h.inOrder jid _ hinfo
      rw [hstatus] at hbefore
      rw [htimes]
      exact ⟨h.stored jid info hinfo, hbefore.1, Int64.le_trans hbefore.2.1 hclock, hbefore.2.2⟩
  | @finished info status result error hinfo hopen hstatus hnew htimes =>
      obtain rfl := Option.some.inj (hnew.symm.trans hinfo')
      have hbefore := h.inOrder jid _ hinfo
      have hstarted : (r.times jid).createdAt ≤ (r.times jid).startedAt ∧ (r.times jid).startedAt ≤ r.clock := by
        rcases hopen with hopen | hopen <;> rw [hopen] at hbefore <;> exact ⟨hbefore.1, hbefore.2.1⟩
      have hafter : (r.times jid).createdAt ≤ (r.times jid).startedAt ∧ (r.times jid).startedAt ≤ now ∧ now ≤ now :=
        ⟨hstarted.1, Int64.le_trans hstarted.2 hclock, Int64.le_refl _⟩
      rw [htimes]
      refine ⟨h.stored jid info hinfo, ?_⟩
      rcases hstatus with rfl | rfl <;> exact hafter

/-- The records that wait for the mutex after a step: those of before, and one with the time of the step. -/
theorem drafted_step {label : Label} (hnext : r.step (label, now) = some r') :
    ∀ info ∈ r'.manager.submitting,
      r'.drafted info.id = now ∨ info ∈ r.manager.submitting ∧ r'.drafted info.id = r.drafted info.id := by
  have hmove := step_jobMove (manager_step hnext).1
  have hother : r'.drafted = r.drafted → (∀ jobType params ms, label ≠ .submitBegin jobType params ms) →
      ∀ info ∈ r'.manager.submitting,
        r'.drafted info.id = now ∨ info ∈ r.manager.submitting ∧ r'.drafted info.id = r.drafted info.id := by
    intro hdrafted hlabel info hinfo
    rcases hmove.submitting with ⟨jobType, params, ms, hbegin⟩ | hsub
    · exact absurd hbegin (hlabel jobType params ms)
    · exact Or.inr ⟨hsub info hinfo, congrFun hdrafted _⟩
  cases label with
  | submitBegin jobType params ms =>
      obtain rfl := Option.some.inj hnext
      intro info hinfo
      by_cases hid : info.id = makeJobId ms r.manager.nextId
      · exact Or.inl (by simp [submitBegin, hid])
      · refine Or.inr ⟨(List.mem_append.mp hinfo).resolve_right fun hnew => hid ?_, by simp [submitBegin, hid]⟩
        rw [List.mem_singleton.mp hnew]
  | submitEnqueue other =>
      obtain ⟨info, -, rfl⟩ := Option.map_eq_some_iff.mp hnext
      exact hother rfl (by simp)
  | cancelJob other =>
      obtain rfl := Option.some.inj hnext
      exact hother (sameBeside_cancelJob { r with clock := now } other now).drafted (by simp)
  | stop =>
      obtain rfl := Option.some.inj hnext
      exact hother rfl (by simp)
  | worker ok what =>
      obtain ⟨m, -, hbeside⟩ := sameBeside_workerStep hnext
      exact hother hbeside.drafted (by simp)
  | monitorDone other result =>
      have hmonitor : other ∈ r.manager.monitors := by
        by_contra hnone
        simp [step, hnone] at hnext
      obtain rfl := Option.some.inj ((if_pos hmonitor).symm.trans hnext)
      exact hother (sameBeside_monitorDone { r with clock := now } other result now).drafted (by simp)

theorem TimesInv.step (h : TimesInv r) (hinv : RecordsInv r) {label : Label} (hclock : r.clock ≤ now)
    (hnext : r.step (label, now) = some r') : TimesInv r' := by
  have hnow := (manager_step hnext).2
  refine ⟨fun info hinfo => ?_, fun jid info hinfo => ?_, fun jid info hinfo => ?_⟩
  · rw [hnow]
    rcases drafted_step hnext info hinfo with hnew | ⟨hold, hsame⟩
    · rw [hnew]
      exact Int64.le_refl now
    · rw [hsame]
      exact Int64.le_trans (h.drafted info hold) hclock
  · exact ((hinv.recordStep hnext jid).inOrder h hinv hclock hinfo).1
  · rw [hnow]
    exact ((hinv.recordStep hnext jid).inOrder h hinv hclock hinfo).2

end Times

theorem timesInv_of_reachable {r : JobRecords} (hreach : ReachableWhile system Steady r) : TimesInv r := by
  induction hreach with
  | init => constructor <;> simp [system, init, JobManager.init]
  | step hreach hsteady hnext ih => exact ih.step (recordsInv_of_reachable hreach) hsteady.1 hnext

/-! ### What a client is told -/

theorem millis_mono {a b : Int64} (h : a ≤ b) : millis a ≤ millis b := by
  have hdiv : ∀ time : Int64, (millis time).toInt = time.toInt.tdiv 1000000 := fun time =>
    Int64.toInt_div_of_ne_right time 1000000 (by decide)
  rw [Int64.le_iff_toInt_le] at h ⊢
  rw [hdiv, hdiv]
  exact Int.tdiv_le_tdiv (by decide) h

/-- The times that a reply tells, in the order in which they are to be. -/
def StatusReply.told (reply : StatusReply) : List Int64 :=
  reply.createdAt :: (reply.startedAt.toList ++ reply.finishedAt.toList)

/-- The reply tells a start exactly if there was one, an end exactly if there was one, and no time before an earlier one. -/
structure StatusReply.Truthful (reply : StatusReply) (started ended : Prop) : Prop where
  start : reply.startedAt.isSome = true ↔ started
  finish : reply.finishedAt.isSome = true ↔ ended
  order : reply.told.Pairwise (· ≤ ·)

/-- What the replies for the two other statuses tell: no start of a job that has one, and the epoch as the start of a job that has none. -/
structure StatusReply.TellsOfCancel (reply : StatusReply) (started : Prop) : Prop where
  canceling : reply.status = .canceling → started ∧ reply.startedAt = none ∧ reply.finishedAt = none
  canceled : reply.status = .canceled → ¬ started ∧ reply.startedAt = some 0 ∧
    ∃ finished, reply.finishedAt = some finished ∧ reply.createdAt ≤ finished

theorem StatusReply.tellsOfCancel_of {info : JobInfo} {times : JobTimes} {clock : Int64} {started : Prop}
    (horder : JobRecords.InOrder info.status times clock) (hstarted : started ↔ info.status.Begun) :
    (StatusReply.of info times).TellsOfCancel started := by
  constructor
  · intro (hstatus : info.status = .canceling)
    rw [hstarted, hstatus]
    simp [StatusReply.of, hstatus, JobStatus.Begun]
  · intro (hstatus : info.status = .canceled)
    rw [hstatus] at horder
    rw [hstarted, hstatus]
    refine ⟨by simp [JobStatus.Begun], ?_, millis times.finishedAt, by simp [StatusReply.of, hstatus], millis_mono horder.1⟩
    simp [StatusReply.of, hstatus, horder.2.2, millis]

/-- Of all statuses only these two are told wrongly. -/
theorem StatusReply.truthful_iff {info : JobInfo} {times : JobTimes} {clock : Int64} {started : Prop}
    (horder : JobRecords.InOrder info.status times clock) (hstarted : started ↔ info.status.Begun) :
    (StatusReply.of info times).Truthful started info.status.Terminal ↔
      info.status ≠ .canceling ∧ info.status ≠ .canceled := by
  have htells := tellsOfCancel_of horder hstarted
  constructor
  · intro h
    refine ⟨fun hstatus => ?_, fun hstatus => ?_⟩
    · obtain ⟨hbegun, hnone, -⟩ := htells.canceling hstatus
      simpa [hnone] using h.start.mpr hbegun
    · obtain ⟨hunbegun, hsome, -⟩ := htells.canceled hstatus
      exact hunbegun (h.start.mp (by rw [hsome]; rfl))
  · rintro ⟨hcanceling, hcanceled⟩
    cases hstatus : info.status <;> rw [hstatus] at horder hstarted
    case canceling => exact absurd hstatus hcanceling
    case canceled => exact absurd hstatus hcanceled
    case queued =>
      constructor <;> simp [StatusReply.of, StatusReply.told, hstatus, hstarted, JobStatus.Begun, JobStatus.Terminal]
    case running =>
      constructor <;> simp [StatusReply.of, StatusReply.told, hstatus, hstarted, JobStatus.Begun, JobStatus.Terminal]
      exact millis_mono horder.1
    case completed | failed =>
      constructor <;> simp [StatusReply.of, StatusReply.told, hstatus, hstarted, JobStatus.Begun, JobStatus.Terminal]
      exact ⟨⟨millis_mono horder.1, millis_mono (Int64.le_trans horder.1 horder.2.1)⟩, millis_mono horder.2.1⟩

section Later

variable {r t : JobRecords} {jid : JobId} {params : Json}

theorem jobIdRequest_ne_nil (hparams : jobIdRequest params = .ok jid) :
    params.value Json.getString (bytes "job_id") [] = .ok jid ∧ jid ≠ [] := by
  rw [jobIdRequest] at hparams
  split at hparams
  · simp at hparams
  · split at hparams
    · simp at hparams
    · obtain rfl := Except.ok.inj hparams
      exact ⟨‹_›, ‹_›⟩

theorem handleJobStatus_of_job (hparams : jobIdRequest params = .ok jid) {info : JobInfo}
    (hinfo : r.manager.jobs jid = some info) : r.handleJobStatus params = (StatusReply.of info (r.times jid)).handlerEnd := by
  rw [handleJobStatus, hparams]
  simp [statusReply, getJobInfo, hinfo]

/-- The later runs from a state keep the invariant, and what every step keeps with its help. -/
theorem later_invariant (hreach : ReachableWhile system Steady r) {Inv : JobRecords → Prop} (hinit : Inv r)
    (hstep : ∀ s u label now, RecordsInv s → Inv s → s.step (label, now) = some u → Inv u)
    (hlater : ReachableWhile (system.startingAt r) Steady t) : RecordsInv t ∧ Inv t := by
  refine @ReachableWhile.invariant _ _ (system.startingAt r) Steady (fun s => RecordsInv s ∧ Inv s)
    ⟨recordsInv_of_reachable hreach, hinit⟩ ?_ t hlater
  rintro s u ⟨label, now⟩ ⟨hinv, hs⟩ hsteady hnext
  exact ⟨hinv.step hsteady.2 hnext, hstep s u label now hinv hs hnext⟩

/-- The record of a finished job is never written again. -/
theorem RecordStep.final {s u : JobRecords} {now : Int64} (hstep : RecordStep s u now jid) {info : JobInfo}
    (hinfo : s.manager.jobs jid = some info) (hterminal : info.status.Terminal) :
    u.manager.jobs jid = some info ∧ u.times jid = s.times jid := by
  have hcontra : ∀ {old : JobInfo}, s.manager.jobs jid = some old →
      old.status = .queued ∨ old.status = .running ∨ old.status = .canceling → False := by
    intro old hold hstatus
    obtain rfl := Option.some.inj (hinfo.symm.trans hold)
    rcases hstatus with hstatus | hstatus | hstatus <;> rw [hstatus] at hterminal <;>
      simp [JobStatus.Terminal] at hterminal
  cases hstep with
  | same hsame htimes => exact ⟨hsame.trans hinfo, htimes⟩
  | submitted hnone => simp [hinfo] at hnone
  | started hold hstatus | canceled hold hstatus => exact (hcontra hold (Or.inl hstatus)).elim
  | canceling hold hstatus => exact (hcontra hold (Or.inr (Or.inl hstatus))).elim
  | finished hold hopen => exact (hcontra hold (Or.inr hopen)).elim

/-- What a record keeps from the submission on. -/
theorem RecordStep.kept {s u : JobRecords} {now : Int64} (hstep : RecordStep s u now jid) {info : JobInfo}
    (hinfo : s.manager.jobs jid = some info) :
    (∃ info', u.manager.jobs jid = some info' ∧ info'.id = info.id ∧ info'.type = info.type ∧
      info'.params = info.params) ∧ (u.times jid).createdAt = (s.times jid).createdAt := by
  cases hstep with
  | same hsame htimes => exact ⟨⟨info, hsame.trans hinfo, rfl, rfl, rfl⟩, by rw [htimes]⟩
  | submitted hnone => simp [hinfo] at hnone
  | started hold _ hinfo' htimes | canceled hold _ hinfo' htimes | canceling hold _ hinfo' htimes
    | finished hold _ _ hinfo' htimes =>
      obtain rfl := Option.some.inj (hinfo.symm.trans hold)
      exact ⟨⟨_, hinfo', rfl, rfl, rfl⟩, by rw [htimes]⟩

/-- Going through the submissions is one way to go through the table. -/
def walkOfSubmissions (hreach : ReachableWhile system Steady r) : Walk r.manager where
  order := r.manager.submissions
  nodup := (recordsInv_of_reachable hreach).queue.submissionsNodup
  mem_iff := (recordsInv_of_reachable hreach).queue.known

theorem mem_listJobs {walk : Walk r.manager} {entry : ListEntry} :
    entry ∈ r.listJobs walk ↔ ∃ jid info, r.manager.jobs jid = some info ∧
      entry = ⟨info.id, info.type, info.status, millis (r.times jid).createdAt⟩ := by
  rw [listJobs, List.mem_filterMap]
  constructor
  · rintro ⟨jid, -, hentry⟩
    obtain ⟨info, hinfo, rfl⟩ := Option.map_eq_some_iff.mp hentry
    exact ⟨jid, info, hinfo, rfl⟩
  · rintro ⟨jid, info, hinfo, rfl⟩
    exact ⟨jid, (walk.mem_iff jid).mpr (by rw [hinfo]; rfl), by rw [hinfo]; rfl⟩

theorem map_jobId_listJobs (htimes : TimesInv r) (walk : Walk r.manager) :
    (r.listJobs walk).map ListEntry.jobId = walk.order := by
  have hid : ∀ jid ∈ walk.order, ((r.manager.jobs jid).map fun info =>
      (⟨info.id, info.type, info.status, millis (r.times jid).createdAt⟩ : ListEntry)).map ListEntry.jobId = some jid := by
    intro jid hjid
    obtain ⟨info, hinfo⟩ := Option.isSome_iff_exists.mp ((walk.mem_iff jid).mp hjid)
    rw [hinfo]
    exact congrArg some (htimes.stored jid info hinfo)
  rw [listJobs, List.map_filterMap, List.filterMap_congr hid, List.filterMap_some]

/-- A record from its submission on: with a call that waits for the mutex, or in the table with its type and parameters. -/
def Holds (draft : JobInfo) (s : JobRecords) : Prop :=
  draft ∈ s.manager.submitting ∨ ∃ info, s.manager.jobs draft.id = some info ∧ info.id = draft.id ∧
    info.type = draft.type ∧ info.params = draft.params

theorem Holds.step {draft : JobInfo} {s u : JobRecords} {label : Label} {now : Int64} (h : Holds draft s)
    (hinv : RecordsInv s) (hnext : s.step (label, now) = some u) : Holds draft u := by
  rcases h with hdraft | ⟨info, hinfo, hid, htype, hparams⟩
  · obtain ⟨jobType, params, ms, hbegin⟩ | ⟨info, hmem, henqueue⟩ | ⟨-, hsubmitting, -⟩ :=
      (step_jobMove (manager_step hnext).1).submission_or_same
    · exact Or.inl (hbegin ▸ List.mem_append_left _ hdraft)
    · by_cases hid : draft.id = info.id
      · obtain rfl := List.inj_on_of_nodup_map hinv.dispatch.ids.draftsNodup hdraft hmem hid
        refine Or.inr ⟨draft, ?_, rfl, rfl, rfl⟩
        rw [henqueue, hinv.dispatch.ids.jobs_submitEnqueue hmem, Function.update_self]
      · exact Or.inl (henqueue ▸ List.mem_filter.mpr ⟨hdraft, by simpa using hid⟩)
    · exact Or.inl (hsubmitting ▸ hdraft)
  · obtain ⟨⟨info', hinfo', hid', htype', hparams'⟩, -⟩ := (hinv.recordStep hnext draft.id).kept hinfo
    exact Or.inr ⟨info', hinfo', hid'.trans hid, htype'.trans htype, hparams'.trans hparams⟩

/-- `submit_measure` submits the parameters of the request as they are. -/
theorem submitMeasureRequest_ok {jobType : ByteString} {jobParams : Json}
    (hrequest : submitMeasureRequest params = .ok (jobType, jobParams)) :
    jobType = measureType ∧ (∀ key, jobParams.member? key = params.member? key) ∧
      ∃ scriptPath, scriptPath ≠ [] ∧ paramOr jobParams (bytes "script_path") [] Json.getString = .ok scriptPath := by
  rw [submitMeasureRequest] at hrequest
  split at hrequest
  · simp at hrequest
  · rename_i scriptPath hread
    split at hrequest
    · simp at hrequest
    · rename_i hpath
      cases params with
      | object fields =>
          obtain ⟨rfl, rfl⟩ := Prod.mk.inj (Except.ok.inj hrequest)
          have hfound : SortedAssoc.find? (bytes "script_path") fields = some (.string scriptPath) := by
            rw [Json.value] at hread
            cases hvalue : SortedAssoc.find? (bytes "script_path") fields with
            | none =>
                rw [hvalue] at hread
                exact absurd (Except.ok.inj hread).symm hpath
            | some value =>
                rw [hvalue] at hread
                rw [Json.getString_eq_ok_iff.mp hread]
          refine ⟨rfl, fun key => ?_, scriptPath, hpath, ?_⟩
          · rw [Json.member?, Json.member?, Json.set, SortedAssoc.find?_insert]
            split
            · rename_i hkey
              rw [hkey, hfound]
            · rfl
          · rw [paramOr, Json.set, SortedAssoc.find?_insert, if_pos rfl]
            rfl
      | null | boolean | integer | unsigned | float | string | array => simp [Json.value] at hread

end Later

end JobRecords

open JobRecords in
/-- While the clock is not set back and the peeked job is not canceled, `job_status` tells the times of a job truthfully exactly if the job is neither canceled nor about to be. -/
theorem job_status_truthful_iff {r : JobRecords} (hreach : ReachableWhile system Steady r) {jid : JobId} {info : JobInfo}
    (hinfo : r.manager.jobs jid = some info) {params : Json} (hparams : jobIdRequest params = .ok jid) :
    ∃ reply : StatusReply, r.handleJobStatus params = reply.handlerEnd ∧ reply.jobId = jid ∧
      reply.status = info.status ∧
      (reply.Truthful (jid ∈ r.manager.starts) info.status.Terminal ↔
        info.status ≠ .canceling ∧ info.status ≠ .canceled) ∧
      reply.TellsOfCancel (jid ∈ r.manager.starts) := by
  have htimes := timesInv_of_reachable hreach
  have horder := htimes.inOrder jid info hinfo
  have hstarted := startsInv_of_reachable hreach jid info hinfo
  exact ⟨_, handleJobStatus_of_job hparams hinfo, htimes.stored jid info hinfo, rfl,
    StatusReply.truthful_iff horder hstarted, StatusReply.tellsOfCancel_of horder hstarted⟩

/-- A sleep job of no length is completed: created at 1 ms, started at 3 ms, finished at 5 ms. -/
def JobRecords.sleptRun : List (JobManager.Label × Int64) :=
  [(.submitBegin JobManager.sleepType (.object [(bytes "duration_ms", .integer 0)]) 0, 1000000),
    (.submitEnqueue (JobManager.makeJobId 0 1), 2000000), (.worker true [], 3000000), (.worker true [], 3500000),
    (.worker true [], 4000000), (.worker true [], 5999999)]

open JobRecords in
theorem job_status_truthful_iff_sleptRun :
    ∃ r, ReachableWhile system Steady r ∧
      r.statusReply (JobManager.makeJobId 0 1) = some ⟨JobManager.makeJobId 0 1, .completed, 1, some 3, some 5⟩ ∧
      ∃ reply : StatusReply, r.handleJobStatus JobManager.askForFirst = reply.handlerEnd ∧
        reply.jobId = JobManager.makeJobId 0 1 ∧ reply.status = .completed ∧
        reply.Truthful (JobManager.makeJobId 0 1 ∈ r.manager.starts) (JobStatus.Terminal .completed) := by
  obtain ⟨r, hreach, hview⟩ := @ReachableWhile.of_any _ _ system Steady _ sleptRun
    (fun r => decide (r.statusReply (JobManager.makeJobId 0 1) =
      some ⟨JobManager.makeJobId 0 1, .completed, 1, some 3, some 5⟩)) (by decide +kernel)
  have hreply := of_decide_eq_true hview
  obtain ⟨info, hinfo, hsame⟩ := Option.map_eq_some_iff.mp hreply
  have hcompleted : info.status = .completed := congrArg StatusReply.status hsame
  obtain ⟨reply, hhandled, hid, hstatus, htruthful, -⟩ :=
    @job_status_truthful_iff _ hreach _ _ hinfo JobManager.askForFirst rfl
  rw [hcompleted] at hstatus htruthful
  exact ⟨r, hreach, hreply, reply, hhandled, hid, hstatus, htruthful.mpr ⟨by simp, by simp⟩⟩

open JobRecords in
/-- Once a job is completed, failed or canceled, `job_status` and `job_result` give the same replies ever after, and `job_cancel` refuses and changes nothing. -/
theorem finished_job_final {r : JobRecords} (hreach : ReachableWhile system Steady r) {jid : JobId} {info : JobInfo}
    (hinfo : r.manager.jobs jid = some info) (hterminal : info.status.Terminal) {params : Json}
    (hparams : jobIdRequest params = .ok jid) {t u : JobRecords} (ht : ReachableWhile (system.startingAt r) Steady t)
    (hu : ReachableWhile (system.startingAt r) Steady u) (now : Int64) :
    t.handleJobStatus params = r.handleJobStatus params ∧
      JobManager.handleJobResult t.manager u.manager params = JobManager.handleJobResult r.manager r.manager params ∧
      t.handleJobCancel params now = (t, failed (bytes "failed to cancel job (maybe already finished)")) := by
  have hfinal : ∀ s, ReachableWhile (system.startingAt r) Steady s →
      s.manager.jobs jid = some info ∧ s.times jid = r.times jid := fun s hs =>
    (@later_invariant _ _ hreach (fun s => s.manager.jobs jid = some info ∧ s.times jid = r.times jid) ⟨hinfo, rfl⟩
      (fun s u label now hinv hs hnext => by
        obtain ⟨hjobs, htimes⟩ := (hinv.recordStep hnext jid).final hs.1 hterminal
        exact ⟨hjobs, htimes.trans hs.2⟩) hs).2
  obtain ⟨hinfo', htimes⟩ := hfinal t ht
  refine ⟨?_, ?_, ?_⟩
  · rw [handleJobStatus_of_job hparams hinfo', handleJobStatus_of_job hparams hinfo, htimes]
  · simp only [JobManager.handleJobResult, JobManager.getJobResult, JobManager.getJobInfo, (jobIdRequest_ne_nil hparams).1,
      hinfo, hinfo', (hfinal u hu).1]
  · have hrefused : t.manager.cancelJob jid = (t.manager, false) := by
      rcases hterminal with hstatus | hstatus | hstatus <;> simp [JobManager.cancelJob, hinfo', hstatus]
    have hstatus : t.manager.status jid ≠ some .queued := by
      rw [JobManager.status_of_jobs hinfo']
      rcases hterminal with hstatus | hstatus | hstatus <;> simp [hstatus]
    rw [handleJobCancel, hparams]
    simp only [JobRecords.cancelJob, hrefused, if_neg hstatus]

open JobRecords in
/-- Another job is submitted and canceled behind the completed one. -/
theorem finished_job_final_sleptRun :
    ∃ r t, ReachableWhile system Steady r ∧ ReachableWhile (system.startingAt r) Steady t ∧
      t.manager.status (JobManager.makeJobId 0 2) = some .canceled ∧
      t.handleJobStatus JobManager.askForFirst = r.handleJobStatus JobManager.askForFirst ∧
      JobManager.handleJobResult t.manager t.manager JobManager.askForFirst =
        JobManager.handleJobResult r.manager r.manager JobManager.askForFirst ∧
      t.handleJobCancel JobManager.askForFirst 9000000 =
        (t, failed (bytes "failed to cancel job (maybe already finished)")) := by
  have hview : ((system.runWhile Steady init sleptRun).bind fun r =>
      (system.runWhile Steady r [(.submitBegin JobManager.sleepType .null 0, 6000000),
        (.submitEnqueue (JobManager.makeJobId 0 2), 7000000), (.cancelJob (JobManager.makeJobId 0 2), 8000000)]).map
          fun t => (r.manager.status (JobManager.makeJobId 0 1), t.manager.status (JobManager.makeJobId 0 2))) =
      some (some .completed, some .canceled) := by decide +kernel
  obtain ⟨r, hr, hlater⟩ := Option.bind_eq_some_iff.mp hview
  obtain ⟨t, ht, hstatuses⟩ := Option.map_eq_some_iff.mp hlater
  obtain ⟨hcompleted, hcanceled⟩ := Prod.mk.inj hstatuses
  obtain ⟨info, hinfo, hstatus⟩ := Option.map_eq_some_iff.mp hcompleted
  have hreach : ReachableWhile system Steady r := ReachableWhile.init.run hr
  have hstart : ReachableWhile (system.startingAt r) Steady t := ReachableWhile.startingAt ht
  exact ⟨r, t, hreach, hstart, hcanceled, finished_job_final hreach hinfo (Or.inl hstatus) rfl hstart hstart 9000000⟩

open JobRecords in
/-- In whatever order the table is gone through, the reply to `job_list` has one entry for each submission, tells of each job what `job_status` tells, and later lists it again with its type and the time of its creation. -/
theorem jobs_listed {r : JobRecords} (hreach : ReachableWhile system Steady r) (walk : Walk r.manager) :
    ∃ entries, r.handleJobList walk = listReply entries ∧
      (entries.map ListEntry.jobId).Perm r.manager.submissions ∧
      (∀ entry ∈ entries, ∀ params, jobIdRequest params = .ok entry.jobId →
        ∃ reply : StatusReply, r.handleJobStatus params = reply.handlerEnd ∧ reply.jobId = entry.jobId ∧
          reply.status = entry.status ∧ reply.createdAt = entry.createdAt) ∧
      ∀ t, ReachableWhile (system.startingAt r) Steady t → ∀ walk' : Walk t.manager,
        ∃ entries', t.handleJobList walk' = listReply entries' ∧
          ∀ entry ∈ entries, ∃ status, { entry with status } ∈ entries' := by
  have htimes := timesInv_of_reachable hreach
  refine ⟨r.listJobs walk, rfl, ?_, fun entry hentry params hparams => ?_, fun t ht walk' =>
    ⟨t.listJobs walk', rfl, fun entry hentry => ?_⟩⟩
  · rw [map_jobId_listJobs htimes]
    refine (List.perm_ext_iff_of_nodup walk.nodup (walkOfSubmissions hreach).nodup).mpr fun jid => ?_
    exact (walk.mem_iff jid).trans ((walkOfSubmissions hreach).mem_iff jid).symm
  · obtain ⟨jid, info, hinfo, rfl⟩ := mem_listJobs.mp hentry
    rw [htimes.stored jid info hinfo] at hparams
    exact ⟨.of info (r.times jid), handleJobStatus_of_job hparams hinfo, rfl, rfl, rfl⟩
  · obtain ⟨jid, info, hinfo, rfl⟩ := mem_listJobs.mp hentry
    obtain ⟨-, ⟨info', hinfo', hid, htype⟩, hcreated⟩ := @later_invariant _ _ hreach (fun s =>
        (∃ info', s.manager.jobs jid = some info' ∧ info'.id = info.id ∧ info'.type = info.type) ∧
          (s.times jid).createdAt = (r.times jid).createdAt) ⟨⟨info, hinfo, rfl, rfl⟩, rfl⟩
      (fun s u label now hinv hs hnext => by
        obtain ⟨⟨old, hold, hid, htype⟩, hcreated⟩ := hs
        obtain ⟨⟨info', hinfo', hid', htype', -⟩, hcreated'⟩ := (hinv.recordStep hnext jid).kept hold
        exact ⟨⟨info', hinfo', hid'.trans hid, htype'.trans htype⟩, hcreated'.trans hcreated⟩) ht
    refine ⟨info'.status, mem_listJobs.mpr ⟨jid, info', hinfo', ?_⟩⟩
    rw [hid, htype, hcreated]

open JobRecords in
theorem jobs_listed_sleptRun :
    ∃ r, ReachableWhile system Steady r ∧ r.manager.submissions = [JobManager.makeJobId 0 1] ∧
      ∃ (walk : Walk r.manager) (entries : List ListEntry), r.handleJobList walk = listReply entries ∧
        (entries.map ListEntry.jobId).Perm r.manager.submissions := by
  obtain ⟨r, hreach, hview⟩ := @ReachableWhile.of_any _ _ system Steady _ sleptRun
    (fun r => decide (r.manager.submissions = [JobManager.makeJobId 0 1])) (by decide +kernel)
  obtain ⟨entries, hlisted, hperm, -⟩ := jobs_listed hreach (walkOfSubmissions hreach)
  exact ⟨r, hreach, of_decide_eq_true hview, walkOfSubmissions hreach, entries, hlisted, hperm⟩

section Submission

open JobRecords

variable {r r' t : JobRecords} {jobType : ByteString} {jobParams : Json} {ms : Int} {now : Int64}

/-- What a request submitted is kept from then on. -/
theorem JobRecords.holds_of_submitted (hreach : ReachableWhile system Steady r)
    (hsteady : Steady r (.submitBegin jobType jobParams ms, now))
    (hsubmit : r.step (.submitBegin jobType jobParams ms, now) = some r')
    (hlater : ReachableWhile (system.startingAt r') Steady t) :
    RecordsInv t ∧ Holds ⟨JobManager.makeJobId ms r.manager.nextId, jobType, jobParams, .queued, .null, []⟩ t := by
  refine @later_invariant _ _ (hreach.step hsteady hsubmit)
    (Holds ⟨JobManager.makeJobId ms r.manager.nextId, jobType, jobParams, .queued, .null, []⟩) ?_
    (fun s u label now hinv hs hnext => hs.step hinv hnext) hlater
  obtain rfl := Option.some.inj hsubmit
  exact Or.inl (List.mem_append_right _ (List.mem_singleton.mpr rfl))

/-- The id in the reply to a submission is a `job_id` to ask with. -/
theorem JobRecords.jobIdRequest_submitReply {jid : JobId} (hjid : jid ≠ []) :
    ∃ out, submitReply jid = .returned 0 out ∧ jobIdRequest out = .ok jid := by
  refine ⟨_, rfl, ?_⟩
  have hread : (fields [(bytes "ok", .boolean true), (bytes "job_id", .string jid)]).value Json.getString (bytes "job_id") [] =
      .ok jid := rfl
  rw [jobIdRequest, hread]
  exact if_neg hjid

/-- Once `submit_job` has put a job into the table, the reply to the submission is good to ask `job_status` with, whichever of the two requests it was. -/
theorem JobRecords.submitted_job_found (hreach : ReachableWhile system Steady r) {params : Json}
    (hrequest : submitJobRequest params = .ok (jobType, jobParams) ∨ submitMeasureRequest params = .ok (jobType, jobParams))
    (hsteady : Steady r (.submitBegin jobType jobParams ms, now))
    (hsubmit : r.step (.submitBegin jobType jobParams ms, now) = some r')
    (hlater : ReachableWhile (system.startingAt r') Steady t)
    (hentered : ∀ info ∈ t.manager.submitting, info.id ≠ JobManager.makeJobId ms r.manager.nextId) :
    jobType ≠ [] ∧ ∃ out info, submitReply (JobManager.makeJobId ms r.manager.nextId) = .returned 0 out ∧
      t.manager.jobs (JobManager.makeJobId ms r.manager.nextId) = some info ∧ info.type = jobType ∧
      info.params = jobParams ∧
      t.handleJobStatus out = (StatusReply.of info (t.times (JobManager.makeJobId ms r.manager.nextId))).handlerEnd := by
  obtain ⟨-, hholds⟩ := holds_of_submitted hreach hsteady hsubmit hlater
  obtain ⟨info, hinfo, -, htype, hparams⟩ := hholds.resolve_left fun hdraft => hentered _ hdraft rfl
  have hid : JobManager.makeJobId ms r.manager.nextId ≠ [] := by
    rw [JobManager.makeJobId]
    simp [show bytes "job-" ≠ [] by decide]
  obtain ⟨out, hout, hasked⟩ := jobIdRequest_submitReply hid
  refine ⟨?_, out, info, hout, hinfo, htype, hparams, handleJobStatus_of_job hasked hinfo⟩
  rcases hrequest with hjob | hmeasure
  · rw [submitJobRequest] at hjob
    split at hjob
    · simp at hjob
    · split at hjob
      · simp at hjob
      · rename_i hnamed
        obtain ⟨rfl, -⟩ := Prod.mk.inj (Except.ok.inj hjob)
        exact hnamed
  · rw [(submitMeasureRequest_ok hmeasure).1]
    decide

end Submission

open JobRecords in
/-- A measure job submitted by a request runs the script that the request names, with its parameters, whatever happens in between. -/
theorem submitted_measure_runs {r r' t : JobRecords} (hreach : ReachableWhile system Steady r) {params : Json}
    {jobType : ByteString} {jobParams : Json} (hrequest : submitMeasureRequest params = .ok (jobType, jobParams))
    {ms : Int} {now : Int64} (hsteady : Steady r (.submitBegin jobType jobParams ms, now))
    (hsubmit : r.step (.submitBegin jobType jobParams ms, now) = some r')
    (hlater : ReachableWhile (system.startingAt r') Steady t)
    (hworker : t.manager.worker = .started (JobManager.makeJobId ms r.manager.nextId)) (ok : Bool) (what : ByteString) :
    ∃ runInfo m, t.manager.workerStep ok what = some m ∧
      m.worker = .scripting (JobManager.makeJobId ms r.manager.nextId) runInfo ∧
      ∀ key, runInfo.params.member? key = params.member? key := by
  obtain ⟨rfl, hmember, scriptPath, hpath, hread⟩ := submitMeasureRequest_ok hrequest
  obtain ⟨hinv, hholds⟩ := holds_of_submitted hreach hsteady hsubmit hlater
  obtain ⟨info, hinfo, -, htype, hparams⟩ : ∃ info, t.manager.jobs (JobManager.makeJobId ms r.manager.nextId) = some info ∧
      info.id = JobManager.makeJobId ms r.manager.nextId ∧ info.type = JobManager.measureType ∧ info.params = jobParams := by
    refine hholds.resolve_left fun hdraft => ?_
    obtain ⟨info, hinfo, -⟩ := hinv.dispatch.monitors.body _ (by rw [hworker]; rfl)
    simp [(hinv.dispatch.ids.drafts _ hdraft).2.1] at hinfo
  have hmeasure : JobManager.measureType ≠ JobManager.sleepType := by decide
  refine ⟨info, { t.manager with worker := .scripting _ info }, ?_, rfl, fun key => hparams ▸ hmember key⟩
  rw [JobManager.workerStep, hworker]
  dsimp only
  rw [JobManager.beginBody, hinfo]
  simp only [htype, if_neg hmeasure, if_true, hparams, hread]

/-- A request for a measurement with a parameter of its own. -/
def JobRecords.sweepRequest : Json :=
  .object [(bytes "script_path", .string (bytes "sweep.lua")), (bytes "steps", .integer 5)]

open JobRecords in
theorem submitted_measure_runs_sweepRequest :
    ∃ t : JobRecords, t.manager.worker = .started (JobManager.makeJobId 7 1) ∧
      ∃ runInfo m, t.manager.workerStep true [] = some m ∧ m.worker = .scripting (JobManager.makeJobId 7 1) runInfo ∧
        ∀ key, runInfo.params.member? key = sweepRequest.member? key := by
  have hsubmit : init.step (.submitBegin JobManager.measureType sweepRequest 7, 1000000) =
      some ({ init with clock := 1000000 }.submitBegin JobManager.measureType sweepRequest 7 1000000) := rfl
  have hsteady : Steady init (.submitBegin JobManager.measureType sweepRequest 7, 1000000) := by decide
  obtain ⟨t, hrun, hworker⟩ : ∃ t, system.runWhile Steady
      ({ init with clock := 1000000 }.submitBegin JobManager.measureType sweepRequest 7 1000000)
      [(.submitEnqueue (JobManager.makeJobId 7 1), 2000000), (.worker true [], 3000000)] = some t ∧
        t.manager.worker = .started (JobManager.makeJobId 7 1) := ⟨_, rfl, rfl⟩
  have hlater := ReachableWhile.startingAt hrun
  exact ⟨t, hworker, submitted_measure_runs ReachableWhile.init rfl hsteady hsubmit hlater hworker true []⟩

end InstrumentServer
