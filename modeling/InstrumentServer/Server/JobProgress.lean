import InstrumentServer.Lib.Progress
import InstrumentServer.Server.JobDispatch
import InstrumentServer.Server.JobStatus

/-!
# The queue runs empty

What happens when nobody submits or cancels any more: `worker_loop` and the monitors take their steps, in any order. Each of them leaves less to do, apart from waking up while there are still active measure jobs. A script may loop or block, and a monitor waits in `futs[i].get()` for as long as an answer is missing: `Ends` says which of them come to their end. After finitely many steps only those that do not are left, with the jobs that wait for them; if all end, the queue is empty and every job is completed, failed or canceled.
-/

namespace InstrumentServer

open ByteString Transition

/-- The job whose script the worker runs. -/
def WorkerPoint.script? : WorkerPoint → Option JobId
  | .scripting jid _ => some jid
  | _ => none

namespace JobManager

/-! ### How much is left to do -/

/-- The rounds of the sleep loop that are left. -/
def sleepRounds (ms slept : Int) : Nat := ((ms - slept).toNat + 19) / 20

/-- A bound for the rounds of a job. -/
def jobRounds (jobs : JobId → Option JobInfo) (jid : JobId) : Nat :=
  match jobs jid with
  | none => 0
  | some info => sleepRounds (durationMs info.params) 0

def pointWork (jobs : JobId → Option JobInfo) : WorkerPoint → Nat
  | .exited | .measureWait _ => 0
  | .waiting => 1
  | .finishing .. => 2
  | .sleeping _ _ ms slept => 3 + sleepRounds ms slept
  | .spawning .. => 4
  | .scripting .. => 5
  | .started jid => 6 + jobRounds jobs jid

def queueWork (jobs : JobId → Option JobInfo) (queue : List JobId) : Nat :=
  (queue.map fun jid => 8 + jobRounds jobs jid).sum

/-- A bound for the steps until nothing is left. -/
def work (m : JobManager) : Nat := queueWork m.jobs m.queue + pointWork m.jobs m.worker + m.monitors.length

/-- The worker would wake up only to wait again. -/
def WaitsOn (m : JobManager) : Prop :=
  m.worker.peeked?.isSome = true ∧ m.activeMeasureJobs ≠ ∅ ∧ m.running = true

instance (m : JobManager) : Decidable m.WaitsOn :=
  inferInstanceAs (Decidable (m.worker.peeked?.isSome = true ∧ m.activeMeasureJobs ≠ ∅ ∧ m.running = true))

/-- The scripts and the monitors that come to their end. -/
structure Ends where
  script : JobId → Bool
  /-- every future of the job is fulfilled -/
  monitor : JobId → Bool

/-- A step of the worker that does something, or the end of a monitor, where the script and the monitor have an end. -/
def Works (ends : Ends) (m : JobManager) : Label → Prop
  | .worker _ _ => ¬ m.WaitsOn ∧ ∀ jid ∈ m.worker.script?, ends.script jid = true
  | .monitorDone jid _ => ends.monitor jid = true
  | .submitBegin .. | .submitEnqueue _ | .cancelJob _ | .stop => False

instance (ends : Ends) (m : JobManager) (label : Label) : Decidable (Works ends m label) :=
  match label with
  | .worker _ _ => inferInstanceAs (Decidable (¬ m.WaitsOn ∧ ∀ jid ∈ m.worker.script?, ends.script jid = true))
  | .monitorDone jid _ => inferInstanceAs (Decidable (ends.monitor jid = true))
  | .submitBegin _ _ _ | .submitEnqueue _ | .cancelJob _ | .stop => inferInstanceAs (Decidable False)

variable {m m' : JobManager} {label : Label} {ends : Ends}

theorem sleepRounds_succ {ms slept : Int} (hless : slept < ms) : sleepRounds ms (slept + 20) < sleepRounds ms slept := by
  rw [sleepRounds, sleepRounds]
  omega

/-- The rounds of all jobs stay when a job keeps its parameters. -/
theorem jobRounds_setJob {jid : JobId} {info info' : JobInfo} (hinfo : m.jobs jid = some info)
    (hparams : info'.params = info.params) : jobRounds (m.setJob jid info').jobs = jobRounds m.jobs := by
  funext other
  by_cases hother : other = jid
  · subst hother
    simp [jobRounds, setJob, hinfo, hparams]
  · simp [jobRounds, setJob, hother]

theorem work_popAndStart {jid : JobId} (hhead : m.queue.head? = some jid) (hnext : m.popAndStart jid = some m') :
    m'.work + 2 + pointWork m.jobs m.worker = m.work := by
  obtain ⟨rest, hqueue⟩ := List.head?_eq_some_iff.mp hhead
  rw [popAndStart] at hnext
  split at hnext
  · simp at hnext
  · rename_i info hinfo
    obtain rfl := Option.some.inj hnext
    have hrounds : jobRounds (m.setJob jid { info with status := .running }).jobs = jobRounds m.jobs :=
      jobRounds_setJob hinfo rfl
    simp only [work, queueWork, pointWork, hrounds, hqueue, List.tail_cons, List.map_cons, List.sum_cons]
    simp only [setJob]
    omega

theorem popAndStart_worker {jid : JobId} (hnext : m.popAndStart jid = some m') : m'.worker = .started jid := by
  rw [popAndStart] at hnext
  split at hnext
  · simp at hnext
  · rw [← Option.some.inj hnext]

theorem work_beginBody {jid : JobId} {what : ByteString} (hworker : m.worker = .started jid)
    (hnext : m.beginBody jid what = some m') : m'.work < m.work := by
  have hless : ∀ point, m' = { m with worker := point } → pointWork m.jobs point < 6 + jobRounds m.jobs jid →
      m'.work < m.work := by
    rintro point rfl hpoint
    have hstarted : pointWork m.jobs m.worker = 6 + jobRounds m.jobs jid := by
      rw [hworker]
      rfl
    simp only [work]
    omega
  rw [beginBody] at hnext
  split at hnext
  · simp at hnext
  · rename_i info hinfo
    have hrounds : jobRounds m.jobs jid = sleepRounds (durationMs info.params) 0 := by simp [jobRounds, hinfo]
    split at hnext
    · refine hless _ (Option.some.inj hnext).symm ?_
      rw [pointWork, hrounds]
      omega
    · split at hnext
      · split at hnext
        · exact hless _ (Option.some.inj hnext).symm (by rw [pointWork]; omega)
        · exact hless _ (Option.some.inj hnext).symm (by rw [pointWork]; omega)
        · exact hless _ (Option.some.inj hnext).symm (by rw [pointWork]; omega)
      · exact hless _ (Option.some.inj hnext).symm (by rw [pointWork]; omega)

theorem work_sleepRound {jid : JobId} {runInfo : JobInfo} {ms slept : Int}
    (hworker : m.worker = .sleeping jid runInfo ms slept) : (m.sleepRound jid runInfo ms slept).work < m.work := by
  rw [sleepRound]
  split
  · rename_i hleft
    have hround := sleepRounds_succ hleft
    split <;> simp only [work, hworker, pointWork] <;> omega
  · simp only [work, hworker, pointWork]
    omega

theorem work_finishBody {jid : JobId} {runInfo : JobInfo} {outcome : Except ByteString Json}
    (hworker : m.worker = .finishing jid runInfo outcome) : (m.finishBody jid runInfo outcome).work < m.work := by
  have hset : ∀ info info' active, m.jobs jid = some info → info'.params = info.params →
      ({ m.setJob jid info' with worker := .waiting, activeMeasureJobs := active } : JobManager).work < m.work := by
    intro info info' active hinfo hparams
    have hrounds := jobRounds_setJob hinfo hparams
    simp only [work, queueWork, pointWork, hworker, hrounds]
    simp only [setJob]
    omega
  rw [finishBody]
  dsimp only
  split
  · simp only [work, hworker, pointWork]
    omega
  · rename_i info hinfo
    split
    · split
      · exact hset info _ m.activeMeasureJobs hinfo rfl
      · simp only [work, hworker, pointWork]
        omega
    · split
      · exact hset info _ m.activeMeasureJobs hinfo rfl
      · exact hset info _ (m.activeMeasureJobs.erase jid) hinfo rfl

theorem work_monitorDone {jid : JobId} {result : Json} (hmonitor : jid ∈ m.monitors) :
    (m.monitorDone jid result).work < m.work := by
  have hpos := List.length_pos_of_mem hmonitor
  have hlength := List.length_erase_of_mem hmonitor
  rw [JobManager.monitorDone]
  dsimp only
  split
  · simp only [work]
    omega
  · rename_i info hinfo
    have hrounds : jobRounds (m.setJob jid { info with status := .completed, result := result }).jobs = jobRounds m.jobs :=
      jobRounds_setJob hinfo rfl
    have hpoint : ∀ point, pointWork (m.setJob jid { info with status := .completed, result := result }).jobs point =
        pointWork m.jobs point := by
      intro point
      cases point <;> simp only [pointWork, hrounds]
    simp only [setJob] at hrounds hpoint
    simp only [work, queueWork, setJob, hrounds, hpoint]
    omega

theorem work_workerStep (hqueue : QueueInv m) (hworks : ¬ m.WaitsOn) {ok : Bool} {what : ByteString}
    (hnext : m.workerStep ok what = some m') : m'.work < m.work := by
  cases hworker : m.worker with
  | waiting =>
      simp only [workerStep, hworker, peekFront] at hnext
      split at hnext
      · split at hnext
        · simp at hnext
        · obtain rfl := Option.some.inj hnext
          simp only [work, hworker, pointWork]
          omega
      · rename_i jid rest hcons
        split at hnext
        · simp at hnext
        · split at hnext
          · obtain rfl := Option.some.inj hnext
            simp only [work, hworker, pointWork]
            omega
          · have hwork := work_popAndStart (by rw [hcons]; rfl) hnext
            omega
  | measureWait jid =>
      simp only [workerStep, hworker, wakeFromMeasureWait] at hnext
      split at hnext
      · rename_i hagain
        exact absurd ⟨by rw [hworker]; rfl, hagain⟩ hworks
      · have hwork := work_popAndStart (hqueue.peeked jid hworker) hnext
        omega
  | started jid => exact work_beginBody hworker (by simpa [workerStep, hworker] using hnext)
  | sleeping jid runInfo ms slept =>
      simp only [workerStep, hworker, Option.some.injEq] at hnext
      exact hnext ▸ work_sleepRound hworker
  | scripting jid runInfo =>
      simp only [workerStep, hworker] at hnext
      split at hnext <;>
      · obtain rfl := Option.some.inj hnext
        simp only [work, hworker, pointWork]
        omega
  | spawning jid runInfo =>
      simp only [workerStep, hworker] at hnext
      split at hnext
      · obtain rfl := Option.some.inj hnext
        simp only [work, hworker, pointWork, List.length_append, List.length_singleton]
        omega
      · obtain rfl := Option.some.inj hnext
        simp only [work, hworker, pointWork]
        omega
  | finishing jid runInfo outcome =>
      simp only [workerStep, hworker, Option.some.injEq] at hnext
      exact hnext ▸ work_finishBody hworker
  | exited => simp [workerStep, hworker] at hnext

/-! ### Who takes care of a job -/

/-- A monitor has the job, or the worker is in its body. -/
def Attended (m : JobManager) (jid : JobId) : Prop :=
  jid ∈ m.monitors ∨ (m.worker.job? = some jid ∧ ¬ m.worker.Handed)

/-- Active jobs are measure jobs, and somebody takes care of every active job and of every job under way. -/
structure AttendedInv (m : JobManager) : Prop where
  measure : ∀ jid ∈ m.activeMeasureJobs, ∃ info, m.jobs jid = some info ∧ info.type = measureType
  active : ∀ jid ∈ m.activeMeasureJobs, m.Attended jid
  underWay : ∀ jid status, m.status jid = some status → status = .running ∨ status = .canceling → m.Attended jid

/-- The worker comes from no body to a wait, a start or its end. -/
theorem job?_eq_none_of_step {ok : Bool} {what : ByteString} (hnext : m.workerStep ok what = some m')
    (hpoint : m'.worker = .exited ∨ (∃ jid, m'.worker = .measureWait jid) ∨ ∃ jid, m'.worker = .started jid) :
    m.worker.job? = none := by
  have hother : ∀ point : WorkerPoint, m' = { m with worker := point } → point ≠ .exited →
      (∀ jid, point ≠ .measureWait jid) → (∀ jid, point ≠ .started jid) → False := by
    rintro point rfl hexited hwait hstarted
    obtain h | ⟨jid, h⟩ | ⟨jid, h⟩ := hpoint
    · exact hexited h
    · exact hwait jid h
    · exact hstarted jid h
  cases hworker : m.worker with
  | waiting | measureWait jid | exited => rfl
  | started jid =>
      simp only [workerStep, hworker, beginBody] at hnext
      split at hnext
      · simp at hnext
      · split at hnext
        · exact (hother _ (Option.some.inj hnext).symm (by simp) (by simp) (by simp)).elim
        · split at hnext
          · split at hnext <;> exact (hother _ (Option.some.inj hnext).symm (by simp) (by simp) (by simp)).elim
          · exact (hother _ (Option.some.inj hnext).symm (by simp) (by simp) (by simp)).elim
  | sleeping jid runInfo ms slept =>
      simp only [workerStep, hworker, Option.some.injEq, sleepRound] at hnext
      split at hnext
      · split at hnext <;> exact (hother _ hnext.symm (by simp) (by simp) (by simp)).elim
      · exact (hother _ hnext.symm (by simp) (by simp) (by simp)).elim
  | scripting jid runInfo =>
      simp only [workerStep, hworker] at hnext
      split at hnext <;>
      · obtain rfl := Option.some.inj hnext
        simp at hpoint
  | spawning jid runInfo =>
      simp only [workerStep, hworker] at hnext
      split at hnext <;>
      · obtain rfl := Option.some.inj hnext
        simp at hpoint
  | finishing jid runInfo outcome =>
      simp only [workerStep, hworker, Option.some.injEq] at hnext
      have hwaiting : m'.worker = .waiting := by
        rw [← hnext, finishBody]
        dsimp only
        split
        · rfl
        · split
          · split <;> rfl
          · split <;> rfl
      rw [hwaiting] at hpoint
      simp at hpoint

namespace AttendedInv

theorem init : AttendedInv JobManager.init := by
  constructor <;> simp [JobManager.init, status]

/-- A step after which the same jobs are under way and active, and everybody who was is still taken care of. -/
theorem frame (h : AttendedInv m) (hkeeps : Keeps m.jobs m'.jobs)
    (hactive : ∀ jid ∈ m'.activeMeasureJobs, jid ∈ m.activeMeasureJobs)
    (hstatus : ∀ jid status, m'.status jid = some status → status = .running ∨ status = .canceling →
      m.status jid = some status ∨ m.status jid = some .running)
    (hattended : ∀ jid, m.Attended jid → m'.Attended jid) : AttendedInv m' := by
  refine ⟨fun jid hjid => ?_, fun jid hjid => hattended jid (h.active jid (hactive jid hjid)), fun jid status hjid hunder => ?_⟩
  · obtain ⟨info, hinfo, htype⟩ := h.measure jid (hactive jid hjid)
    obtain ⟨info', hinfo', hsame, -⟩ := hkeeps jid info hinfo
    exact ⟨info', hinfo', hsame.trans htype⟩
  · obtain hsame | hrunning := hstatus jid status hjid hunder
    · exact hattended jid (h.underWay jid status hsame hunder)
    · exact hattended jid (h.underWay jid .running hrunning (Or.inl rfl))

/-- A status under way that a job has after another status was written to a job was there before. -/
theorem status_before {other : JobId} {info' : JobInfo} (hjobs : m'.jobs = (m.setJob other info').jobs)
    (hsettled : info'.status ≠ .running ∧ info'.status ≠ .canceling) {jid : JobId} {status : JobStatus}
    (hstatus : m'.status jid = some status) (hunder : status = .running ∨ status = .canceling) :
    m.status jid = some status ∧ jid ≠ other := by
  by_cases hother : jid = other
  · subst hother
    rw [status_of_setJob hjobs] at hstatus
    obtain rfl := Option.some.inj hstatus
    exact absurd hunder (not_or.mpr hsettled)
  · exact ⟨(status_of_setJob_ne hjobs hother).symm.trans hstatus, hother⟩

/-- The end of a body: the job is settled and no longer active, or it is left to its monitor. -/
theorem finish (h : AttendedInv m) (hkeeps : Keeps m.jobs m'.jobs) {jid : JobId} {point : WorkerPoint}
    (hworker : m.worker = point) (hjob : point.job? = some jid) (hmonitors : m'.monitors = m.monitors)
    (hactive : ∀ other ∈ m'.activeMeasureJobs, other ∈ m.activeMeasureJobs ∧ (other = jid → point.Handed))
    (hstatus : ∀ other status, m'.status other = some status → status = .running ∨ status = .canceling →
      m.status other = some status ∧ (other = jid → point.Handed)) : AttendedInv m' := by
  have hattended : ∀ other, m.Attended other → (other = jid → point.Handed) → m'.Attended other := by
    rintro other (hmonitor | ⟨hcurrent, hhanded⟩) hfinished
    · exact Or.inl (hmonitors ▸ hmonitor)
    · rw [hworker] at hcurrent hhanded
      exact absurd (hfinished (Option.some.inj (hcurrent.symm.trans hjob))) hhanded
  refine ⟨fun other hother => ?_, fun other hother => ?_, fun other status hother hunder => ?_⟩
  · obtain ⟨info, hinfo, htype⟩ := h.measure other (hactive other hother).1
    obtain ⟨info', hinfo', hsame, -⟩ := hkeeps other info hinfo
    exact ⟨info', hinfo', hsame.trans htype⟩
  · exact hattended other (h.active other (hactive other hother).1) (hactive other hother).2
  · obtain ⟨hbefore, hfinished⟩ := hstatus other status hother hunder
    exact hattended other (h.underWay other status hbefore hunder) hfinished

theorem step (h : AttendedInv m) (hinv : DispatchInv m) (hnext : m.step label = some m') : AttendedInv m' := by
  have hmove := step_jobMove hnext
  have hkeeps := hmove.keeps
  cases hmove with
  | submitBegin | cancelRefused | stop | wait => exact ⟨h.measure, h.active, h.underWay⟩
  | submitEnqueue hdraft =>
      rename_i info
      have hjobs := hinv.ids.jobs_submitEnqueue hdraft
      refine h.frame hkeeps (fun _ => id) (fun jid status hstatus hunder => Or.inl ?_) fun _ => id
      refine (status_before hjobs ?_ hstatus hunder).1
      simp [(hinv.ids.drafts info hdraft).1]
  | cancelQueued hinfo hqueued =>
      refine h.frame hkeeps (fun _ => id) (fun jid status hstatus hunder => Or.inl ?_) fun _ => id
      exact (status_before rfl (by simp) hstatus hunder).1
  | cancelRunning hinfo hrunning =>
      rename_i other info
      refine h.frame hkeeps (fun _ => id) (fun jid status hstatus hunder => ?_) fun _ => id
      by_cases hother : jid = other
      · subst hother
        exact Or.inr (hrunning ▸ status_of_jobs hinfo)
      · rw [status_of_setJob_ne rfl hother] at hstatus
        exact Or.inl hstatus
  | exit =>
      have hidle := job?_eq_none_of_step hnext (Or.inl rfl)
      refine h.frame hkeeps (fun _ => id) (fun _ _ hstatus _ => Or.inl hstatus) fun jid hattended => ?_
      exact hattended.imp_right fun hcurrent => by simp [hidle] at hcurrent
  | peek hhead =>
      have hidle := job?_eq_none_of_step hnext (Or.inr (Or.inl ⟨_, rfl⟩))
      refine h.frame hkeeps (fun _ => id) (fun _ _ hstatus _ => Or.inl hstatus) fun jid hattended => ?_
      exact hattended.imp_right fun hcurrent => by simp [hidle] at hcurrent
  | start hinfo hfrom halone =>
      rename_i other info
      have hidle := job?_eq_none_of_step hnext (Or.inr (Or.inr ⟨other, rfl⟩))
      have hmonitor : ∀ jid, m.Attended jid → jid ∈ m.monitors := by
        rintro jid (hmonitor | ⟨hcurrent, -⟩)
        · exact hmonitor
        · simp [hidle] at hcurrent
      refine ⟨fun jid hjid => ?_, fun jid hjid => Or.inl (hmonitor jid (h.active jid hjid)), fun jid status hstatus hunder => ?_⟩
      · obtain ⟨info, hinfo, htype⟩ := h.measure jid hjid
        obtain ⟨info', hinfo', hsame, -⟩ := hkeeps jid info hinfo
        exact ⟨info', hinfo', hsame.trans htype⟩
      · by_cases hother : jid = other
        · exact Or.inr ⟨hother ▸ rfl, id⟩
        · have hbefore : m.status jid = some status := (status_of_setJob_ne rfl hother).symm.trans hstatus
          exact Or.inl (hmonitor jid (h.underWay jid status hbefore hunder))
  | body hworker hbody =>
      obtain ⟨hjob, hhanded⟩ := hbody.job_before
      obtain ⟨info, hinfo, -, htyped⟩ := hinv.monitors.body _ (hworker ▸ hjob)
      obtain ⟨hjob', -, hhanded', -⟩ := hbody.typed hinfo (hworker ▸ htyped)
      refine h.frame hkeeps (fun _ => id) (fun _ _ hstatus _ => Or.inl hstatus) fun jid hattended => ?_
      refine hattended.imp_right fun hcurrent => ⟨?_, hhanded'⟩
      rw [hworker, hjob] at hcurrent
      rw [← hcurrent.1]
      exact hjob'
  | activate hworker =>
      rename_i other runInfo
      obtain ⟨info, hinfo, -, htyped⟩ := hinv.monitors.body other (by rw [hworker]; rfl)
      rw [hworker] at htyped
      have hattended : ∀ jid, m.Attended jid → (WorkerPoint.spawning other runInfo).job? = some jid ∨ jid ∈ m.monitors := by
        rintro jid (hmonitor | ⟨hcurrent, -⟩)
        · exact Or.inr hmonitor
        · rw [hworker] at hcurrent
          exact Or.inl hcurrent
      have hafter : ∀ jid, (WorkerPoint.spawning other runInfo).job? = some jid ∨ jid ∈ m.monitors →
          Attended { m with activeMeasureJobs := insert other m.activeMeasureJobs, worker := .spawning other runInfo } jid :=
        fun jid hjid => hjid.symm.imp_right fun hcurrent => ⟨hcurrent, id⟩
      refine ⟨fun jid hjid => ?_, fun jid hjid => hafter jid ?_, fun jid status hstatus hunder => ?_⟩
      · rcases Finset.mem_insert.mp hjid with rfl | hold
        · exact ⟨info, hinfo, htyped.2⟩
        · exact h.measure jid hold
      · rcases Finset.mem_insert.mp hjid with rfl | hold
        · exact Or.inl rfl
        · exact hattended jid (h.active jid hold)
      · exact hafter jid (hattended jid (h.underWay jid status hstatus hunder))
  | spawn hworker =>
      rename_i other runInfo
      refine h.frame hkeeps (fun _ => id) (fun _ _ hstatus _ => Or.inl hstatus) fun jid hattended => Or.inl ?_
      rcases hattended with hmonitor | ⟨hcurrent, -⟩
      · exact List.mem_append_left _ hmonitor
      · rw [hworker] at hcurrent
        exact List.mem_append_right _ (List.mem_singleton.mpr (Option.some.inj hcurrent).symm)
  | leave hworker hleft =>
      rename_i other runInfo outcome
      obtain ⟨info, hinfo, -, -⟩ := hinv.monitors.body other (by rw [hworker]; rfl)
      have hhanded : (WorkerPoint.finishing other runInfo outcome).Handed := by
        obtain hnone | ⟨htype, result, rfl⟩ := hleft
        · rw [hinfo] at hnone
          contradiction
        · exact htype
      exact h.finish hkeeps hworker rfl rfl (fun _ hactive => ⟨hactive, fun _ => hhanded⟩)
        fun _ _ hstatus _ => ⟨hstatus, fun _ => hhanded⟩
  | complete hworker hinfo htype =>
      rename_i other info runInfo result
      obtain ⟨info', hinfo', -, htyped⟩ := hinv.monitors.body other (by rw [hworker]; rfl)
      rw [hworker] at htyped
      refine h.finish hkeeps hworker rfl rfl (fun jid hactive => ⟨hactive, ?_⟩) fun jid status hstatus hunder => ?_
      · rintro rfl
        obtain ⟨active, hactive, hmeasure⟩ := h.measure jid hactive
        obtain rfl := Option.some.inj (hinfo'.symm.trans hactive)
        exact htyped.trans hmeasure
      · obtain ⟨hbefore, hother⟩ := status_before rfl (by simp) hstatus hunder
        exact ⟨hbefore, fun heq => absurd heq hother⟩
  | fail hworker hinfo =>
      rename_i other info runInfo err
      obtain ⟨info', hinfo', -, htyped⟩ := hinv.monitors.body other (by rw [hworker]; rfl)
      rw [hworker] at htyped
      refine h.finish hkeeps hworker rfl rfl (fun jid hjid => ?_) fun jid status hstatus hunder => ?_
      · dsimp only at hjid
        split at hjid
        · obtain ⟨hother, hactive⟩ := Finset.mem_erase.mp hjid
          exact ⟨hactive, fun heq => absurd heq hother⟩
        · rename_i htype
          refine ⟨hjid, ?_⟩
          rintro rfl
          obtain ⟨active, hactive, hmeasure⟩ := h.measure jid hjid
          obtain rfl := Option.some.inj (hinfo'.symm.trans hactive)
          exact absurd (htyped.trans hmeasure) htype
      · obtain ⟨hbefore, hother⟩ := status_before rfl (by simp) hstatus hunder
        exact ⟨hbefore, fun heq => absurd heq hother⟩
  | monitorDone hmonitor hinfo =>
      rename_i other info result
      have hattended : ∀ jid, jid ≠ other → m.Attended jid →
          Attended { m.setJob other { info with status := .completed, result := result } with
            monitors := m.monitors.erase other
            activeMeasureJobs := m.activeMeasureJobs.erase other } jid :=
        fun jid hother hattended => hattended.imp_left fun hmem => (List.mem_erase_of_ne hother).mpr hmem
      refine ⟨fun jid hjid => ?_, fun jid hjid => ?_, fun jid status hstatus hunder => ?_⟩
      · obtain ⟨info, hinfo, htype⟩ := h.measure jid (Finset.mem_of_mem_erase hjid)
        obtain ⟨info', hinfo', hsame, -⟩ := hkeeps jid info hinfo
        exact ⟨info', hinfo', hsame.trans htype⟩
      · obtain ⟨hother, hactive⟩ := Finset.mem_erase.mp hjid
        exact hattended jid hother (h.active jid hactive)
      · obtain ⟨hbefore, hother⟩ := status_before rfl (by simp) hstatus hunder
        exact hattended jid hother (h.underWay jid status hbefore hunder)
  | monitorLost hmonitor hnone =>
      obtain ⟨-, info, hinfo, -⟩ := hinv.monitors.monitored _ hmonitor
      rw [hinfo] at hnone
      contradiction

end AttendedInv

/-! ### At rest -/

/-- The invariant of the runs in which the peeked job is not canceled. -/
structure ProgressInv (m : JobManager) : Prop where
  queue : QueueInv m
  dispatch : DispatchInv m
  attended : AttendedInv m
  /-- the worker has left its loop only after the last job -/
  exited : m.worker = .exited → m.queue = []

/-- Nothing is left to do and no job is open. -/
structure Settled (m : JobManager) : Prop where
  queue : m.queue = []
  monitors : m.monitors = []
  jobs : ∀ jid info, m.jobs jid = some info → info.status.Terminal

/-- A script or a monitor that does not end keeps the job from its end. -/
def Stays (ends : Ends) (m : JobManager) (jid : JobId) : Prop :=
  (m.worker.script? = some jid ∧ ends.script jid = false) ∨ (jid ∈ m.monitors ∧ ends.monitor jid = false)

/-- Only what does not end is left: the queue stands still behind a script, or in front of a job that has to wait for a monitor, and a job that is neither at its end nor kept by its own script or monitor is in the queue. -/
structure HeldUp (ends : Ends) (m : JobManager) : Prop where
  monitors : ∀ jid ∈ m.monitors, ends.monitor jid = false
  queue : m.queue = [] ∨ (∃ jid, m.worker.script? = some jid ∧ ends.script jid = false) ∨
    (m.WaitsOn ∧ ∃ jid ∈ m.monitors, ends.monitor jid = false)
  jobs : ∀ jid info, m.jobs jid = some info → info.status.Terminal ∨ m.Stays ends jid ∨ (info.status = .queued ∧ jid ∈ m.queue)

/-- If every script and every monitor ends, nothing is held up. -/
theorem HeldUp.settled (h : HeldUp ends m) (hall : ∀ jid, ends.script jid = true ∧ ends.monitor jid = true) : m.Settled := by
  have hqueue : m.queue = [] := by
    rcases h.queue with hempty | ⟨jid, -, hscript⟩ | ⟨-, jid, -, hmonitor⟩
    · exact hempty
    · simp [(hall jid).1] at hscript
    · simp [(hall jid).2] at hmonitor
  refine ⟨hqueue, List.eq_nil_iff_forall_not_mem.mpr fun jid hjid => ?_, fun jid info hinfo => ?_⟩
  · have hmonitor := h.monitors jid hjid
    simp [(hall jid).2] at hmonitor
  · rcases h.jobs jid info hinfo with hterminal | (⟨-, hscript⟩ | ⟨-, hmonitor⟩) | ⟨-, hqueued⟩
    · exact hterminal
    · simp [(hall jid).1] at hscript
    · simp [(hall jid).2] at hmonitor
    · simp [hqueue] at hqueued

theorem Works.sparesPeeked (hworks : Works ends m label) : SparesPeeked m label := by
  cases label with
  | worker | monitorDone => trivial
  | submitBegin | submitEnqueue | cancelJob | stop => exact hworks.elim

theorem work_step (h : ProgressInv m) (hworks : Works ends m label) (hnext : m.step label = some m') : m'.work < m.work := by
  cases label with
  | worker ok what => exact work_workerStep h.queue hworks.1 hnext
  | monitorDone jid result =>
      simp only [JobManager.step] at hnext
      split at hnext
      · rename_i hmonitor
        obtain rfl := Option.some.inj hnext
        exact work_monitorDone hmonitor
      · simp at hnext
  | submitBegin | submitEnqueue | cancelJob | stop => exact hworks.elim

theorem ProgressInv.step (h : ProgressInv m) (hworks : Works ends m label) (hnext : m.step label = some m') :
    ProgressInv m' where
  queue := queueInv_step h.queue hworks.sparesPeeked hnext
  dispatch := h.dispatch.step hnext
  attended := h.attended.step h.dispatch hnext
  exited hexited := by
    cases label with
    | submitBegin | submitEnqueue | cancelJob | stop => exact hworks.elim
    | monitorDone jid result =>
        simp only [JobManager.step] at hnext
        split at hnext
        · obtain rfl := Option.some.inj hnext
          have hsame : (m.monitorDone jid result).worker = m.worker ∧ (m.monitorDone jid result).queue = m.queue := by
            rw [JobManager.monitorDone]
            dsimp only
            split <;> exact ⟨rfl, rfl⟩
          rw [hsame.2]
          exact h.exited (hsame.1 ▸ hexited)
        · simp at hnext
    | worker ok what =>
        have hidle := job?_eq_none_of_step hnext (Or.inl hexited)
        simp only [JobManager.step, workerStep] at hnext
        cases hworker : m.worker with
        | waiting =>
            simp only [hworker, peekFront] at hnext
            split at hnext
            · rename_i hqueue
              split at hnext
              · simp at hnext
              · obtain rfl := Option.some.inj hnext
                exact hqueue
            · split at hnext
              · simp at hnext
              · split at hnext
                · obtain rfl := Option.some.inj hnext
                  simp at hexited
                · rw [(popAndStart_worker hnext)] at hexited
                  simp at hexited
        | measureWait jid =>
            simp only [hworker, wakeFromMeasureWait] at hnext
            split at hnext
            · obtain rfl := Option.some.inj hnext
              exact h.exited hexited
            · rw [(popAndStart_worker hnext)] at hexited
              simp at hexited
        | exited => simp [hworker] at hnext
        | started | sleeping | scripting | spawning | finishing => simp [hworker, WorkerPoint.job?] at hidle

theorem isSome_of_status {jid : JobId} {status : JobStatus} (hstatus : m.status jid = some status) :
    (m.jobs jid).isSome = true := by
  obtain ⟨info, hinfo, -⟩ := Option.map_eq_some_iff.mp hstatus
  rw [hinfo]
  rfl

theorem popAndStart_isSome {jid : JobId} (hknown : (m.jobs jid).isSome = true) : m.popAndStart jid ≠ none := by
  obtain ⟨info, hinfo⟩ := Option.isSome_iff_exists.mp hknown
  simp [popAndStart, hinfo]

/-- Where no step does anything, the worker has nothing to do, is in a script that does not end, or waits for active measure jobs. -/
theorem ProgressInv.worker_of_atRest (h : ProgressInv m) (hrest : system.AtRest (Works ends) m) :
    (m.queue = [] ∧ m.worker.job? = none) ∨ (∃ jid, m.worker.script? = some jid ∧ ends.script jid = false) ∨ m.WaitsOn := by
  by_cases hwaits : m.WaitsOn
  · exact Or.inr (Or.inr hwaits)
  by_cases hscripts : ∀ jid ∈ m.worker.script?, ends.script jid = true
  swap
  · simp only [not_forall, Bool.not_eq_true] at hscripts
    obtain ⟨jid, hjid, hscript⟩ := hscripts
    exact Or.inr (Or.inl ⟨jid, hjid, hscript⟩)
  refine Or.inl ?_
  have hnone : m.workerStep true [] = none := hrest (.worker true []) ⟨hwaits, hscripts⟩
  have hqueued : ∀ jid ∈ m.queue, (m.jobs jid).isSome = true :=
    fun jid hjid => isSome_of_status ((h.queue.queued jid).mp hjid)
  cases hworker : m.worker with
  | exited => exact ⟨h.exited hworker, rfl⟩
  | waiting =>
      refine ⟨?_, rfl⟩
      by_contra hne
      obtain ⟨jid, rest, hcons⟩ := List.exists_cons_of_ne_nil hne
      have hknown : (m.jobs jid).isSome = true := hqueued jid (by rw [hcons]; exact List.mem_cons_self)
      obtain ⟨info, hinfo⟩ := Option.isSome_iff_exists.mp hknown
      simp only [workerStep, hworker, peekFront, hcons, hinfo] at hnone
      split at hnone
      · simp at hnone
      · exact popAndStart_isSome hknown hnone
  | measureWait jid =>
      have hknown := hqueued jid (List.mem_of_head? (h.queue.peeked jid hworker))
      simp only [workerStep, hworker, wakeFromMeasureWait] at hnone
      split at hnone
      · simp at hnone
      · exact absurd hnone (popAndStart_isSome hknown)
  | started jid =>
      obtain ⟨info, hinfo, -⟩ := h.dispatch.monitors.body jid (by rw [hworker]; rfl)
      simp only [workerStep, hworker, beginBody, hinfo] at hnone
      split at hnone
      · simp at hnone
      · split at hnone
        · split at hnone <;> simp at hnone
        · simp at hnone
  | sleeping => simp [workerStep, hworker] at hnone
  | scripting => simp [workerStep, hworker] at hnone
  | spawning => simp [workerStep, hworker] at hnone
  | finishing => simp [workerStep, hworker] at hnone

/-- A worker that looks at its next job is in no body. -/
theorem WaitsOn.job?_eq_none (hwaits : m.WaitsOn) : m.worker.job? = none := by
  have hpeeked := hwaits.1
  cases hworker : m.worker <;> simp [hworker, WorkerPoint.job?, WorkerPoint.peeked?] at hpeeked ⊢

theorem job?_of_script? {jid : JobId} (hscript : m.worker.script? = some jid) : m.worker.job? = some jid := by
  cases hworker : m.worker <;> simp [hworker, WorkerPoint.job?, WorkerPoint.script?] at hscript ⊢
  exact hscript

theorem ProgressInv.heldUp_of_atRest (h : ProgressInv m) (hrest : system.AtRest (Works ends) m) : m.HeldUp ends := by
  have hmonitors : ∀ jid ∈ m.monitors, ends.monitor jid = false := by
    intro jid hjid
    by_contra hends
    have hnone := hrest (.monitorDone jid .null) (eq_true_of_ne_false hends)
    simp [system, JobManager.step, hjid] at hnone
  have hworker := h.worker_of_atRest hrest
  -- a job under way is in the hands of a monitor, or the worker is in its script
  have hstays : ∀ jid, m.Attended jid → m.Stays ends jid := by
    rintro jid (hmonitor | ⟨hjob, -⟩)
    · exact Or.inr ⟨hmonitor, hmonitors jid hmonitor⟩
    · rcases hworker with ⟨-, hidle⟩ | ⟨other, hscript, hends⟩ | hwaits
      · simp [hidle] at hjob
      · obtain rfl := Option.some.inj ((job?_of_script? hscript).symm.trans hjob)
        exact Or.inl ⟨hscript, hends⟩
      · simp [hwaits.job?_eq_none] at hjob
  refine ⟨hmonitors, ?_, fun jid info hinfo => ?_⟩
  · rcases hworker with ⟨hempty, -⟩ | hscript | hwaits
    · exact Or.inl hempty
    · exact Or.inr (Or.inl hscript)
    · obtain ⟨jid, hjid⟩ := Finset.nonempty_iff_ne_empty.mpr hwaits.2.1
      rcases h.attended.active jid hjid with hmonitor | ⟨hjob, -⟩
      · exact Or.inr (Or.inr ⟨hwaits, jid, hmonitor, hmonitors jid hmonitor⟩)
      · simp [hwaits.job?_eq_none] at hjob
  · have hstatus := status_of_jobs hinfo
    cases hcase : info.status with
    | queued =>
        rw [hcase] at hstatus
        exact Or.inr (Or.inr ⟨rfl, (h.queue.queued jid).mpr hstatus⟩)
    | running => exact Or.inr (Or.inl (hstays jid (h.attended.underWay jid _ hstatus (Or.inl hcase))))
    | canceling => exact Or.inr (Or.inl (hstays jid (h.attended.underWay jid _ hstatus (Or.inr hcase))))
    | completed => exact Or.inl (Or.inl rfl)
    | failed => exact Or.inl (Or.inr (Or.inl rfl))
    | canceled => exact Or.inl (Or.inr (Or.inr rfl))

theorem attendedInv_of_reachable {ok : JobManager → Label → Prop} (hreach : ReachableWhile system ok m) :
    AttendedInv m := by
  induction hreach with
  | init => exact .init
  | step hreach _ hnext ih => exact ih.step (dispatchInv_of_reachable hreach) hnext

end JobManager

end InstrumentServer
