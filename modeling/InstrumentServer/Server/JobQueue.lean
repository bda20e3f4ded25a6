import InstrumentServer.Server.JobMoves

/-!
# Integrity of the job queue

The invariant ties the queue to the job table, to the history and to the worker's program point. It is kept by every step but one: `cancel_job` of the very job `worker_loop` has peeked while it sits in `measure_cv_.wait`. That step takes the peeked id out of the queue, and the worker, once woken, pops whatever is in front then and still marks the peeked job running.
-/

namespace InstrumentServer

open ByteString Transition

namespace JobManager

/-- A job that was not queued stays out of the queue, whatever other status it is given. -/
theorem queued_setJob {m : JobManager} {jid : JobId} {info : JobInfo} (hold : m.status jid ≠ some .queued)
    (hnew : info.status ≠ .queued) (other : JobId) :
    (m.setJob jid info).status other = some .queued ↔ m.status other = some .queued := by
  rw [status_setJob]
  split
  · rename_i h
    subst h
    simp [hold, hnew]
  · rfl

/-- The invariant of the queue. -/
structure QueueInv (m : JobManager) : Prop where
  nodup : m.queue.Nodup
  queued : ∀ jid, jid ∈ m.queue ↔ m.status jid = some .queued
  peeked : ∀ jid, m.worker = .measureWait jid → m.queue.head? = some jid
  pops : ∀ front jid, .popped front jid ∈ m.events → front = some jid
  known : ∀ jid, jid ∈ m.submissions ↔ (m.jobs jid).isSome
  numbered : ∀ jid, (m.jobs jid).isSome → ∃ ms n, jid = makeJobId ms n ∧ n < m.nextId
  drafts : ∀ info ∈ m.submitting, info.status = .queued ∧ m.jobs info.id = none ∧
    ∃ ms n, info.id = makeJobId ms n ∧ n < m.nextId
  draftsNodup : (m.submitting.map JobInfo.id).Nodup
  submissionsNodup : m.submissions.Nodup
  order : (m.starts ++ m.queue).Sublist m.submissions
  canceled : ∀ jid ∈ m.cancellations, jid ∈ m.submissions ∧ jid ∉ m.starts ∧ jid ∉ m.queue
  accounted : ∀ jid ∈ m.submissions, jid ∈ m.queue ∨ jid ∈ m.starts ∨ jid ∈ m.cancellations
  current : ∀ jid, m.worker.job? = some jid → jid ∈ m.starts
  monitored : ∀ jid ∈ m.monitors, jid ∈ m.starts

namespace QueueInv

variable {m m' : JobManager} {label : Label}

theorem ids (h : QueueInv m) : IdInv m := ⟨h.numbered, h.drafts, h.draftsNodup⟩

theorem not_queued_of_started (h : QueueInv m) {jid : JobId} (hstart : jid ∈ m.starts) :
    m.status jid ≠ some .queued := by
  intro hq
  have hdisjoint := (List.nodup_append.mp (h.submissionsNodup.sublist h.order)).2.2
  exact hdisjoint jid hstart jid ((h.queued jid).mpr hq) rfl

/-- A step that changes neither the queue nor the history nor which jobs are queued. -/
theorem frame (h : QueueInv m) (hids : IdInv m') (hqueue : m'.queue = m.queue) (hevents : m'.events = m.events)
    (hstatus : ∀ jid, m'.status jid = some .queued ↔ m.status jid = some .queued)
    (hsome : ∀ jid, (m'.jobs jid).isSome = (m.jobs jid).isSome)
    (hpeeked : ∀ jid, m'.worker = .measureWait jid → m.queue.head? = some jid)
    (hcurrent : ∀ jid, m'.worker.job? = some jid → jid ∈ m.starts)
    (hmonitored : ∀ jid ∈ m'.monitors, jid ∈ m.starts) : QueueInv m' := by
  have hsubmissions : m'.submissions = m.submissions := by rw [submissions, submissions, hevents]
  have hstarts : m'.starts = m.starts := by rw [starts, starts, hevents]
  have hcancellations : m'.cancellations = m.cancellations := by rw [cancellations, cancellations, hevents]
  refine ⟨?_, ?_, ?_, ?_, ?_, hids.numbered, hids.drafts, hids.draftsNodup, ?_, ?_, ?_, ?_, ?_, ?_⟩
  · rw [hqueue]; exact h.nodup
  · intro jid; rw [hqueue, hstatus]; exact h.queued jid
  · intro jid hwait; rw [hqueue]; exact hpeeked jid hwait
  · rw [hevents]; exact h.pops
  · intro jid; rw [hsubmissions, hsome]; exact h.known jid
  · rw [hsubmissions]; exact h.submissionsNodup
  · rw [hstarts, hqueue, hsubmissions]; exact h.order
  · rw [hcancellations, hsubmissions, hstarts, hqueue]; exact h.canceled
  · rw [hcancellations, hsubmissions, hstarts, hqueue]; exact h.accounted
  · rw [hstarts]; exact hcurrent
  · rw [hstarts]; exact hmonitored

/-- The worker moves on and nothing else changes. -/
theorem frame_worker (h : QueueInv m) {point : WorkerPoint}
    (hpeeked : ∀ jid, point = .measureWait jid → m.queue.head? = some jid)
    (hcurrent : ∀ jid, point.job? = some jid → jid ∈ m.starts) : QueueInv { m with worker := point } :=
  h.frame (h.ids.frame rfl rfl fun _ => rfl) rfl rfl (fun _ => Iff.rfl) (fun _ => rfl) hpeeked hcurrent h.monitored

/-- The worker moves on within the body of its job. -/
theorem frame_body (h : QueueInv m) {jid : JobId} {point : WorkerPoint} (hjob : m.worker.job? = some jid)
    (hpoint : point.job? = some jid) : QueueInv { m with worker := point } := by
  refine h.frame_worker (fun other hwait => ?_) (fun other hother => ?_)
  · simp [hwait, WorkerPoint.job?] at hpoint
  · rw [hpoint] at hother
    exact h.current other (hjob.trans hother)

/-- A job that is not queued is given another status than queued. -/
theorem setJob (h : QueueInv m) {jid : JobId} {info info' : JobInfo} (hinfo : m.jobs jid = some info)
    (hold : m.status jid ≠ some .queued) (hnew : info'.status ≠ .queued) : QueueInv (m.setJob jid info') :=
  h.frame (h.ids.frame rfl rfl (isSome_setJob hinfo info')) rfl rfl (queued_setJob hold hnew) (isSome_setJob hinfo info')
    h.peeked h.current h.monitored

/-- Fewer monitors, and whatever active measure jobs. -/
theorem frame_monitors (h : QueueInv m) {monitors : List JobId} (hmonitored : ∀ jid ∈ monitors, jid ∈ m.starts)
    (activeMeasureJobs : Finset JobId) : QueueInv { m with monitors, activeMeasureJobs } :=
  h.frame (h.ids.frame rfl rfl fun _ => rfl) rfl rfl (fun _ => Iff.rfl) (fun _ => rfl) h.peeked h.current hmonitored

theorem init : QueueInv JobManager.init := by
  constructor <;> simp [JobManager.init, status, submissions, starts, cancellations, WorkerPoint.job?]

/-! ### The steps that touch the queue -/

theorem submitEnqueue (h : QueueInv m) {info : JobInfo} (hinfo : info ∈ m.submitting) :
    QueueInv (m.submitEnqueue info) := by
  obtain ⟨hq, hnone, -⟩ := h.drafts info hinfo
  have hids := h.ids.submitEnqueue hinfo
  have hjobs := h.ids.jobs_submitEnqueue hinfo
  have hself : (m.submitEnqueue info).jobs info.id = some info := by simp [hjobs]
  have hother : ∀ jid, jid ≠ info.id → (m.submitEnqueue info).jobs jid = m.jobs jid := by
    intro jid hne
    rw [hjobs, Function.update_of_ne hne]
  have hsubmissions : (m.submitEnqueue info).submissions = m.submissions ++ [info.id] := by
    simp [submissions, JobManager.submitEnqueue, JobEvent.submission?]
  have hstarts : (m.submitEnqueue info).starts = m.starts := by
    simp [starts, JobManager.submitEnqueue, JobEvent.start?]
  have hcancellations : (m.submitEnqueue info).cancellations = m.cancellations := by
    simp [cancellations, JobManager.submitEnqueue, JobEvent.cancellation?]
  have hnew : info.id ∉ m.submissions := by
    rw [h.known, hnone]
    simp
  have hnotQueue : info.id ∉ m.queue := by
    rw [h.queued, status, hnone]
    simp
  refine ⟨?_, ?_, ?_, ?_, ?_, hids.numbered, hids.drafts, hids.draftsNodup, ?_, ?_, ?_, ?_, ?_, ?_⟩
  · change (m.queue ++ [info.id]).Nodup
    exact List.nodup_append.mpr ⟨h.nodup, by simp, fun jid hjid other hother he => hnotQueue (by
      rw [List.mem_singleton.mp hother] at he
      exact he ▸ hjid)⟩
  · intro jid
    change jid ∈ m.queue ++ [info.id] ↔ _
    by_cases hne : jid = info.id
    · subst hne
      simp [status, hself, hq]
    · rw [status, hother jid hne, List.mem_append, h.queued, status]
      simp [hne]
  · intro jid hwait
    have hhead := h.peeked jid hwait
    change (m.queue ++ [info.id]).head? = some jid
    rw [List.head?_append, hhead]
    rfl
  · intro front jid hmem
    rcases List.mem_append.mp hmem with hmem | hmem
    · exact h.pops front jid hmem
    · simp at hmem
  · intro jid
    rw [hsubmissions, List.mem_append, h.known]
    by_cases hne : jid = info.id
    · subst hne
      simp [hself]
    · rw [hother jid hne]
      simp [hne]
  · rw [hsubmissions]
    exact List.nodup_append.mpr ⟨h.submissionsNodup, by simp, fun jid hjid other hother he => hnew (by
      rw [List.mem_singleton.mp hother] at he
      exact he ▸ hjid)⟩
  · rw [hstarts, hsubmissions]
    change (m.starts ++ (m.queue ++ [info.id])).Sublist _
    rw [← List.append_assoc]
    exact h.order.append (List.Sublist.refl _)
  · intro jid hjid
    rw [hcancellations] at hjid
    obtain ⟨hsub, hns, hnq⟩ := h.canceled jid hjid
    rw [hsubmissions, hstarts]
    refine ⟨List.mem_append_left _ hsub, hns, ?_⟩
    change jid ∉ m.queue ++ [info.id]
    rw [List.mem_append, not_or]
    exact ⟨hnq, fun he => hnew (List.mem_singleton.mp he ▸ hsub)⟩
  · intro jid hjid
    rw [hsubmissions] at hjid
    rw [hstarts, hcancellations]
    change jid ∈ m.queue ++ [info.id] ∨ _
    rcases List.mem_append.mp hjid with hjid | hjid
    · exact (h.accounted jid hjid).imp_left (List.mem_append_left _)
    · exact Or.inl (List.mem_append_right _ hjid)
  · rw [hstarts]; exact h.current
  · rw [hstarts]; exact h.monitored

/-- Cancelling a queued job other than the one the worker has peeked. -/
theorem cancelQueued (h : QueueInv m) {jid : JobId} {info info' : JobInfo} (hinfo : m.jobs jid = some info)
    (hq : info.status = .queued) (hcanceled : info'.status = .canceled) (hpeeked : m.worker ≠ .measureWait jid)
    (hm' : m' = { m.setJob jid info' with
      queue := m.queue.erase jid, events := m.events ++ [.canceledQueued jid] }) : QueueInv m' := by
  have hqueued : jid ∈ m.queue := (h.queued jid).mpr (by simp [status, hinfo, hq])
  obtain ⟨-, -, hdisjoint⟩ := List.nodup_append.mp (h.submissionsNodup.sublist h.order)
  have hnotStarted : jid ∉ m.starts := fun hs => hdisjoint jid hs jid hqueued rfl
  have hstatus : ∀ other, m'.status other = if other = jid then some .canceled else m.status other := by
    intro other
    rw [hm', ← hcanceled]
    exact status_setJob m jid other info'
  have hsome : ∀ other, (m'.jobs other).isSome = (m.jobs other).isSome := by
    intro other
    rw [hm']
    exact isSome_setJob hinfo info' other
  have hqueue : m'.queue = m.queue.erase jid := by rw [hm']
  have hevents : m'.events = m.events ++ [.canceledQueued jid] := by rw [hm']
  have hworker : m'.worker = m.worker := by rw [hm']; rfl
  have hmonitors : m'.monitors = m.monitors := by rw [hm']; rfl
  have hids : IdInv m' := h.ids.frame (by rw [hm']; rfl) (by rw [hm']; rfl) hsome
  have hsubmissions : m'.submissions = m.submissions := by
    simp [submissions, hevents, JobEvent.submission?]
  have hstarts : m'.starts = m.starts := by simp [starts, hevents, JobEvent.start?]
  have hcancellations : m'.cancellations = m.cancellations ++ [jid] := by
    simp [cancellations, hevents, JobEvent.cancellation?]
  refine ⟨?_, ?_, ?_, ?_, ?_, hids.numbered, hids.drafts, hids.draftsNodup, ?_, ?_, ?_, ?_, ?_, ?_⟩
  · rw [hqueue]; exact h.nodup.erase jid
  · intro other
    rw [hqueue, h.nodup.mem_erase_iff, hstatus, h.queued]
    split
    · rename_i he
      simp [he]
    · rename_i hne
      simp [hne]
  · intro other hwait
    rw [hworker] at hwait
    have hne : other ≠ jid := fun he => hpeeked (he ▸ hwait)
    have hhead := h.peeked other hwait
    rw [hqueue]
    cases hcons : m.queue with
    | nil => simp [hcons] at hhead
    | cons first rest =>
        obtain rfl : first = other := by simpa [hcons] using hhead
        rw [List.erase_cons_tail (by simpa using hne)]
        rfl
  · intro front other hmem
    rw [hevents] at hmem
    rcases List.mem_append.mp hmem with hmem | hmem
    · exact h.pops front other hmem
    · simp at hmem
  · intro other; rw [hsubmissions, hsome]; exact h.known other
  · rw [hsubmissions]; exact h.submissionsNodup
  · rw [hstarts, hqueue, hsubmissions]
    exact ((List.Sublist.refl _).append List.erase_sublist).trans h.order
  · intro other hother
    rw [hcancellations, List.mem_append, List.mem_singleton] at hother
    rw [hsubmissions, hstarts, hqueue]
    rcases hother with hother | rfl
    · obtain ⟨hsub, hns, hnq⟩ := h.canceled other hother
      exact ⟨hsub, hns, fun hmem => hnq (List.mem_of_mem_erase hmem)⟩
    · exact ⟨h.order.subset (List.mem_append_right _ hqueued), hnotStarted, h.nodup.not_mem_erase⟩
  · intro other hother
    rw [hsubmissions] at hother
    rw [hqueue, hstarts, hcancellations]
    rcases h.accounted other hother with hmem | hmem | hmem
    · by_cases hne : other = jid
      · exact Or.inr (Or.inr (by simp [hne]))
      · exact Or.inl ((h.nodup.mem_erase_iff).mpr ⟨hne, hmem⟩)
    · exact Or.inr (Or.inl hmem)
    · exact Or.inr (Or.inr (List.mem_append_left _ hmem))
  · rw [hstarts, hworker]; exact h.current
  · rw [hstarts, hmonitors]; exact h.monitored

/-- Popping and starting the job at the front. -/
theorem start (h : QueueInv m) {jid : JobId} {info : JobInfo} (hinfo : m.jobs jid = some info)
    (hhead : m.queue.head? = some jid) :
    QueueInv { m.setJob jid { info with status := .running } with
      queue := m.queue.tail
      worker := .started jid
      events := m.events ++ [.popped m.queue.head? jid] } := by
  obtain ⟨rest, hqueue⟩ : ∃ rest, m.queue = jid :: rest := by
    cases hcons : m.queue with
    | nil => simp [hcons] at hhead
    | cons first rest => exact ⟨rest, by simpa [hcons] using hhead⟩
  obtain ⟨hfirst, hrest⟩ := List.nodup_cons.mp (hqueue ▸ h.nodup)
  have hids : IdInv (m.setJob jid { info with status := .running }) := h.ids.frame rfl rfl (isSome_setJob hinfo _)
  have hsubmissions : (m.events ++ [JobEvent.popped m.queue.head? jid]).filterMap JobEvent.submission? =
      m.submissions := by simp [submissions, JobEvent.submission?]
  have hstarts : (m.events ++ [JobEvent.popped m.queue.head? jid]).filterMap JobEvent.start? =
      m.starts ++ [jid] := by simp [starts, JobEvent.start?]
  have hcancellations : (m.events ++ [JobEvent.popped m.queue.head? jid]).filterMap JobEvent.cancellation? =
      m.cancellations := by simp [cancellations, JobEvent.cancellation?]
  have htail : m.queue.tail = rest := by rw [hqueue]; rfl
  refine ⟨?_, ?_, ?_, ?_, ?_, hids.numbered, hids.drafts, hids.draftsNodup, ?_, ?_, ?_, ?_, ?_, ?_⟩
  · change m.queue.tail.Nodup
    rwa [htail]
  · intro other
    change other ∈ m.queue.tail ↔ (m.setJob jid { info with status := .running }).status other = some .queued
    rw [htail, status_setJob]
    by_cases hne : other = jid
    · simp [hne, hfirst]
    · rw [if_neg hne, ← h.queued, hqueue]
      simp [hne]
  · rintro other ⟨⟩
  · intro front other hmem
    rcases List.mem_append.mp hmem with hmem | hmem
    · exact h.pops front other hmem
    · simp only [List.mem_singleton, JobEvent.popped.injEq] at hmem
      rw [hmem.1, hmem.2, hhead]
  · intro other
    change other ∈ (m.events ++ [_]).filterMap JobEvent.submission? ↔ _
    rw [hsubmissions, h.known]
    exact Bool.eq_iff_iff.mp (isSome_setJob hinfo _ other).symm
  · change ((m.events ++ [_]).filterMap JobEvent.submission?).Nodup
    rw [hsubmissions]
    exact h.submissionsNodup
  · change ((m.events ++ [_]).filterMap JobEvent.start? ++ m.queue.tail).Sublist
      ((m.events ++ [_]).filterMap JobEvent.submission?)
    have horder := h.order
    rw [hqueue] at horder
    rw [hstarts, hsubmissions, htail, List.append_assoc]
    exact horder
  · intro other hother
    change other ∈ (m.events ++ [_]).filterMap JobEvent.cancellation? at hother
    change other ∈ (m.events ++ [_]).filterMap JobEvent.submission? ∧
      other ∉ (m.events ++ [_]).filterMap JobEvent.start? ∧ other ∉ m.queue.tail
    rw [hcancellations] at hother
    obtain ⟨hsub, hns, hnq⟩ := h.canceled other hother
    rw [hqueue, List.mem_cons, not_or] at hnq
    rw [hsubmissions, hstarts, htail]
    exact ⟨hsub, by simp [hns, hnq.1], hnq.2⟩
  · intro other hother
    change other ∈ (m.events ++ [_]).filterMap JobEvent.submission? at hother
    change other ∈ m.queue.tail ∨ other ∈ (m.events ++ [_]).filterMap JobEvent.start? ∨
      other ∈ (m.events ++ [_]).filterMap JobEvent.cancellation?
    rw [hsubmissions] at hother
    rw [hstarts, hcancellations, htail]
    rcases h.accounted other hother with hmem | hmem | hmem
    · rcases List.mem_cons.mp (hqueue ▸ hmem) with rfl | hmem
      · exact Or.inr (Or.inl (by simp))
      · exact Or.inl hmem
    · exact Or.inr (Or.inl (List.mem_append_left _ hmem))
    · exact Or.inr (Or.inr hmem)
  · intro other hother
    obtain rfl : jid = other := by simpa [WorkerPoint.job?] using hother
    change jid ∈ (m.events ++ [_]).filterMap JobEvent.start?
    rw [hstarts]
    simp
  · intro other hother
    change other ∈ (m.events ++ [_]).filterMap JobEvent.start?
    rw [hstarts]
    exact List.mem_append_left _ (h.monitored other hother)

/-- Every step but the cancellation of the peeked job keeps the invariant. -/
theorem move (h : QueueInv m) (hpeeked : ∀ jid, label = .cancelJob jid → m.worker ≠ .measureWait jid)
    (hmove : JobMove m label m') : QueueInv m' := by
  have hjob : ∀ {jid point}, m.worker = point → point.job? = some jid → m.worker.job? = some jid :=
    fun hworker hpoint => hworker ▸ hpoint
  have hnot : ∀ {jid}, m.worker.job? = some jid → m.status jid ≠ some .queued :=
    fun hjob => h.not_queued_of_started (h.current _ hjob)
  have hidle : QueueInv { m with worker := .waiting } := h.frame_worker (by simp) (by simp [WorkerPoint.job?])
  cases hmove with
  | submitBegin =>
      exact h.frame (h.ids.submitBegin _ _ _) rfl rfl (fun _ => Iff.rfl) (fun _ => rfl) h.peeked h.current h.monitored
  | submitEnqueue hdraft => exact h.submitEnqueue hdraft
  | cancelQueued hinfo hstatus => exact h.cancelQueued hinfo hstatus rfl (hpeeked _ rfl) rfl
  | cancelRunning hinfo hstatus => exact h.setJob hinfo (by simp [status, hinfo, hstatus]) (by simp)
  | cancelRefused | wait => exact h
  | stop =>
      exact h.frame (h.ids.frame rfl rfl fun _ => rfl) rfl rfl (fun _ => Iff.rfl) (fun _ => rfl) h.peeked h.current
        h.monitored
  | exit => exact h.frame_worker (by simp) (by simp [WorkerPoint.job?])
  | peek hhead =>
      refine h.frame_worker (fun other hwait => ?_) (by simp [WorkerPoint.job?])
      rw [hhead, WorkerPoint.measureWait.inj hwait]
  | start hinfo hfrom halone => exact h.start hinfo (hfrom.elim id (h.peeked _))
  | body hworker hmove => exact h.frame_body (hjob hworker hmove.same_job.1) hmove.same_job.2
  | activate hworker =>
      rename_i jid runInfo
      have hspawning : QueueInv { m with worker := .spawning jid runInfo } := h.frame_body (hjob hworker rfl) rfl
      exact hspawning.frame_monitors h.monitored _
  | spawn hworker =>
      rename_i jid runInfo
      have hfinishing : QueueInv { m with worker := .finishing jid runInfo (.ok enqueuedResult) } :=
        h.frame_body (hjob hworker rfl) rfl
      refine hfinishing.frame_monitors (fun other hother => ?_) m.activeMeasureJobs
      rcases List.mem_append.mp hother with hold | hnew
      · exact h.monitored other hold
      · rw [List.mem_singleton.mp hnew]
        exact h.current jid (hjob hworker rfl)
  | leave hworker hleft => exact hidle
  | complete hworker hinfo htype => exact hidle.setJob hinfo (hnot (hjob hworker rfl)) (by simp)
  | fail hworker hinfo =>
      exact (hidle.setJob hinfo (hnot (hjob hworker rfl)) (by simp)).frame_monitors h.monitored _
  | monitorDone hmonitor hinfo =>
      refine (h.setJob hinfo (h.not_queued_of_started (h.monitored _ hmonitor)) (by simp)).frame_monitors ?_ _
      exact fun other hother => h.monitored other (List.mem_of_mem_erase hother)
  | monitorLost hmonitor hnone =>
      exact h.frame_monitors (fun other hother => h.monitored other (List.mem_of_mem_erase hother)) _

end QueueInv

/-! ### Runs -/

/-- No caller cancels the job that `worker_loop` has peeked while the worker waits for the measure jobs. -/
def SparesPeeked (m : JobManager) : Label → Prop
  | .cancelJob jid => m.worker.peeked? ≠ some jid
  | _ => True

instance (m : JobManager) (label : Label) : Decidable (SparesPeeked m label) :=
  match label with
  | .cancelJob jid => inferInstanceAs (Decidable (m.worker.peeked? ≠ some jid))
  | .submitBegin _ _ _ | .submitEnqueue _ | .stop | .worker _ _ | .monitorDone _ _ => inferInstanceAs (Decidable True)

theorem queueInv_step {m m' : JobManager} {label : Label} (h : QueueInv m) (hspare : SparesPeeked m label)
    (hnext : m.step label = some m') : QueueInv m' := by
  refine h.move (fun jid hlabel hwait => ?_) (step_jobMove hnext)
  subst hlabel
  exact hspare (by rw [hwait]; rfl)

theorem queueInv_of_reachable {m : JobManager} (hreach : ReachableWhile system SparesPeeked m) : QueueInv m :=
  hreach.invariant QueueInv.init fun _ _ _ hinv hspare hnext => queueInv_step hinv hspare hnext

/-- What the queue promises in one state. -/
structure QueueIntegrity (m : JobManager) : Prop where
  /-- no duplicates, and exactly the queued jobs -/
  nodup : m.queue.Nodup
  queued : ∀ jid, jid ∈ m.queue ↔ m.status jid = some .queued
  /-- every `pop_front` so far found the queue non-empty and removed the id then marked running -/
  pops : ∀ front jid, .popped front jid ∈ m.events → front = some jid
  /-- no job is lost -/
  accounted : ∀ jid ∈ m.submissions, jid ∈ m.queue ∨ jid ∈ m.starts ∨ jid ∈ m.cancellations
  /-- no job is run twice -/
  startedOnce : m.starts.Nodup
  /-- no job runs that was canceled while queued -/
  canceledNotRun : ∀ jid ∈ m.cancellations, jid ∉ m.starts
  /-- jobs start in submission order -/
  inOrder : m.starts.Sublist m.submissions

end JobManager

open JobManager in
/-- In every run in which no caller cancels the peeked job during the wait for the measure jobs, the queue keeps its promises in every state. -/
theorem jobQueue_integrity {m : JobManager} (hreach : ReachableWhile system SparesPeeked m) : QueueIntegrity m := by
  have h := queueInv_of_reachable hreach
  have horder : m.starts.Sublist m.submissions := (List.sublist_append_left _ _).trans h.order
  exact ⟨h.nodup, h.queued, h.pops, h.accounted, h.submissionsNodup.sublist horder,
    fun jid hjid => (h.canceled jid hjid).2.1, horder⟩

namespace JobManager

/-- Two jobs are submitted, the measure job is dispatched and keeps its monitor, and the worker peeks the other job. -/
def peekingRun : List Label :=
  [.submitBegin measureType (.object [(bytes "script_path", .string (bytes "sweep.lua"))]) 0,
    .submitEnqueue (makeJobId 0 1), .submitBegin sleepType (.object []) 0, .submitEnqueue (makeJobId 0 2),
    .submitBegin sleepType (.object []) 0, .submitEnqueue (makeJobId 0 3), .worker true [], .worker true [],
    .worker true [], .worker true [], .worker true [], .worker true []]

/-- A caller cancels another queued job, and the peeked one starts after the monitor is done. -/
def cancelOtherRun : List Label :=
  peekingRun ++ [.cancelJob (makeJobId 0 3), .monitorDone (makeJobId 0 1) .null, .worker true []]

/-- A caller cancels the peeked job and the one behind it, and the worker pops the empty queue. -/
def cancelPeekedRun : List Label :=
  peekingRun ++ [.cancelJob (makeJobId 0 2), .cancelJob (makeJobId 0 3), .monitorDone (makeJobId 0 1) .null,
    .worker true []]

end JobManager

open JobManager in
theorem jobQueue_integrity_cancelOtherRun :
    ∃ m, system.runWhile SparesPeeked init cancelOtherRun = some m ∧
      m.starts = [makeJobId 0 1, makeJobId 0 2] ∧ m.cancellations = [makeJobId 0 3] ∧ QueueIntegrity m := by
  have hview : (system.runWhile SparesPeeked init cancelOtherRun).map (fun m => (m.starts, m.cancellations)) =
      some ([makeJobId 0 1, makeJobId 0 2], [makeJobId 0 3]) := by decide
  obtain ⟨m, hm, hlists⟩ := Option.map_eq_some_iff.mp hview
  obtain ⟨hstarts, hcancellations⟩ := Prod.mk.inj hlists
  exact ⟨m, hm, hstarts, hcancellations, jobQueue_integrity (ReachableWhile.init.run hm)⟩

open JobManager in
/-- Cancelling the peeked job makes the worker pop the empty queue and run the canceled job. -/
theorem jobQueue_broken_cancelPeekedRun :
    ∃ m, Reachable system m ∧ system.run cancelPeekedRun = some m ∧
      .popped none (makeJobId 0 2) ∈ m.events ∧ makeJobId 0 2 ∈ m.cancellations ∧ makeJobId 0 2 ∈ m.starts ∧
      ¬ QueueIntegrity m := by
  have hview : (system.run cancelPeekedRun).map (fun m => (m.starts, m.cancellations, m.events.getLast?)) =
      some ([makeJobId 0 1, makeJobId 0 2], [makeJobId 0 2, makeJobId 0 3],
        some (.popped none (makeJobId 0 2))) := by decide
  obtain ⟨m, hm, hlists⟩ := Option.map_eq_some_iff.mp hview
  obtain ⟨hstarts, hlists⟩ := Prod.mk.inj hlists
  obtain ⟨hcancellations, hlast⟩ := Prod.mk.inj hlists
  have hpopped : .popped none (makeJobId 0 2) ∈ m.events := List.mem_of_getLast? hlast
  refine ⟨m, reachable_of_run hm, hm, hpopped, by simp [hcancellations], by simp [hstarts], fun hintegrity => ?_⟩
  simpa using hintegrity.pops none _ hpopped

end InstrumentServer
