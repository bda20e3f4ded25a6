import InstrumentServer.Server.JobManager
import Mathlib.Data.List.Nodup
import Mathlib.Data.List.Perm.Subperm

/-!
# The steps of the job manager

What a step of the job manager can do, said once: `JobMove` has a constructor for every way a thread moves on, with the branch of the source it takes. Two facts follow for all of them. The table of jobs only grows, and a job in it keeps its type and stays begun; the ids are drawn from the counter, once each.
-/

namespace InstrumentServer

open ByteString Transition

/-- The job whose body `worker_loop` is in. -/
def WorkerPoint.job? : WorkerPoint → Option JobId
  | .started jid | .sleeping jid _ _ _ | .scripting jid _ | .spawning jid _ | .finishing jid _ _ => some jid
  | _ => none

/-- The job `worker_loop` has peeked, while it waits for the measure jobs. -/
def WorkerPoint.peeked? : WorkerPoint → Option JobId
  | .measureWait jid => some jid
  | _ => none

namespace JobManager

/-! ### Job ids -/

/-- The drawn number can be read off the id. -/
theorem makeJobId_number {ms ms' : Int} {n n' : Nat} (h : makeJobId ms n = makeJobId ms' n') : n = n' := by
  have hbytes : bytes "-" = [45] := by decide
  simp only [makeJobId, hbytes, List.append_assoc, List.singleton_append] at h
  rw [← List.append_assoc, ← List.append_assoc] at h
  exact eq_of_append_decimal (by decide) h

/-! ### The job table -/

theorem status_setJob (m : JobManager) (jid other : JobId) (info : JobInfo) :
    (m.setJob jid info).status other = if other = jid then some info.status else m.status other := by
  by_cases h : other = jid
  · subst h
    simp [status, setJob]
  · simp [status, setJob, h]

theorem isSome_setJob {m : JobManager} {jid : JobId} {old : JobInfo} (hold : m.jobs jid = some old)
    (info : JobInfo) (other : JobId) : ((m.setJob jid info).jobs other).isSome = (m.jobs other).isSome := by
  by_cases h : other = jid
  · subst h
    simp [setJob, hold]
  · simp [setJob, Function.update_of_ne h]

/-! ### What a step can do -/

/-- The moves of `worker_loop` inside the body of a job that change nothing else. -/
inductive BodyMove (m : JobManager) (jid : JobId) : WorkerPoint → WorkerPoint → Prop where
  | sleep {runInfo : JobInfo} {ms : Int} (hinfo : m.jobs jid = some runInfo) (htype : runInfo.type = sleepType) :
      BodyMove m jid (.started jid) (.sleeping jid runInfo ms 0)
  | script {runInfo : JobInfo} (hinfo : m.jobs jid = some runInfo) (htype : runInfo.type = measureType) :
      BodyMove m jid (.started jid) (.scripting jid runInfo)
  | reject {runInfo : JobInfo} {err : ByteString} (hinfo : m.jobs jid = some runInfo) :
      BodyMove m jid (.started jid) (.finishing jid runInfo (.error err))
  | round {runInfo : JobInfo} {ms slept slept' : Int} :
      BodyMove m jid (.sleeping jid runInfo ms slept) (.sleeping jid runInfo ms slept')
  | wake {runInfo : JobInfo} {ms slept : Int} {outcome : Except ByteString Json} :
      BodyMove m jid (.sleeping jid runInfo ms slept) (.finishing jid runInfo outcome)
  | scriptError {runInfo : JobInfo} {err : ByteString} :
      BodyMove m jid (.scripting jid runInfo) (.finishing jid runInfo (.error err))
  | spawnError {runInfo : JobInfo} {err : ByteString} :
      BodyMove m jid (.spawning jid runInfo) (.finishing jid runInfo (.error err))

/-- The steps of all threads, with the state after each. -/
inductive JobMove (m : JobManager) : Label → JobManager → Prop where
  | submitBegin {jobType : ByteString} {params : Json} {ms : Int} :
      JobMove m (.submitBegin jobType params ms) (m.submitBegin jobType params ms)
  | submitEnqueue {info : JobInfo} (hdraft : info ∈ m.submitting) :
      JobMove m (.submitEnqueue info.id) (m.submitEnqueue info)
  | cancelQueued {jid : JobId} {info : JobInfo} (hinfo : m.jobs jid = some info) (hstatus : info.status = .queued) :
      JobMove m (.cancelJob jid)
        { m.setJob jid { info with status := .canceled, error := bytes "canceled" } with
          queue := m.queue.erase jid
          events := m.events ++ [.canceledQueued jid] }
  | cancelRunning {jid : JobId} {info : JobInfo} (hinfo : m.jobs jid = some info) (hstatus : info.status = .running) :
      JobMove m (.cancelJob jid) (m.setJob jid { info with status := .canceling })
  | cancelRefused {jid : JobId} (hrefused : (m.cancelJob jid).2 = false) : JobMove m (.cancelJob jid) m
  | stop : JobMove m .stop m.stop
  | exit {ok : Bool} {what : ByteString} : JobMove m (.worker ok what) { m with worker := .exited }
  | peek {ok : Bool} {what : ByteString} {jid : JobId} (hhead : m.queue.head? = some jid) :
      JobMove m (.worker ok what) { m with worker := .measureWait jid }
  | wait {ok : Bool} {what : ByteString} : JobMove m (.worker ok what) m
  | start {ok : Bool} {what : ByteString} {jid : JobId} {info : JobInfo} (hinfo : m.jobs jid = some info)
      (hfrom : m.queue.head? = some jid ∨ m.worker = .measureWait jid)
      (halone : m.running = true → info.type ≠ measureType → m.activeMeasureJobs = ∅) :
      JobMove m (.worker ok what)
        { m.setJob jid { info with status := .running } with
          queue := m.queue.tail
          worker := .started jid
          events := m.events ++ [.popped m.queue.head? jid] }
  | body {ok : Bool} {what : ByteString} {jid : JobId} {before point : WorkerPoint} (hworker : m.worker = before)
      (hmove : BodyMove m jid before point) :
      JobMove m (.worker ok what) { m with worker := point }
  | activate {ok : Bool} {what : ByteString} {jid : JobId} {runInfo : JobInfo}
      (hworker : m.worker = .scripting jid runInfo) :
      JobMove m (.worker ok what)
        { m with activeMeasureJobs := insert jid m.activeMeasureJobs, worker := .spawning jid runInfo }
  | spawn {ok : Bool} {what : ByteString} {jid : JobId} {runInfo : JobInfo}
      (hworker : m.worker = .spawning jid runInfo) :
      JobMove m (.worker ok what)
        { m with monitors := m.monitors ++ [jid], worker := .finishing jid runInfo (.ok enqueuedResult) }
  /-- the job is unknown, or its monitor sets the final status -/
  | leave {ok : Bool} {what : ByteString} {jid : JobId} {runInfo : JobInfo} {outcome : Except ByteString Json}
      (hworker : m.worker = .finishing jid runInfo outcome)
      (hleft : m.jobs jid = none ∨ runInfo.type = measureType ∧ ∃ result, outcome = .ok result) :
      JobMove m (.worker ok what) { m with worker := .waiting }
  | complete {ok : Bool} {what : ByteString} {jid : JobId} {info runInfo : JobInfo} {result : Json}
      (hworker : m.worker = .finishing jid runInfo (.ok result)) (hinfo : m.jobs jid = some info)
      (htype : runInfo.type ≠ measureType) :
      JobMove m (.worker ok what)
        { m.setJob jid { info with status := .completed, result := result } with worker := .waiting }
  | fail {ok : Bool} {what : ByteString} {jid : JobId} {info runInfo : JobInfo} {err : ByteString}
      (hworker : m.worker = .finishing jid runInfo (.error err)) (hinfo : m.jobs jid = some info) :
      JobMove m (.worker ok what)
        { m.setJob jid { info with status := .failed, error := err } with
          worker := .waiting
          activeMeasureJobs :=
            if runInfo.type = measureType then m.activeMeasureJobs.erase jid else m.activeMeasureJobs }
  | monitorDone {jid : JobId} {info : JobInfo} {result : Json} (hmonitor : jid ∈ m.monitors)
      (hinfo : m.jobs jid = some info) :
      JobMove m (.monitorDone jid result)
        { m.setJob jid { info with status := .completed, result := result } with
          monitors := m.monitors.erase jid
          activeMeasureJobs := m.activeMeasureJobs.erase jid }
  | monitorLost {jid : JobId} {result : Json} (hmonitor : jid ∈ m.monitors) (hnone : m.jobs jid = none) :
      JobMove m (.monitorDone jid result)
        { m with monitors := m.monitors.erase jid, activeMeasureJobs := m.activeMeasureJobs.erase jid }

variable {m m' : JobManager}

/-- Inside a body the worker stays with its job. -/
theorem BodyMove.same_job {jid : JobId} {before point : WorkerPoint} (hmove : BodyMove m jid before point) :
    before.job? = some jid ∧ point.job? = some jid := by
  cases hmove with
  | sleep | script | reject | round | wake | scriptError | spawnError => exact ⟨rfl, rfl⟩

theorem cancelJob_move (m : JobManager) (jid : JobId) : JobMove m (.cancelJob jid) (m.cancelJob jid).1 := by
  cases hinfo : m.jobs jid with
  | none =>
      have hcancel : m.cancelJob jid = (m, false) := by simp [cancelJob, hinfo]
      rw [hcancel]
      exact .cancelRefused (by rw [hcancel])
  | some info =>
      cases hstatus : info.status with
      | queued =>
          have hmove := JobMove.cancelQueued hinfo hstatus
          simpa [cancelJob, hinfo, hstatus, setJob] using hmove
      | running =>
          have hmove := JobMove.cancelRunning hinfo hstatus
          simpa [cancelJob, hinfo, hstatus] using hmove
      | completed | failed | canceling | canceled =>
          have hcancel : m.cancelJob jid = (m, false) := by simp [cancelJob, hinfo, hstatus]
          rw [hcancel]
          exact .cancelRefused (by rw [hcancel])

theorem popAndStart_move {ok : Bool} {what : ByteString} {jid : JobId}
    (hfrom : m.queue.head? = some jid ∨ m.worker = .measureWait jid)
    (halone : ∀ info, m.jobs jid = some info → m.running = true → info.type ≠ measureType → m.activeMeasureJobs = ∅)
    (hnext : m.popAndStart jid = some m') : JobMove m (.worker ok what) m' := by
  cases hinfo : m.jobs jid with
  | none => simp [popAndStart, hinfo] at hnext
  | some info =>
      simp only [popAndStart, hinfo, Option.some.injEq] at hnext
      exact hnext ▸ .start hinfo hfrom (halone info hinfo)

theorem beginBody_move {ok : Bool} {what : ByteString} {jid : JobId} (hworker : m.worker = .started jid)
    (hnext : m.beginBody jid what = some m') : JobMove m (.worker ok what) m' := by
  have hbody : ∀ point, BodyMove m jid (.started jid) point → some { m with worker := point } = some m' →
      JobMove m (.worker ok what) m' := by
    rintro point hmove ⟨⟩
    exact .body hworker hmove
  cases hinfo : m.jobs jid with
  | none => simp [beginBody, hinfo] at hnext
  | some info =>
      simp only [beginBody, hinfo] at hnext
      split at hnext
      · rename_i htype
        exact hbody _ (.sleep hinfo htype) hnext
      · split at hnext
        · rename_i htype
          split at hnext
          · exact hbody _ (.reject hinfo) hnext
          · exact hbody _ (.reject hinfo) hnext
          · exact hbody _ (.script hinfo htype) hnext
        · exact hbody _ (.reject hinfo) hnext

theorem finishBody_move {ok : Bool} {what : ByteString} {jid : JobId} {runInfo : JobInfo}
    {outcome : Except ByteString Json} (hworker : m.worker = .finishing jid runInfo outcome) :
    JobMove m (.worker ok what) (m.finishBody jid runInfo outcome) := by
  cases hinfo : m.jobs jid with
  | none =>
      rw [finishBody, hinfo]
      exact .leave hworker (Or.inl hinfo)
  | some info =>
      cases outcome with
      | ok result =>
          by_cases htype : runInfo.type = measureType
          · have hmove : JobMove m (.worker ok what) _ := .leave hworker (Or.inr ⟨htype, result, rfl⟩)
            simpa [finishBody, hinfo, htype] using hmove
          · have hmove : JobMove m (.worker ok what) _ := .complete hworker hinfo htype
            simpa [finishBody, hinfo, htype, setJob] using hmove
      | error err =>
          have hmove : JobMove m (.worker ok what) _ := .fail hworker hinfo
          by_cases htype : runInfo.type = measureType
          · simpa [finishBody, hinfo, htype, setJob] using hmove
          · simpa [finishBody, hinfo, htype, setJob] using hmove

theorem monitorDone_move {jid : JobId} {result : Json} (hmonitor : jid ∈ m.monitors) :
    JobMove m (.monitorDone jid result) (m.monitorDone jid result) := by
  cases hinfo : m.jobs jid with
  | none =>
      have hmove : JobMove m (.monitorDone jid result) _ := .monitorLost hmonitor hinfo
      simpa [JobManager.monitorDone, hinfo] using hmove
  | some info =>
      have hmove : JobMove m (.monitorDone jid result) _ := .monitorDone hmonitor hinfo
      simpa [JobManager.monitorDone, hinfo, setJob] using hmove

theorem workerStep_move {ok : Bool} {what : ByteString} (hnext : m.workerStep ok what = some m') :
    JobMove m (.worker ok what) m' := by
  cases hworker : m.worker with
  | waiting =>
      simp only [workerStep, hworker, peekFront] at hnext
      split at hnext
      · split at hnext
        · simp at hnext
        · obtain rfl := Option.some.inj hnext
          exact .exit
      · rename_i jid rest hqueue
        have hhead : m.queue.head? = some jid := by simp [hqueue]
        split at hnext
        · simp at hnext
        · rename_i info hinfo
          split at hnext
          · obtain rfl := Option.some.inj hnext
            exact .peek hhead
          · rename_i hgo
            refine popAndStart_move (Or.inl hhead) (fun info' hinfo' hrunning htype => ?_) hnext
            obtain rfl := Option.some.inj (hinfo.symm.trans hinfo')
            by_contra hactive
            exact hgo ⟨htype, hactive, hrunning⟩
  | measureWait jid =>
      simp only [workerStep, hworker, wakeFromMeasureWait] at hnext
      split at hnext
      · obtain rfl := Option.some.inj hnext
        exact .wait
      · rename_i hgo
        refine popAndStart_move (Or.inr hworker) (fun info _ hrunning _ => ?_) hnext
        by_contra hactive
        exact hgo ⟨hactive, hrunning⟩
  | started jid => exact beginBody_move hworker (by simpa [workerStep, hworker] using hnext)
  | sleeping jid runInfo ms slept =>
      simp only [workerStep, hworker, Option.some.injEq] at hnext
      subst hnext
      rw [sleepRound]
      split
      · split
        · exact .body hworker .wake
        · exact .body hworker .wake
        · exact .body hworker .round
      · exact .body hworker .wake
  | scripting jid runInfo =>
      simp only [workerStep, hworker] at hnext
      split at hnext
      · obtain rfl := Option.some.inj hnext
        exact .activate hworker
      · obtain rfl := Option.some.inj hnext
        exact .body hworker .scriptError
  | spawning jid runInfo =>
      simp only [workerStep, hworker] at hnext
      split at hnext
      · obtain rfl := Option.some.inj hnext
        exact .spawn hworker
      · obtain rfl := Option.some.inj hnext
        exact .body hworker .spawnError
  | finishing jid runInfo outcome =>
      simp only [workerStep, hworker, Option.some.injEq] at hnext
      exact hnext ▸ finishBody_move hworker
  | exited => simp [workerStep, hworker] at hnext

theorem step_jobMove {label : Label} (hnext : m.step label = some m') : JobMove m label m' := by
  cases label with
  | submitBegin jobType params ms =>
      obtain rfl := Option.some.inj hnext
      exact .submitBegin
  | submitEnqueue jid =>
      obtain ⟨info, hfind, rfl⟩ := Option.map_eq_some_iff.mp hnext
      obtain rfl : info.id = jid := by simpa using List.find?_some hfind
      exact .submitEnqueue (List.mem_of_find?_eq_some hfind)
  | cancelJob jid =>
      obtain rfl := Option.some.inj hnext
      exact cancelJob_move m jid
  | stop =>
      obtain rfl := Option.some.inj hnext
      exact .stop
  | worker ok what => exact workerStep_move hnext
  | monitorDone jid result =>
      simp only [step] at hnext
      split at hnext
      · rename_i hmonitor
        obtain rfl := Option.some.inj hnext
        exact monitorDone_move hmonitor
      · simp at hnext

end JobManager

/-- The statuses of a job that was started. -/
def JobStatus.Begun (status : JobStatus) : Prop := status ≠ .queued ∧ status ≠ .canceled

namespace JobManager

/-! ### What stays -/

/-- Jobs stay in the table, keep their type and stay begun. -/
def Keeps (jobs jobs' : JobId → Option JobInfo) : Prop :=
  ∀ jid info, jobs jid = some info → ∃ info', jobs' jid = some info' ∧ info'.type = info.type ∧
    (info.status.Begun → info'.status.Begun)

theorem keeps_refl (jobs : JobId → Option JobInfo) : Keeps jobs jobs :=
  fun _ info hinfo => ⟨info, hinfo, rfl, id⟩

theorem keeps_setJob {m : JobManager} {jid : JobId} {info info' : JobInfo} (hinfo : m.jobs jid = some info)
    (htype : info'.type = info.type) (hbegun : info.status.Begun → info'.status.Begun) :
    Keeps m.jobs (m.setJob jid info').jobs := by
  intro other old hold
  by_cases hother : other = jid
  · subst hother
    obtain rfl := Option.some.inj (hinfo.symm.trans hold)
    exact ⟨info', by simp [setJob], htype, hbegun⟩
  · exact ⟨old, by simpa [setJob, hother] using hold, rfl, id⟩

section Table

variable {m m' : JobManager} {label : Label}

theorem keeps_submitEnqueue (m : JobManager) (info : JobInfo) : Keeps m.jobs (m.submitEnqueue info).jobs := by
  intro jid old hold
  refine ⟨old, ?_, rfl, id⟩
  by_cases hsome : (m.jobs info.id).isSome
  · simpa [submitEnqueue, hsome] using hold
  · have hne : jid ≠ info.id := by
      rintro rfl
      simp [hold] at hsome
    simpa [submitEnqueue, hsome, hne] using hold

theorem JobMove.keeps (hmove : JobMove m label m') : Keeps m.jobs m'.jobs := by
  have hbegun : ∀ {status : JobStatus}, status ≠ .queued → status ≠ .canceled → status.Begun := fun hq hc => ⟨hq, hc⟩
  cases hmove with
  | submitEnqueue hdraft => exact keeps_submitEnqueue m _
  | cancelQueued hinfo hstatus => exact keeps_setJob hinfo rfl fun h => absurd hstatus h.1
  | cancelRunning hinfo hstatus => exact keeps_setJob hinfo rfl fun _ => hbegun (by simp) (by simp)
  | start hinfo hfrom halone => exact keeps_setJob hinfo rfl fun _ => hbegun (by simp) (by simp)
  | complete hworker hinfo htype => exact keeps_setJob hinfo rfl fun _ => hbegun (by simp) (by simp)
  | fail hworker hinfo => exact keeps_setJob hinfo rfl fun _ => hbegun (by simp) (by simp)
  | monitorDone hmonitor hinfo => exact keeps_setJob hinfo rfl fun _ => hbegun (by simp) (by simp)
  | submitBegin | cancelRefused | stop | exit | peek | wait | body | activate | spawn | leave | monitorLost =>
      exact keeps_refl _

/-- Only `submit_job` draws numbers and adds jobs. -/
theorem JobMove.submission_or_same (hmove : JobMove m label m') :
    (∃ jobType params ms, m' = m.submitBegin jobType params ms) ∨ (∃ info ∈ m.submitting, m' = m.submitEnqueue info) ∨
      (m'.nextId = m.nextId ∧ m'.submitting = m.submitting ∧ ∀ jid, (m'.jobs jid).isSome = (m.jobs jid).isSome) := by
  cases hmove with
  | submitBegin => exact Or.inl ⟨_, _, _, rfl⟩
  | submitEnqueue hdraft => exact Or.inr (Or.inl ⟨_, hdraft, rfl⟩)
  | cancelQueued hinfo hstatus => exact Or.inr (Or.inr ⟨rfl, rfl, isSome_setJob hinfo _⟩)
  | cancelRunning hinfo hstatus => exact Or.inr (Or.inr ⟨rfl, rfl, isSome_setJob hinfo _⟩)
  | start hinfo hfrom halone => exact Or.inr (Or.inr ⟨rfl, rfl, isSome_setJob hinfo _⟩)
  | complete hworker hinfo htype => exact Or.inr (Or.inr ⟨rfl, rfl, isSome_setJob hinfo _⟩)
  | fail hworker hinfo => exact Or.inr (Or.inr ⟨rfl, rfl, isSome_setJob hinfo _⟩)
  | monitorDone hmonitor hinfo => exact Or.inr (Or.inr ⟨rfl, rfl, isSome_setJob hinfo _⟩)
  | cancelRefused | stop | exit | peek | wait | body | activate | spawn | leave | monitorLost =>
      exact Or.inr (Or.inr ⟨rfl, rfl, fun _ => rfl⟩)

end Table

/-- The ids of the jobs and of the calls of `submit_job` that wait for the mutex are drawn from the counter, once each. -/
structure IdInv (m : JobManager) : Prop where
  numbered : ∀ jid, (m.jobs jid).isSome → ∃ ms n, jid = makeJobId ms n ∧ n < m.nextId
  drafts : ∀ info ∈ m.submitting, info.status = .queued ∧ m.jobs info.id = none ∧
    ∃ ms n, info.id = makeJobId ms n ∧ n < m.nextId
  draftsNodup : (m.submitting.map JobInfo.id).Nodup

namespace IdInv

variable {m m' : JobManager} {label : Label}

theorem init : IdInv JobManager.init := by
  constructor <;> simp [JobManager.init]

theorem frame (h : IdInv m) (hnext : m'.nextId = m.nextId) (hsubmitting : m'.submitting = m.submitting)
    (hsome : ∀ jid, (m'.jobs jid).isSome = (m.jobs jid).isSome) : IdInv m' := by
  refine ⟨fun jid hjid => ?_, fun info hinfo => ?_, ?_⟩
  · rw [hnext]
    exact h.numbered jid (hsome jid ▸ hjid)
  · rw [hsubmitting] at hinfo
    obtain ⟨hqueued, hnone, hid⟩ := h.drafts info hinfo
    have hsame := hsome info.id
    rw [hnone] at hsame
    exact ⟨hqueued, by simpa using hsame, hnext ▸ hid⟩
  · rw [hsubmitting]
    exact h.draftsNodup

theorem submitBegin (h : IdInv m) (jobType : ByteString) (params : Json) (ms : Int) :
    IdInv (m.submitBegin jobType params ms) := by
  have hfresh : ∀ jid n ms', jid = makeJobId ms' n → n < m.nextId → jid ≠ makeJobId ms m.nextId := by
    rintro jid n ms' rfl hlt he
    have := makeJobId_number he
    omega
  refine ⟨fun jid hjid => ?_, fun info hinfo => ?_, ?_⟩
  · obtain ⟨ms', n, hid, hlt⟩ := h.numbered jid hjid
    exact ⟨ms', n, hid, Nat.lt_succ_of_lt hlt⟩
  · rcases List.mem_append.mp hinfo with hold | hnew
    · obtain ⟨hqueued, hnone, ms', n, hid, hlt⟩ := h.drafts info hold
      exact ⟨hqueued, hnone, ms', n, hid, Nat.lt_succ_of_lt hlt⟩
    · obtain rfl := List.mem_singleton.mp hnew
      refine ⟨rfl, ?_, ms, m.nextId, rfl, Nat.lt_succ_self _⟩
      by_contra hne
      obtain ⟨ms', n, hid, hlt⟩ := h.numbered _ (Option.ne_none_iff_isSome.mp hne)
      exact hfresh _ n ms' hid hlt rfl
  · show ((m.submitting ++ [_]).map JobInfo.id).Nodup
    rw [List.map_append, List.nodup_append]
    refine ⟨h.draftsNodup, by simp, fun jid hjid other hother => ?_⟩
    obtain ⟨info, hinfo, rfl⟩ := List.mem_map.mp hjid
    obtain ⟨-, -, ms', n, hid, hlt⟩ := h.drafts info hinfo
    obtain rfl : other = makeJobId ms m.nextId := by simpa using hother
    exact hfresh _ n ms' hid hlt

theorem jobs_submitEnqueue (h : IdInv m) {info : JobInfo} (hdraft : info ∈ m.submitting) :
    (m.submitEnqueue info).jobs = Function.update m.jobs info.id (some info) := by
  simp [JobManager.submitEnqueue, (h.drafts info hdraft).2.1]

theorem submitEnqueue (h : IdInv m) {info : JobInfo} (hdraft : info ∈ m.submitting) : IdInv (m.submitEnqueue info) := by
  have hjobs := h.jobs_submitEnqueue hdraft
  obtain ⟨-, -, hid⟩ := h.drafts info hdraft
  refine ⟨fun jid hjid => ?_, fun other hother => ?_, h.draftsNodup.sublist (List.Sublist.map _ List.filter_sublist)⟩
  · by_cases hne : jid = info.id
    · exact hne ▸ hid
    · rw [hjobs, Function.update_of_ne hne] at hjid
      exact h.numbered jid hjid
  · obtain ⟨hmem, hne⟩ := List.mem_filter.mp hother
    obtain ⟨hqueued, hnone, hother⟩ := h.drafts other hmem
    refine ⟨hqueued, ?_, hother⟩
    rw [hjobs, Function.update_of_ne (by simpa using hne)]
    exact hnone

theorem move (h : IdInv m) (hmove : JobMove m label m') : IdInv m' := by
  obtain ⟨jobType, params, ms, rfl⟩ | ⟨info, hdraft, rfl⟩ | ⟨hnext, hsubmitting, hsome⟩ := hmove.submission_or_same
  · exact h.submitBegin jobType params ms
  · exact h.submitEnqueue hdraft
  · exact h.frame hnext hsubmitting hsome

end IdInv

end JobManager

end InstrumentServer
