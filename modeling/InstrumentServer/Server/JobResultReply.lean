import InstrumentServer.Server.CommandHandlers
import InstrumentServer.Server.JobStatus

/-!
# Asking for a result

`handle_job_result` takes the mutex of the job manager twice: in `get_job_result`, and, where that finds no result, in `get_job_info`. Between the two the threads of the job manager go on, so the model of the handler reads two states, the second reached from the first by any steps. If a step in between completes the job, the handler takes a completed job for one whose result is missing.
-/

namespace InstrumentServer

/-- The text that stands for a status. -/
def JobStatus.text : JobStatus → ByteString
  | .queued => bytes "queued"
  | .running => bytes "running"
  | .completed => bytes "completed"
  | .failed => bytes "failed"
  | .canceling => bytes "canceling"
  | .canceled => bytes "canceled"

namespace JobManager

open Transition HandlerEnd

/-! ### The handler -/

def getJobInfo (m : JobManager) (jid : JobId) : Option JobInfo := m.jobs jid

def getJobResult (m : JobManager) (jid : JobId) : Option Json :=
  match m.jobs jid with
  | none => none
  | some info => if info.status ≠ .completed then none else some info.result

/-- The reply for a job that is not completed. -/
def notCompleted (info : JobInfo) : HandlerEnd :=
  .returned 1 (fields ([(bytes "ok", .boolean false), (bytes "error", .string (bytes "job not completed")),
    (bytes "status", .string info.status.text)] ++
    if info.error ≠ [] then [(bytes "error_detail", .string info.error)] else []))

/-- `handle_job_result`, with the state in which it looks for the result and the one in which it looks for the job. -/
def handleJobResult (atResult atInfo : JobManager) (params : Json) : HandlerEnd :=
  match params.value Json.getString (bytes "job_id") [] with
  | .error e => .jsonError e
  | .ok jid =>
      if jid = [] then failed (bytes "missing job_id")
      else
        match atResult.getJobResult jid with
        | some result => succeeded [(bytes "result", result)]
        | none =>
            match atInfo.getJobInfo jid with
            | none => failed (bytes "job not found")
            | some info =>
                if info.status ≠ .completed then notCompleted info else failed (bytes "no result available")

/-! ### What a caller may expect -/

/-- The reply is the result of the job, or says that it is not completed and in which other status it is. -/
inductive Answer (jid : JobId) (atResult atInfo : JobManager) : HandlerEnd → Prop where
  | result {info : JobInfo} (hinfo : atResult.jobs jid = some info) (hstatus : info.status = .completed) :
      Answer jid atResult atInfo (succeeded [(bytes "result", info.result)])
  | pending {info : JobInfo} (hinfo : atInfo.jobs jid = some info) (hstatus : info.status ≠ .completed) :
      Answer jid atResult atInfo (notCompleted info)

/-- A job that exists is answered for, and no result is reported missing. -/
structure Answered (jid : JobId) (atResult atInfo : JobManager) (reply : HandlerEnd) : Prop where
  answer : (atResult.jobs jid).isSome = true → Answer jid atResult atInfo reply
  available : reply ≠ failed (bytes "no result available")

/-- The worker is about to set the status of the job to completed. -/
def AboutToComplete (jid : JobId) : WorkerPoint → Prop
  | .finishing other runInfo (.ok _) => other = jid ∧ runInfo.type ≠ measureType
  | .finishing _ _ (.error _) | .waiting | .measureWait _ | .started _ | .sleeping .. | .scripting .. | .spawning ..
  | .exited => False

instance (jid : JobId) : (point : WorkerPoint) → Decidable (AboutToComplete jid point)
  | .finishing other runInfo (.ok _) => inferInstanceAs (Decidable (other = jid ∧ runInfo.type ≠ measureType))
  | .finishing _ _ (.error _) | .waiting | .measureWait _ | .started _ | .sleeping .. | .scripting .. | .spawning ..
  | .exited => isFalse id

/-- The step is not the one that completes the job. -/
def LeavesIncomplete (jid : JobId) (m : JobManager) : Label → Prop
  | .worker _ _ => ¬ AboutToComplete jid m.worker
  | .monitorDone other _ => other ≠ jid
  | .submitBegin .. | .submitEnqueue _ | .cancelJob _ | .stop => True

instance (jid : JobId) (m : JobManager) : (label : Label) → Decidable (LeavesIncomplete jid m label)
  | .worker _ _ => inferInstanceAs (Decidable (¬ AboutToComplete jid m.worker))
  | .monitorDone other _ => inferInstanceAs (Decidable (other ≠ jid))
  | .submitBegin .. | .submitEnqueue _ | .cancelJob _ | .stop => isTrue trivial

section

variable {m m' : JobManager} {jid : JobId} {label : Label}

/-! ### The reply -/

theorem getJobResult_eq_some_iff {result : Json} :
    m.getJobResult jid = some result ↔ ∃ info, m.jobs jid = some info ∧ info.status = .completed ∧ info.result = result := by
  rw [getJobResult]
  cases m.jobs jid with
  | none => simp
  | some info => by_cases hstatus : info.status = .completed <;> simp [hstatus]

theorem getJobResult_eq_none_iff : m.getJobResult jid = none ↔ m.status jid ≠ some .completed := by
  rw [getJobResult, status]
  cases m.jobs jid with
  | none => simp
  | some info => by_cases hstatus : info.status = .completed <;> simp [hstatus]

/-- The error text of a reply. -/
def errorText : HandlerEnd → Option ByteString
  | .returned _ out => out.textAt? (bytes "error")
  | .blocked _ | .jsonError _ | .systemError | .terminated => none

theorem errorText_failed (error : ByteString) : errorText (failed error) = some error := by
  rfl

theorem errorText_notCompleted (info : JobInfo) : errorText (notCompleted info) = some (bytes "job not completed") := by
  rw [notCompleted]
  split <;> rfl

/-- A reply with another error text is another reply. -/
theorem ne_of_errorText {reply : HandlerEnd} {text error : ByteString} (htext : errorText reply = some text)
    (hne : text ≠ error) : reply ≠ failed error := by
  rintro rfl
  rw [errorText_failed] at htext
  exact hne (Option.some.inj htext).symm

theorem succeeded_ne (entries : List (ByteString × Json)) (error : ByteString) : succeeded entries ≠ failed error := by
  simp [succeeded, failed]

/-- The handler answers as expected exactly if the job was completed before the first look or is not at the second. -/
theorem answered_iff {params : Json} (hparams : params.value Json.getString (bytes "job_id") [] = .ok jid)
    (hjid : jid ≠ []) (hstays : (m.jobs jid).isSome = true → (m'.jobs jid).isSome = true) :
    Answered jid m m' (handleJobResult m m' params) ↔
      (m'.status jid = some .completed → m.status jid = some .completed) := by
  simp only [handleJobResult, hparams, if_neg hjid]
  cases hresult : m.getJobResult jid with
  | some result =>
      obtain ⟨info, hinfo, hstatus, rfl⟩ := getJobResult_eq_some_iff.mp hresult
      refine iff_of_true ⟨fun _ => .result hinfo hstatus, succeeded_ne _ _⟩ fun _ => ?_
      rw [status_of_jobs hinfo, hstatus]
  | none =>
      have hbefore := getJobResult_eq_none_iff.mp hresult
      rw [getJobInfo]
      cases hinfo : m'.jobs jid with
      | none =>
          have hunknown : ¬ (m.jobs jid).isSome = true := fun hknown => by simpa [hinfo] using hstays hknown
          refine iff_of_true ⟨fun hknown => absurd hknown hunknown, ?_⟩ fun hcompleted => ?_
          · exact ne_of_errorText (errorText_failed _) (by decide)
          · simp [status, hinfo] at hcompleted
      | some info =>
          rw [status_of_jobs hinfo]
          dsimp only
          split
          · rename_i hstatus
            exact iff_of_true ⟨fun _ => .pending hinfo hstatus, ne_of_errorText (errorText_notCompleted info) (by decide)⟩
              fun hcompleted => absurd (Option.some.inj hcompleted) hstatus
          · rename_i hstatus
            rw [not_not] at hstatus
            exact iff_of_false (fun hanswered => hanswered.available rfl) fun hsame => hbefore (hsame (by rw [hstatus]))

/-! ### Between the two looks -/

/-- Where the table is changed at one job, only this job can become completed. -/
theorem completed_of_setJob {other : JobId} {info' : JobInfo} (hjobs : m'.jobs = (m.setJob other info').jobs)
    (hother : info'.status = .completed → jid ≠ other) (hcompleted : m'.status jid = some .completed) :
    m.status jid = some .completed := by
  by_cases hjid : jid = other
  · subst hjid
    rw [status_of_setJob hjobs] at hcompleted
    exact absurd rfl (hother (Option.some.inj hcompleted))
  · rwa [status_of_setJob_ne hjobs hjid] at hcompleted

/-- A step that does not complete the job leaves it incomplete. -/
theorem completed_of_move (hids : IdInv m) (hleaves : LeavesIncomplete jid m label) (hmove : JobMove m label m')
    (hcompleted : m'.status jid = some .completed) : m.status jid = some .completed := by
  cases hmove with
  | submitBegin | cancelRefused | stop | exit | peek | wait | body | activate | spawn | leave | monitorLost =>
      exact hcompleted
  | submitEnqueue hdraft =>
      refine completed_of_setJob (hids.jobs_submitEnqueue hdraft) (fun hstatus => ?_) hcompleted
      rw [(hids.drafts _ hdraft).1] at hstatus
      contradiction
  | cancelQueued | cancelRunning | start | fail => exact completed_of_setJob rfl (by simp) hcompleted
  | complete hworker hinfo htype =>
      refine completed_of_setJob rfl (fun _ heq => ?_) hcompleted
      rw [LeavesIncomplete, hworker] at hleaves
      exact hleaves ⟨heq.symm, htype⟩
  | monitorDone => exact completed_of_setJob rfl (fun _ => Ne.symm hleaves) hcompleted

/-- Jobs are never removed, and this one is not completed on the way. -/
theorem between {ok : JobManager → Label → Prop} (hreach : Reachable system m)
    (hbetween : ReachableWhile (system.startingAt m) ok m') :
    DispatchInv m' ∧ ((m.jobs jid).isSome = true → (m'.jobs jid).isSome = true) := by
  refine @ReachableWhile.invariant _ _ (system.startingAt m) ok
    (fun t => DispatchInv t ∧ ((m.jobs jid).isSome = true → (t.jobs jid).isSome = true))
    ⟨dispatchInv_of_reachable hreach, id⟩ ?_ m' hbetween
  rintro s t label ⟨hinv, hstays⟩ - hnext
  refine ⟨hinv.step hnext, fun hsome => ?_⟩
  obtain ⟨info, hinfo⟩ := Option.isSome_iff_exists.mp (hstays hsome)
  obtain ⟨info', hinfo', -⟩ := (step_jobMove hnext).keeps jid info hinfo
  rw [hinfo']
  rfl

theorem completed_between (hreach : Reachable system m)
    (hbetween : ReachableWhile (system.startingAt m) (LeavesIncomplete jid) m') :
    m'.status jid = some .completed → m.status jid = some .completed := by
  refine (@ReachableWhile.invariant _ _ (system.startingAt m) (LeavesIncomplete jid)
    (fun t => DispatchInv t ∧ (t.status jid = some .completed → m.status jid = some .completed))
    ⟨dispatchInv_of_reachable hreach, id⟩ ?_ m' hbetween).2
  rintro s t label ⟨hinv, hsame⟩ hleaves hnext
  exact ⟨hinv.step hnext, fun hcompleted => hsame (completed_of_move hinv.ids hleaves (step_jobMove hnext) hcompleted)⟩

end

end JobManager

open JobManager Transition in
/-- If no step between the two looks completes the job, its result is not reported missing. -/
theorem job_result_answered {m₁ m₂ : JobManager} {jid : JobId} {params : Json} (hreach : Reachable system m₁)
    (hparams : params.value Json.getString (bytes "job_id") [] = .ok jid)
    (hbetween : ReachableWhile (system.startingAt m₁) (LeavesIncomplete jid) m₂) :
    Answered jid m₁ m₂ (handleJobResult m₁ m₂ params) := by
  by_cases hjid : jid = []
  · refine ⟨fun hknown => ?_, ?_⟩
    · obtain ⟨ms, n, hid, -⟩ := (dispatchInv_of_reachable hreach).ids.numbered jid hknown
      exact absurd (hid.symm.trans hjid) (by simp [makeJobId, ByteString.decimal_ne_nil])
    · rw [handleJobResult, hparams]
      dsimp only
      rw [if_pos hjid]
      exact ne_of_errorText (errorText_failed _) (by decide)
  · exact (answered_iff hparams hjid (between hreach hbetween).2).mpr (completed_between hreach hbetween)

/-! ### Runs -/

namespace JobManager

/-- A sleep job has slept, and the worker is about to write its result. -/
def sleptRun : List Label :=
  [.submitBegin sleepType (.object [(bytes "duration_ms", .integer 0)]) 0, .submitEnqueue (makeJobId 0 1),
    .worker true [], .worker true [], .worker true []]

def askForFirst : Json := .object [(bytes "job_id", .string (makeJobId 0 1))]

end JobManager

open JobManager Transition in
theorem job_result_answered_canceling :
    ∃ m₁ m₂, Reachable system m₁ ∧
      ReachableWhile (system.startingAt m₁) (LeavesIncomplete (makeJobId 0 1)) m₂ ∧
      m₂.status (makeJobId 0 1) = some .canceling ∧
      Answered (makeJobId 0 1) m₁ m₂ (handleJobResult m₁ m₂ askForFirst) := by
  have hview : ((system.run sleptRun).bind fun m₁ =>
      (system.runWhile (LeavesIncomplete (makeJobId 0 1)) m₁ [.cancelJob (makeJobId 0 1)]).map
        fun m₂ => m₂.status (makeJobId 0 1)) = some (some .canceling) := by decide
  obtain ⟨m₁, hm₁, hlater⟩ := Option.bind_eq_some_iff.mp hview
  obtain ⟨m₂, hm₂, hstatus⟩ := Option.map_eq_some_iff.mp hlater
  have hreach : Reachable system m₁ := reachable_of_run hm₁
  have hbetween : ReachableWhile (system.startingAt m₁) (LeavesIncomplete (makeJobId 0 1)) m₂ :=
    ReachableWhile.startingAt hm₂
  exact ⟨m₁, m₂, hreach, hbetween, hstatus, job_result_answered hreach rfl hbetween⟩

open JobManager Transition in
/-- The worker completes the job between the two looks. -/
theorem job_result_missing_sleptRun :
    ∃ m₁ m₂, Reachable system m₁ ∧ m₁.step (.worker true []) = some m₂ ∧
      (m₁.jobs (makeJobId 0 1)).isSome = true ∧ (m₂.getJobResult (makeJobId 0 1)).isSome = true ∧
      handleJobResult m₁ m₂ askForFirst = HandlerEnd.failed (bytes "no result available") ∧
      ¬ Answered (makeJobId 0 1) m₁ m₂ (handleJobResult m₁ m₂ askForFirst) := by
  have hview : ((system.run sleptRun).bind fun m₁ => (m₁.step (.worker true [])).map fun m₂ =>
      (m₁.status (makeJobId 0 1), m₂.status (makeJobId 0 1))) = some (some .running, some .completed) := by decide
  obtain ⟨m₁, hm₁, hlater⟩ := Option.bind_eq_some_iff.mp hview
  obtain ⟨m₂, hm₂, hstatuses⟩ := Option.map_eq_some_iff.mp hlater
  obtain ⟨hbefore, hafter⟩ := Prod.mk.inj hstatuses
  obtain ⟨info, hinfo, hrunning⟩ := Option.map_eq_some_iff.mp hbefore
  obtain ⟨info', hinfo', hcompleted⟩ := Option.map_eq_some_iff.mp hafter
  have hreply : handleJobResult m₁ m₂ askForFirst = HandlerEnd.failed (bytes "no result available") := by
    have hparams : askForFirst.value Json.getString (bytes "job_id") [] = .ok (makeJobId 0 1) := rfl
    have hnone : m₁.getJobResult (makeJobId 0 1) = none := by
      rw [getJobResult_eq_none_iff, hbefore]
      decide
    rw [handleJobResult, hparams]
    dsimp only
    rw [if_neg (by decide), hnone]
    dsimp only
    rw [getJobInfo, hinfo']
    dsimp only
    rw [if_neg (not_not.mpr hcompleted)]
  refine ⟨m₁, m₂, reachable_of_run hm₁, hm₂, by rw [hinfo]; rfl, ?_, hreply, fun hanswered => hanswered.available hreply⟩
  rw [getJobResult_eq_some_iff.mpr ⟨info', hinfo', hcompleted, rfl⟩]
  rfl

end InstrumentServer
