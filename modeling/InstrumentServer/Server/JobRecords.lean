import InstrumentServer.Server.JobProgress
import InstrumentServer.Server.JobResultReply

/-!
# Job records

The job manager with the three time points of each record, and the handlers by which a client submits, watches, lists and cancels jobs. A step carries the reading of `system_clock::now()` that the thread takes in it. A time point that was never set is the epoch.

`canceling` is missing from the list of statuses for which `handle_job_status` reports `started_at`, and `canceled`, which only a job that was never started becomes, is in it: the reply for a canceled job gives the epoch as its start.
-/

namespace InstrumentServer

open HandlerEnd Transition

/-- The time points of a record, in nanoseconds since the epoch. -/
structure JobTimes where
  createdAt : Int64
  startedAt : Int64 := 0
  finishedAt : Int64 := 0
deriving DecidableEq

structure JobRecords where
  manager : JobManager
  /-- `created_at` of the records with which calls of `submit_job` wait for the mutex -/
  drafted : JobId → Int64
  times : JobId → JobTimes
  /-- the last reading of the clock; no thread reads it -/
  clock : Int64

namespace JobRecords

def init : JobRecords where
  manager := .init
  drafted _ := 0
  times _ := ⟨0, 0, 0⟩
  clock := Int64.minValue

/-! ### The time points -/

def submitBegin (r : JobRecords) (jobType : ByteString) (params : Json) (ms : Int) (now : Int64) : JobRecords :=
  { r with
    manager := r.manager.submitBegin jobType params ms
    drafted := Function.update r.drafted (JobManager.makeJobId ms r.manager.nextId) now }

def submitEnqueue (r : JobRecords) (info : JobInfo) : JobRecords :=
  { r with
    manager := r.manager.submitEnqueue info
    times :=
      if (r.manager.jobs info.id).isSome then r.times
      else Function.update r.times info.id { createdAt := r.drafted info.id } }

def noteStart (r : JobRecords) (jid : JobId) (now : Int64) : JobRecords :=
  { r with times := Function.update r.times jid { r.times jid with startedAt := now } }

def noteFinish (r : JobRecords) (jid : JobId) (now : Int64) : JobRecords :=
  { r with times := Function.update r.times jid { r.times jid with finishedAt := now } }

def cancelJob (r : JobRecords) (jid : JobId) (now : Int64) : JobRecords × Bool :=
  let (manager, canceled) := r.manager.cancelJob jid
  (if r.manager.status jid = some .queued then { r with manager }.noteFinish jid now else { r with manager }, canceled)

/-- After a wait, the job that `pop_front` made way for is marked running. -/
def afterWait (r : JobRecords) (manager : JobManager) (now : Int64) : JobRecords :=
  match manager.worker with
  | .started jid => { r with manager }.noteStart jid now
  | _ => { r with manager }

/-- The final locked block finishes every record that it knows, but for the measure jobs that it leaves to their monitors. -/
def afterBody (r : JobRecords) (manager : JobManager) (jid : JobId) (runInfo : JobInfo)
    (outcome : Except ByteString Json) (now : Int64) : JobRecords :=
  match r.manager.jobs jid, outcome with
  | none, _ => { r with manager }
  | some _, .ok _ =>
      if runInfo.type ≠ JobManager.measureType then { r with manager }.noteFinish jid now else { r with manager }
  | some _, .error _ => { r with manager }.noteFinish jid now

def workerStep (r : JobRecords) (ok : Bool) (what : ByteString) (now : Int64) : Option JobRecords :=
  (r.manager.workerStep ok what).map fun manager =>
    match r.manager.worker with
    | .waiting | .measureWait _ => r.afterWait manager now
    | .finishing jid runInfo outcome => r.afterBody manager jid runInfo outcome now
    | .started _ | .sleeping .. | .scripting .. | .spawning .. | .exited => { r with manager }

def monitorDone (r : JobRecords) (jid : JobId) (result : Json) (now : Int64) : JobRecords :=
  let manager := r.manager.monitorDone jid result
  if (r.manager.jobs jid).isSome then { r with manager }.noteFinish jid now else { r with manager }

/-- The time points change beside the manager and the clock. -/
structure SameBeside (r r' : JobRecords) (manager : JobManager) : Prop where
  manager : r'.manager = manager
  drafted : r'.drafted = r.drafted
  clock : r'.clock = r.clock

theorem sameBeside_noteStart (r : JobRecords) (manager : JobManager) (jid : JobId) (now : Int64) :
    SameBeside r ({ r with manager }.noteStart jid now) manager := ⟨rfl, rfl, rfl⟩

theorem sameBeside_noteFinish (r : JobRecords) (manager : JobManager) (jid : JobId) (now : Int64) :
    SameBeside r ({ r with manager }.noteFinish jid now) manager := ⟨rfl, rfl, rfl⟩

theorem sameBeside_cancelJob (r : JobRecords) (jid : JobId) (now : Int64) :
    SameBeside r (r.cancelJob jid now).1 (r.manager.cancelJob jid).1 := by
  rw [cancelJob]
  dsimp only
  split
  · exact sameBeside_noteFinish r _ jid now
  · exact ⟨rfl, rfl, rfl⟩

theorem sameBeside_afterWait (r : JobRecords) (manager : JobManager) (now : Int64) :
    SameBeside r (r.afterWait manager now) manager := by
  rw [afterWait]
  split
  · exact sameBeside_noteStart r manager _ now
  · exact ⟨rfl, rfl, rfl⟩

theorem sameBeside_afterBody (r : JobRecords) (manager : JobManager) (jid : JobId) (runInfo : JobInfo)
    (outcome : Except ByteString Json) (now : Int64) :
    SameBeside r (r.afterBody manager jid runInfo outcome now) manager := by
  cases hinfo : r.manager.jobs jid with
  | none => simpa [afterBody, hinfo] using (⟨rfl, rfl, rfl⟩ : SameBeside r { r with manager } manager)
  | some info =>
      cases outcome with
      | ok result =>
          simp only [afterBody, hinfo]
          split
          · exact sameBeside_noteFinish r manager jid now
          · exact ⟨rfl, rfl, rfl⟩
      | error err => simpa [afterBody, hinfo] using sameBeside_noteFinish r manager jid now

theorem sameBeside_workerStep {r r' : JobRecords} {ok : Bool} {what : ByteString} {now : Int64}
    (hnext : r.workerStep ok what now = some r') :
    ∃ manager, r.manager.workerStep ok what = some manager ∧ SameBeside r r' manager := by
  obtain ⟨manager, hmanager, rfl⟩ := Option.map_eq_some_iff.mp hnext
  refine ⟨manager, hmanager, ?_⟩
  split
  · exact sameBeside_afterWait r manager now
  · exact sameBeside_afterWait r manager now
  · exact sameBeside_afterBody r manager _ _ _ now
  all_goals exact ⟨rfl, rfl, rfl⟩

theorem sameBeside_monitorDone (r : JobRecords) (jid : JobId) (result : Json) (now : Int64) :
    SameBeside r (r.monitorDone jid result now) (r.manager.monitorDone jid result) := by
  rw [monitorDone]
  split
  · exact sameBeside_noteFinish r _ jid now
  · exact ⟨rfl, rfl, rfl⟩

/-! ### The transition system -/

def step (r : JobRecords) : JobManager.Label × Int64 → Option JobRecords
  | (label, now) =>
      let r := { r with clock := now }
      match label with
      | .submitBegin jobType params ms => some (r.submitBegin jobType params ms now)
      | .submitEnqueue jid => (r.manager.submitting.find? (·.id = jid)).map r.submitEnqueue
      | .cancelJob jid => some (r.cancelJob jid now).1
      | .stop => some { r with manager := r.manager.stop }
      | .worker ok what => r.workerStep ok what now
      | .monitorDone jid result => if jid ∈ r.manager.monitors then some (r.monitorDone jid result now) else none

def system : System JobRecords (JobManager.Label × Int64) := ⟨init, step⟩

/-- The clock is not set back, and nobody cancels the job that `worker_loop` has peeked. -/
def Steady (r : JobRecords) (label : JobManager.Label × Int64) : Prop :=
  r.clock ≤ label.2 ∧ JobManager.SparesPeeked r.manager label.1

instance (r : JobRecords) (label : JobManager.Label × Int64) : Decidable (Steady r label) :=
  inferInstanceAs (Decidable (_ ∧ _))

/-! ### The handlers -/

/-- `duration_cast<milliseconds>`. -/
def millis (time : Int64) : Int64 := time / 1000000

/-- The type and the parameters of the job that `handle_submit_job` submits, or the reply it gives at once. -/
def submitJobRequest (params : Json) : Except HandlerEnd (ByteString × Json) :=
  let read : Except JsonError (ByteString × Json) := do
    let jobType ← params.value Json.getString (bytes "job_type") []
    let jobParams ← params.value .ok (bytes "params") (.object [])
    return (jobType, jobParams)
  match read with
  | .error e => .error (.jsonError e)
  | .ok (jobType, jobParams) => if jobType = [] then .error (failed (bytes "missing job_type")) else .ok (jobType, jobParams)

/-- What `submit_measure` submits for a script. -/
def submitMeasure (scriptPath : ByteString) : Json → ByteString × Json
  | .object fields => (JobManager.measureType, .object (Json.set fields (bytes "script_path") (.string scriptPath)))
  | params => (JobManager.measureType, params)

def submitMeasureRequest (params : Json) : Except HandlerEnd (ByteString × Json) :=
  match params.value Json.getString (bytes "script_path") [] with
  | .error e => .error (.jsonError e)
  | .ok scriptPath =>
      if scriptPath = [] then .error (failed (bytes "missing script_path")) else .ok (submitMeasure scriptPath params)

/-- The reply to both, with the id of the new job. -/
def submitReply (jid : JobId) : HandlerEnd := succeeded [(bytes "job_id", .string jid)]

/-- The id that the four other handlers read, or the reply they give at once. -/
def jobIdRequest (params : Json) : Except HandlerEnd JobId :=
  match params.value Json.getString (bytes "job_id") [] with
  | .error e => .error (.jsonError e)
  | .ok jid => if jid = [] then .error (failed (bytes "missing job_id")) else .ok jid

/-- What `handle_job_status` tells about a job. -/
structure StatusReply where
  jobId : ByteString
  status : JobStatus
  createdAt : Int64
  startedAt : Option Int64
  finishedAt : Option Int64
deriving DecidableEq

def StatusReply.of (info : JobInfo) (times : JobTimes) : StatusReply where
  jobId := info.id
  status := info.status
  createdAt := millis times.createdAt
  startedAt :=
    if info.status = .running ∨ info.status = .completed ∨ info.status = .failed ∨ info.status = .canceled then
      some (millis times.startedAt)
    else none
  finishedAt :=
    if info.status = .completed ∨ info.status = .failed ∨ info.status = .canceled then some (millis times.finishedAt)
    else none

def StatusReply.handlerEnd (reply : StatusReply) : HandlerEnd :=
  succeeded ([(bytes "job_id", .string reply.jobId), (bytes "status", .string reply.status.text),
    (bytes "created_at", .integer reply.createdAt)] ++
      (reply.startedAt.toList.map fun time => (bytes "started_at", .integer time)) ++
      reply.finishedAt.toList.map fun time => (bytes "finished_at", .integer time))

def statusReply (r : JobRecords) (jid : JobId) : Option StatusReply :=
  (r.manager.getJobInfo jid).map fun info => .of info (r.times jid)

def handleJobStatus (r : JobRecords) (params : Json) : HandlerEnd :=
  match jobIdRequest params with
  | .error reply => reply
  | .ok jid =>
      match r.statusReply jid with
      | none => failed (bytes "job not found")
      | some reply => reply.handlerEnd

def handleJobCancel (r : JobRecords) (params : Json) (now : Int64) : JobRecords × HandlerEnd :=
  match jobIdRequest params with
  | .error reply => (r, reply)
  | .ok jid =>
      match r.cancelJob jid now with
      | (r, true) => (r, succeeded [])
      | (r, false) => (r, failed (bytes "failed to cancel job (maybe already finished)"))

/-- An order in which the jobs in the table may be gone through. -/
structure Walk (m : JobManager) where
  order : List JobId
  nodup : order.Nodup
  mem_iff : ∀ jid, jid ∈ order ↔ (m.jobs jid).isSome = true

/-- What `handle_job_list` tells about a job. -/
structure ListEntry where
  jobId : ByteString
  type : ByteString
  status : JobStatus
  createdAt : Int64
deriving DecidableEq

def listJobs (r : JobRecords) (walk : Walk r.manager) : List ListEntry :=
  walk.order.filterMap fun jid =>
    (r.manager.jobs jid).map fun info => ⟨info.id, info.type, info.status, millis (r.times jid).createdAt⟩

def ListEntry.json (entry : ListEntry) : Json :=
  fields [(bytes "job_id", .string entry.jobId), (bytes "type", .string entry.type),
    (bytes "status", .string entry.status.text), (bytes "created_at", .integer entry.createdAt)]

/-- The reply that lists the entries. -/
def listReply (entries : List ListEntry) : HandlerEnd := succeeded [(bytes "jobs", .array (entries.map ListEntry.json))]

def handleJobList (r : JobRecords) (walk : Walk r.manager) : HandlerEnd := listReply (r.listJobs walk)

end JobRecords

end InstrumentServer
