import InstrumentServer.Lib.Transition
import InstrumentServer.Lib.Json.Value
import Mathlib.Data.Finset.Basic

/-!
# The job manager

`JobManager` as a transition system. The threads are any number of callers of `submit_job` and `cancel_job`, a caller of `stop`, the one `worker_loop` thread, and the detached monitor of every measure job that was dispatched. A step is a stretch of one thread between two points where it does not hold `mutex_`: in particular `worker_loop` gives the mutex up inside `cv_.wait` and inside `measure_cv_.wait`, so those are program points of their own, and `submit_job` draws its id before it takes the mutex.

`jobs_.at` on a missing id throws outside any handler and ends the process, so the step is refused there. Time stamps are not modelled. `events` is history only: no thread reads it.
-/

namespace InstrumentServer

open ByteString

inductive JobStatus where
  | queued
  | running
  | completed
  | failed
  | canceling
  | canceled
deriving DecidableEq

abbrev JobId : Type := ByteString

structure JobInfo where
  id : JobId
  type : ByteString
  params : Json
  status : JobStatus
  result : Json
  error : ByteString

/-- Where `worker_loop` is. -/
inductive WorkerPoint where
  /-- in `cv_.wait`, or about to enter it -/
  | waiting
  /-- in `measure_cv_.wait`, with the id it has peeked -/
  | measureWait (jid : JobId)
  /-- the job is marked running and the mutex released -/
  | started (jid : JobId)
  | sleeping (jid : JobId) (runInfo : JobInfo) (ms slept : Int)
  | scripting (jid : JobId) (runInfo : JobInfo)
  /-- the job is in `active_measure_jobs_` and its monitor is about to be spawned -/
  | spawning (jid : JobId) (runInfo : JobInfo)
  /-- the body is over, with the result or the text of the exception -/
  | finishing (jid : JobId) (runInfo : JobInfo) (outcome : Except ByteString Json)
  | exited

inductive JobEvent where
  | submitted (jid : JobId)
  /-- canceled by `cancel_job` while its status was queued -/
  | canceledQueued (jid : JobId)
  /-- `queue_.pop_front()` removed `front`, nothing if the queue was empty, and `jid` was marked running -/
  | popped (front : Option JobId) (jid : JobId)
deriving DecidableEq

def JobEvent.submission? : JobEvent → Option JobId
  | .submitted jid => some jid
  | _ => none

def JobEvent.cancellation? : JobEvent → Option JobId
  | .canceledQueued jid => some jid
  | _ => none

def JobEvent.start? : JobEvent → Option JobId
  | .popped _ jid => some jid
  | _ => none

structure JobManager where
  queue : List JobId
  jobs : JobId → Option JobInfo
  nextId : Nat
  running : Bool
  activeMeasureJobs : Finset JobId
  /-- calls of `submit_job` that have drawn their id and wait for the mutex -/
  submitting : List JobInfo
  worker : WorkerPoint
  monitors : List JobId
  events : List JobEvent

namespace JobManager

def init : JobManager where
  queue := []
  jobs := fun _ => none
  nextId := 1
  running := true
  activeMeasureJobs := ∅
  submitting := []
  worker := .waiting
  monitors := []
  events := []

def measureType : ByteString := bytes "measure"

def sleepType : ByteString := bytes "sleep"

/-- The id made from the clock and the number drawn from `next_id_`. -/
def makeJobId (ms : Int) (n : Nat) : JobId := bytes "job-" ++ decimalInt ms ++ bytes "-" ++ decimal n

def status (m : JobManager) (jid : JobId) : Option JobStatus := (m.jobs jid).map JobInfo.status

def setJob (m : JobManager) (jid : JobId) (info : JobInfo) : JobManager :=
  { m with jobs := Function.update m.jobs jid (some info) }

/-! ### `submit_job`, `cancel_job`, `stop` -/

def submitBegin (m : JobManager) (jobType : ByteString) (params : Json) (ms : Int) : JobManager :=
  let info : JobInfo := ⟨makeJobId ms m.nextId, jobType, params, .queued, .null, []⟩
  { m with nextId := m.nextId + 1, submitting := m.submitting ++ [info] }

/-- The locked part of `submit_job`; `emplace` keeps an entry that is already there. -/
def submitEnqueue (m : JobManager) (info : JobInfo) : JobManager :=
  { m with
    jobs := if (m.jobs info.id).isSome then m.jobs else Function.update m.jobs info.id (some info)
    queue := m.queue ++ [info.id]
    submitting := m.submitting.filter fun other => other.id ≠ info.id
    events := m.events ++ [.submitted info.id] }

def cancelJob (m : JobManager) (jid : JobId) : JobManager × Bool :=
  match m.jobs jid with
  | none => (m, false)
  | some info =>
      match info.status with
      | .queued =>
          let m := m.setJob jid { info with status := .canceled, error := bytes "canceled" }
          ({ m with queue := m.queue.erase jid, events := m.events ++ [.canceledQueued jid] }, true)
      | .running => (m.setJob jid { info with status := .canceling }, true)
      | _ => (m, false)

def stop (m : JobManager) : JobManager := { m with running := false }

/-! ### `worker_loop` -/

/-- Pop the front of the queue and mark the peeked job running. -/
def popAndStart (m : JobManager) (jid : JobId) : Option JobManager :=
  match m.jobs jid with
  | none => none
  | some info =>
      let m' := m.setJob jid { info with status := .running }
      some { m' with
        queue := m.queue.tail
        worker := .started jid
        events := m.events ++ [.popped m.queue.head? jid] }

/-- After the wait on `cv_`: leave the loop, wait for the active measure jobs, or start the front job. -/
def peekFront (m : JobManager) : Option JobManager :=
  match m.queue with
  | [] => if m.running then none else some { m with worker := .exited }
  | jid :: _ =>
      match m.jobs jid with
      | none => none
      | some info =>
          if info.type ≠ measureType ∧ m.activeMeasureJobs ≠ ∅ ∧ m.running then
            some { m with worker := .measureWait jid }
          else m.popAndStart jid

/-- Woken inside `measure_cv_.wait`: wait again, or go on with the id peeked before the wait. -/
def wakeFromMeasureWait (m : JobManager) (jid : JobId) : Option JobManager :=
  if m.activeMeasureJobs ≠ ∅ ∧ m.running then some m else m.popAndStart jid

/-- `params.value(key, fallback)`: the fallback where an object has no such field. -/
def paramOr {α : Type} (params : Json) (key : ByteString) (fallback : α) (get : Json → Except JsonError α) :
    Except JsonError α :=
  match params with
  | .object fields =>
      match SortedAssoc.find? key fields with
      | some value => get value
      | none => .ok fallback
  | _ => .error .typeError

def durationMs (params : Json) : Int :=
  match paramOr params (bytes "duration_ms") 100 Json.getInt32 with
  | .ok ms => ms.toInt
  | .error _ => 100

def sleptResult (ms : Int) : Json :=
  .object (Json.set (Json.set [] (bytes "message") (.string (bytes "slept"))) (bytes "duration_ms")
    (.integer (Int64.ofInt ms)))

def enqueuedResult : Json := .object (Json.set [] (bytes "message") (.string (bytes "enqueued")))

/-- Read the job's type and parameters; `what` is the text of an exception thrown by the JSON library. -/
def beginBody (m : JobManager) (jid : JobId) (what : ByteString) : Option JobManager :=
  match m.jobs jid with
  | none => none
  | some runInfo =>
      if runInfo.type = sleepType then
        some { m with worker := .sleeping jid runInfo (durationMs runInfo.params) 0 }
      else if runInfo.type = measureType then
        match paramOr runInfo.params (bytes "script_path") [] Json.getString with
        | .error _ => some { m with worker := .finishing jid runInfo (.error what) }
        | .ok [] => some { m with worker := .finishing jid runInfo (.error (bytes "missing script_path")) }
        | .ok _ => some { m with worker := .scripting jid runInfo }
      else
        some { m with worker := .finishing jid runInfo (.error (bytes "unknown job type: " ++ runInfo.type)) }

/-- One round of the sleep loop, which looks for a cancellation first. -/
def sleepRound (m : JobManager) (jid : JobId) (runInfo : JobInfo) (ms slept : Int) : JobManager :=
  if slept < ms then
    match m.status jid with
    | some .canceling | some .canceled =>
        { m with worker := .finishing jid runInfo (.error (bytes "canceled")) }
    | _ => { m with worker := .sleeping jid runInfo ms (slept + 20) }
  else { m with worker := .finishing jid runInfo (.ok (sleptResult ms)) }

/-- The final locked block of the loop body. -/
def finishBody (m : JobManager) (jid : JobId) (runInfo : JobInfo) (outcome : Except ByteString Json) : JobManager :=
  let m := { m with worker := .waiting }
  match m.jobs jid with
  | none => m
  | some info =>
      match outcome with
      | .ok result =>
          if runInfo.type ≠ measureType then m.setJob jid { info with status := .completed, result := result }
          else m
      | .error err =>
          let m := m.setJob jid { info with status := .failed, error := err }
          if runInfo.type ≠ measureType then m
          else { m with activeMeasureJobs := m.activeMeasureJobs.erase jid }

/-- One step of `worker_loop`. `ok` says whether the script ran without an error, or whether the monitor thread could be created. -/
def workerStep (m : JobManager) (ok : Bool) (what : ByteString) : Option JobManager :=
  match m.worker with
  | .waiting => m.peekFront
  | .measureWait jid => m.wakeFromMeasureWait jid
  | .started jid => m.beginBody jid what
  | .sleeping jid runInfo ms slept => some (m.sleepRound jid runInfo ms slept)
  | .scripting jid runInfo =>
      if ok then
        some { m with activeMeasureJobs := insert jid m.activeMeasureJobs, worker := .spawning jid runInfo }
      else some { m with worker := .finishing jid runInfo (.error (bytes "Script error: " ++ what)) }
  | .spawning jid runInfo =>
      if ok then
        some { m with monitors := m.monitors ++ [jid], worker := .finishing jid runInfo (.ok enqueuedResult) }
      else some { m with worker := .finishing jid runInfo (.error what) }
  | .finishing jid runInfo outcome => some (m.finishBody jid runInfo outcome)
  | .exited => none

/-- The end of a monitor: the tokens are processed and the results collected. -/
def monitorDone (m : JobManager) (jid : JobId) (result : Json) : JobManager :=
  let m := { m with monitors := m.monitors.erase jid, activeMeasureJobs := m.activeMeasureJobs.erase jid }
  match m.jobs jid with
  | none => m
  | some info => m.setJob jid { info with status := .completed, result := result }

/-! ### The transition system -/

inductive Label where
  | submitBegin (jobType : ByteString) (params : Json) (ms : Int)
  | submitEnqueue (jid : JobId)
  | cancelJob (jid : JobId)
  | stop
  | worker (ok : Bool) (what : ByteString)
  | monitorDone (jid : JobId) (result : Json)

def step (m : JobManager) : Label → Option JobManager
  | .submitBegin jobType params ms => some (m.submitBegin jobType params ms)
  | .submitEnqueue jid => (m.submitting.find? (·.id = jid)).map m.submitEnqueue
  | .cancelJob jid => some (m.cancelJob jid).1
  | .stop => some m.stop
  | .worker ok what => m.workerStep ok what
  | .monitorDone jid result => if jid ∈ m.monitors then some (m.monitorDone jid result) else none

def system : Transition.System JobManager Label := ⟨init, step⟩

/-! ### Reading the history -/

/-- The ids in the order `submit_job` put them into the queue. -/
def submissions (m : JobManager) : List JobId := m.events.filterMap JobEvent.submission?

/-- The ids `cancel_job` removed while they were queued. -/
def cancellations (m : JobManager) : List JobId := m.events.filterMap JobEvent.cancellation?

/-- The ids marked running, in order. -/
def starts (m : JobManager) : List JobId := m.events.filterMap JobEvent.start?

end JobManager

end InstrumentServer
