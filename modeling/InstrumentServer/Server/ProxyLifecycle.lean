import InstrumentServer.Server.InstrumentWorkerProxy

/-!
# The life of a proxy

A proxy goes through `start` and `stop` any number of times, and its worker may die at any moment. One thread at a time is inside `start` or `stop`; `control` says where. Between its steps the calls of `execute`, the listener threads and the worker process go on. `start` and `stop` are cut where they wait: for the worker to come up, for it to exit, for the listener to end.

The promises and ids are those of `InstrumentWorkerProxy`, whose `stopPoint` is not used here. Sync acks and heartbeats touch no promise and no queue that a promise waits for.
-/

namespace InstrumentServer

open Ipc

/-- A pair of queues of one incarnation. -/
structure SharedQueue where
  requests : List IpcMessage := []
  responses : List IpcMessage := []
deriving DecidableEq

/-- The process behind `worker_pid_`; one that lost its queues is never heard of again. -/
inductive WorkerProcess where
  /-- `worker_pid_` is 0 -/
  | none
  /-- with the request it is working on -/
  | alive (taken : Option IpcMessage)
  | dead
deriving DecidableEq

def WorkerProcess.taken : WorkerProcess → Option IpcMessage
  | .alive taken => taken
  | _ => Option.none

/-- Where a thread is in `response_listener_loop`. -/
inductive ListenerPoint where
  | checking
  | receiving
  | handling (msg : IpcMessage)
  | ended
deriving DecidableEq

def ListenerPoint.held : ListenerPoint → Option IpcMessage
  | .handling msg => some msg
  | _ => none

inductive ProxyControl where
  /-- no thread is in `start` or `stop` -/
  | idle
  /-- `start` sleeps after it spawned the worker; it began when `promises` promises had been made -/
  | initializing (promises : Nat)
  /-- `stop` has cleared `running_` and asks the worker to exit -/
  | stopping
  /-- `stop` waits for the listener -/
  | joining
  | draining
  | releasing
  /-- the process has ended by `std::terminate` -/
  | terminated
deriving DecidableEq

structure ProxyLifecycle where
  px : InstrumentWorkerProxy
  running : Bool := false
  ipcQueue : Option SharedQueue := none
  worker : WorkerProcess := .none
  /-- the thread of `response_thread_` while that is joinable -/
  responseThread : Option ListenerPoint := none
  /-- the threads `stop` had to detach that have not ended -/
  detached : List ListenerPoint := []
  control : ProxyControl := .idle

namespace ProxyLifecycle

def isAlive (s : ProxyLifecycle) : Bool :=
  match s.worker with
  | .alive _ => true
  | _ => false

/-! ### `start` -/

/-- `start` up to the sleep. `created` is whether the queues could be created, `spawned` whether the worker could. Assigning a thread to a joinable `std::thread` ends the process. -/
def start (s : ProxyLifecycle) (created spawned : Bool) : ProxyLifecycle :=
  if created then
    let s := { s with ipcQueue := some {} }
    if spawned then
      { s with
        worker := .alive none
        running := true
        responseThread := some .checking
        control := if s.responseThread.isSome then .terminated else .initializing s.px.promises }
    else { s with worker := .none }
  else s

/-- `running_.exchange(false)` at the head of `stop`, and the SHUTDOWN message. -/
def beginStop (s : ProxyLifecycle) (sent : Bool) : ProxyLifecycle :=
  if s.running then
    { s with
      running := false
      ipcQueue := s.ipcQueue.map fun q =>
        if sent then { q with requests := q.requests ++ [{ type := .shutdown }] } else q
      control := .stopping }
  else { s with control := .idle }

/-- `start` wakes up and looks for the worker. -/
def wakeUp (s : ProxyLifecycle) (sent : Bool) : ProxyLifecycle :=
  if s.isAlive then { s with control := .idle } else s.beginStop sent

/-! ### The listener -/

/-- One step of a listener thread: where it is afterwards, and the proxy. `got` is whether a message arrived in time. A receive on a released queue has no defined outcome. -/
def listen (N : JsonLibrary) (s : ProxyLifecycle) (got : Bool) :
    ListenerPoint → Option (ListenerPoint × ProxyLifecycle)
  | .checking => some (if s.running && s.ipcQueue.isSome then .receiving else .ended, s)
  | .receiving =>
      match s.ipcQueue, got with
      | some ⟨requests, msg :: responses⟩, true => some (.handling msg, { s with ipcQueue := some ⟨requests, responses⟩ })
      | some _, false => some (.checking, s)
      | _, _ => none
  | .handling msg =>
      match s.px.receive N msg with
      | some px => some (.checking, { s with px })
      | none => some (.ended, { s with control := .terminated })
  | .ended => none

/-! ### All threads -/

inductive LifecycleLabel where
  | start (created spawned : Bool)
  /-- `InstrumentRegistry::start_all` comes to this proxy -/
  | startAll (created spawned : Bool)
  /-- the sleep of `start` is over; `sent` is for the SHUTDOWN message if the worker is gone -/
  | wakeUp (sent : Bool)
  | stop (sent : Bool)
  /-- the worker has exited or was killed -/
  | stopWorker
  | join
  /-- the listener did not end in time -/
  | detach
  | drain
  | release
  | execute (cmd : SerializedCommand) (sent : Bool)
  | listen (got : Bool)
  | listenDetached (i : Nat) (got : Bool)
  /-- the worker takes the next request -/
  | take
  /-- the worker puts a message on the response queue, whatever it is -/
  | answer (msg : IpcMessage)
  | die

/-- The worker takes the next request from its queue. -/
def take (s : ProxyLifecycle) : Option ProxyLifecycle :=
  match s.worker, s.ipcQueue with
  | .alive none, some ⟨msg :: requests, responses⟩ =>
      some { s with worker := .alive (some msg), ipcQueue := some ⟨requests, responses⟩ }
  | _, _ => none

def answer (s : ProxyLifecycle) (msg : IpcMessage) : Option ProxyLifecycle :=
  match s.worker, s.ipcQueue with
  | .alive taken, some q =>
      some { s with
        worker := .alive (if msg.type = .response then none else taken)
        ipcQueue := some { q with responses := q.responses ++ [msg] } }
  | _, _ => none

/-- `execute` without interruption; the request goes to the queue that is there. -/
def execute (N : JsonLibrary) (s : ProxyLifecycle) (cmd : SerializedCommand) (sent : Bool) : Option ProxyLifecycle :=
  s.ipcQueue.map fun q =>
    let (px, msgs) := s.px.execute N cmd sent
    { s with px, ipcQueue := some { q with requests := q.requests ++ msgs } }

def listenDetached (N : JsonLibrary) (s : ProxyLifecycle) (i : Nat) (got : Bool) : Option ProxyLifecycle := do
  let point ← s.detached[i]?
  let (point, s) ← s.listen N got point
  return { s with detached := (s.detached.set i point).filter (· ≠ .ended) }

def step (N : JsonLibrary) (s : ProxyLifecycle) (label : LifecycleLabel) : Option ProxyLifecycle :=
  match s.control, label with
  | .terminated, _ => none
  | .idle, .start created spawned => some (s.start created spawned)
  | .idle, .startAll created spawned => some (if s.isAlive then s else s.start created spawned)
  | .initializing _, .wakeUp sent => some (s.wakeUp sent)
  | .idle, .stop sent => some (s.beginStop sent)
  | .stopping, .stopWorker => some { s with worker := if s.worker = .none then .none else .dead, control := .joining }
  | .joining, .join =>
      if s.responseThread = none ∨ s.responseThread = some .ended then
        some { s with responseThread := none, control := .draining }
      else none
  | .joining, .detach =>
      s.responseThread.map fun point =>
        { s with responseThread := none, detached := (s.detached ++ [point]).filter (· ≠ .ended), control := .draining }
  | .draining, .drain => some { s with px := s.px.cleanupPendingPromises, control := .releasing }
  | .releasing, .release => some { s with ipcQueue := none, control := .idle }
  | _, .execute cmd sent => s.execute N cmd sent
  | _, .listen got => do
      let point ← s.responseThread
      let (point, s) ← s.listen N got point
      return { s with responseThread := some point }
  | _, .listenDetached i got => s.listenDetached N i got
  | _, .take => s.take
  | _, .answer msg => s.answer msg
  | _, .die => if s.isAlive then some { s with worker := .dead } else none
  | _, _ => none

/-- Every life of one proxy, from its construction. -/
def system (N : JsonLibrary) (instrumentName : ByteString) : Transition.System ProxyLifecycle LifecycleLabel where
  init := { px := { instrumentName } }
  step := step N

end ProxyLifecycle

end InstrumentServer
