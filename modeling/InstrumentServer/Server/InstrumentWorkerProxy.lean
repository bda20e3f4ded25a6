import InstrumentServer.Ipc.Message
import InstrumentServer.Lib.Transition
import Mathlib.Logic.Function.Basic

/-!
# The worker proxy

`InstrumentWorkerProxy` is the server's end of one worker. Any number of threads run `execute` on it at the same time, the listener thread handles what the worker sends, and one thread may run `stop`. A step of a thread reaches from one access to shared state to the next: `execute` creates its promise, draws its message id, stores the promise in `pending_responses_`, encodes, sends, and after a failed send looks its promise up again.

A promise is named by a number and stands for the call of `execute` that made it. `calls` keeps every call with the id it drew, and `fulfilments` every `set_value` in order; no thread reads either. Message ids are 64-bit counters in the source and natural numbers here. Starting the worker process, heartbeats and logging are left out.
-/

namespace InstrumentServer

open Ipc

abbrev PromiseId : Type := Nat

/-- Where a call of `execute` is. -/
inductive ExecutePoint where
  /-- the promise and its future exist -/
  | created
  /-- the message id is drawn -/
  | numbered
  /-- the promise is in `pending_responses_` -/
  | stored
  | encoded (msg : IpcMessage)
  /-- the send failed, and `pending_mutex_` is about to be taken -/
  | unsent
  | returned
  /-- left with an exception of the encoder -/
  | raised
  /-- returned to `execute_sync`, which gave up waiting -/
  | timedOut
deriving DecidableEq

structure ExecuteCall where
  cmd : SerializedCommand
  msgId : Option Nat
  point : ExecutePoint
deriving DecidableEq

/-- Who gave a promise its value. -/
inductive FulfilmentSource where
  | response (msg : IpcMessage)
  | sendFailure
  | stopped
deriving DecidableEq

structure Fulfilment where
  promise : PromiseId
  source : FulfilmentSource
  value : CommandResponse
deriving DecidableEq

structure ProxyStats where
  commandsSent : Nat := 0
  commandsCompleted : Nat := 0
  commandsFailed : Nat := 0
  commandsTimeout : Nat := 0
deriving DecidableEq

/-- How far `stop` has come. -/
inductive StopPoint where
  | running
  /-- `running_` is cleared; the SHUTDOWN message, the wait for the worker and the join of the listener follow -/
  | stopping
  /-- the pending promises are answered -/
  | cleaned
  /-- `ipc_queue_` is released -/
  | stopped
deriving DecidableEq

structure InstrumentWorkerProxy where
  instrumentName : ByteString
  nextMessageId : Nat := 1
  pendingResponses : List (Nat × PromiseId) := []
  stats : ProxyStats := {}
  stopPoint : StopPoint := .running
  /-- how many promises were made -/
  promises : Nat := 0
  /-- the shared states of the futures -/
  values : PromiseId → Option CommandResponse := fun _ => none
  calls : PromiseId → Option ExecuteCall := fun _ => none
  fulfilments : List Fulfilment := []

namespace InstrumentWorkerProxy

/-- `promise.set_value`, which throws on a promise that has a value and then changes nothing. -/
def setValue (px : InstrumentWorkerProxy) (p : PromiseId) (source : FulfilmentSource) (resp : CommandResponse) :
    InstrumentWorkerProxy :=
  { px with
    values := if (px.values p).isSome then px.values else Function.update px.values p (some resp)
    fulfilments := px.fulfilments ++ [⟨p, source, resp⟩] }

def setCall (px : InstrumentWorkerProxy) (p : PromiseId) (call : ExecuteCall) : InstrumentWorkerProxy :=
  { px with calls := Function.update px.calls p (some call) }

def erasePending (px : InstrumentWorkerProxy) (msgId : Nat) : InstrumentWorkerProxy :=
  { px with pendingResponses := px.pendingResponses.filter fun entry => entry.1 ≠ msgId }

/-! ### `execute` -/

def commandId (px : InstrumentWorkerProxy) (msgId : Nat) : ByteString :=
  px.instrumentName ++ bytes "-" ++ ByteString.decimal msgId

def create (px : InstrumentWorkerProxy) (cmd : SerializedCommand) : InstrumentWorkerProxy :=
  { px.setCall px.promises ⟨cmd, none, .created⟩ with promises := px.promises + 1 }

def drawMessageId (px : InstrumentWorkerProxy) (p : PromiseId) (cmd : SerializedCommand) : InstrumentWorkerProxy :=
  let msgId := px.nextMessageId
  { px.setCall p ⟨{ cmd with id := px.commandId msgId }, some msgId, .numbered⟩ with nextMessageId := msgId + 1 }

def storePromise (px : InstrumentWorkerProxy) (p : PromiseId) (call : ExecuteCall) (msgId : Nat) :
    InstrumentWorkerProxy :=
  { px.setCall p { call with point := .stored } with
    pendingResponses := SortedAssoc.insert msgId p px.pendingResponses }

/-- Encode the command into a frame; the encoder may throw, and then the exception leaves `execute`. -/
def encode (N : JsonLibrary) (px : InstrumentWorkerProxy) (p : PromiseId) (call : ExecuteCall) (msgId : Nat) :
    InstrumentWorkerProxy :=
  match serializeCommand N call.cmd with
  | .ok text =>
      px.setCall p { call with point := .encoded (.frame .command msgId (call.cmd.syncToken.getD 0) text) }
  | .error _ => px.setCall p { call with point := .raised }

def sendFailure (px : InstrumentWorkerProxy) (cmd : SerializedCommand) : CommandResponse where
  commandId := cmd.id
  instrumentName := px.instrumentName
  success := false
  errorMessage := bytes "IPC send timeout"

def resolveUnsent (px : InstrumentWorkerProxy) (p : PromiseId) (call : ExecuteCall) (msgId : Nat) :
    InstrumentWorkerProxy :=
  let px := px.setCall p { call with point := .returned }
  match SortedAssoc.find? msgId px.pendingResponses with
  | some owner => (px.setValue owner .sendFailure (px.sendFailure call.cmd)).erasePending msgId
  | none => px

/-- The next step of the call that made `p`. `sent` is whether a send succeeds; a send on a queue that `stop` has released has no defined outcome, so the step is refused there. -/
def advance (N : JsonLibrary) (px : InstrumentWorkerProxy) (p : PromiseId) (sent : Bool) :
    Option (InstrumentWorkerProxy × List IpcMessage) :=
  match px.calls p with
  | none => none
  | some call =>
      match call.point, call.msgId with
      | .created, _ => some (px.drawMessageId p call.cmd, [])
      | .numbered, some msgId => some (px.storePromise p call msgId, [])
      | .stored, some msgId => some (px.encode N p call msgId, [])
      | .encoded msg, _ =>
          if px.stopPoint = .stopped then none
          else if sent then
            some ({ px.setCall p { call with point := .returned } with
              stats := { px.stats with commandsSent := px.stats.commandsSent + 1 } }, [msg])
          else some (px.setCall p { call with point := .unsent }, [])
      | .unsent, some msgId => some (px.resolveUnsent p call msgId, [])
      | _, _ => none

/-- Run the call that made `p` for at most `steps` steps, and collect what it puts on the request queue. -/
def runCall (N : JsonLibrary) (p : PromiseId) (sent : Bool) :
    Nat → InstrumentWorkerProxy → InstrumentWorkerProxy × List IpcMessage
  | 0, px => (px, [])
  | steps + 1, px =>
      match px.advance N p sent with
      | some (px', msgs) =>
          let (px'', msgs') := runCall N p sent steps px'
          (px'', msgs ++ msgs')
      | none => (px, [])

/-- `execute` without interruption by another thread. -/
def execute (N : JsonLibrary) (px : InstrumentWorkerProxy) (cmd : SerializedCommand) (sent : Bool) :
    InstrumentWorkerProxy × List IpcMessage :=
  runCall N px.promises sent 5 (px.create cmd)

/-- `execute_sync` gives up on a future that is not ready. -/
def waitTimeout (px : InstrumentWorkerProxy) (p : PromiseId) : Option InstrumentWorkerProxy :=
  match px.calls p, px.values p with
  | some ⟨cmd, msgId, .returned⟩, none =>
      some { px.setCall p ⟨cmd, msgId, .timedOut⟩ with
        stats := { px.stats with commandsTimeout := px.stats.commandsTimeout + 1 } }
  | _, _ => none

/-! ### The listener -/

/-- An exception of the decoder leaves the listener thread and ends the process. -/
def handleResponseMessage (N : JsonLibrary) (px : InstrumentWorkerProxy) (msg : IpcMessage) :
    Except JsonError InstrumentWorkerProxy := do
  let resp ← deserializeResponse N msg.payload
  match SortedAssoc.find? msg.id px.pendingResponses with
  | some p =>
      let px := (px.setValue p (.response msg) resp).erasePending msg.id
      if resp.success then
        return { px with stats := { px.stats with commandsCompleted := px.stats.commandsCompleted + 1 } }
      else return { px with stats := { px.stats with commandsFailed := px.stats.commandsFailed + 1 } }
  | none => return px

/-! ### `stop` -/

def stoppedResponse (px : InstrumentWorkerProxy) : CommandResponse where
  instrumentName := px.instrumentName
  success := false
  errorMessage := bytes "Worker stopped"

def cleanupPendingPromises (px : InstrumentWorkerProxy) : InstrumentWorkerProxy :=
  { px.pendingResponses.foldl (fun px entry => px.setValue entry.2 .stopped px.stoppedResponse) px with
    pendingResponses := [] }

/-- One step of `stop`; a second caller of `stop` finds `running_` false and does nothing. -/
def stopStep (px : InstrumentWorkerProxy) : Option InstrumentWorkerProxy :=
  match px.stopPoint with
  | .running => some { px with stopPoint := .stopping }
  | .stopping => some { px.cleanupPendingPromises with stopPoint := .cleaned }
  | .cleaned => some { px with stopPoint := .stopped }
  | .stopped => none

/-! ### All threads -/

inductive ProxyLabel where
  | execute (cmd : SerializedCommand)
  | advance (p : PromiseId) (sent : Bool)
  | waitTimeout (p : PromiseId)
  /-- the listener handles a message, whatever the worker sent -/
  | receive (msg : IpcMessage)
  | stop

/-- The other messages do not touch the promises. -/
def receive (N : JsonLibrary) (px : InstrumentWorkerProxy) (msg : IpcMessage) : Option InstrumentWorkerProxy :=
  match msg.type with
  | .response => (px.handleResponseMessage N msg).toOption
  | _ => some px

def step (N : JsonLibrary) (px : InstrumentWorkerProxy) : ProxyLabel → Option InstrumentWorkerProxy
  | .execute cmd => some (px.create cmd)
  | .advance p sent => (px.advance N p sent).map Prod.fst
  | .waitTimeout p => px.waitTimeout p
  | .receive msg => px.receive N msg
  | .stop => px.stopStep

/-- Every interleaving of the threads of one proxy. -/
def system (N : JsonLibrary) (instrumentName : ByteString) : Transition.System InstrumentWorkerProxy ProxyLabel where
  init := { instrumentName }
  step := step N

end InstrumentWorkerProxy

end InstrumentServer
