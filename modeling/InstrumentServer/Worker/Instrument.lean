import InstrumentServer.Ipc.Message
import InstrumentServer.Worker.PluginInterface

/-!
# The worker process

`Instrument` in `generic_worker_main.cpp`: one thread that takes a message, and for a command runs the plugin, sends the response and then the acknowledgement. A step reaches from one queue access to the next, so a worker is idle, in the plugin, or about to acknowledge. The plugin is not part of the repository: what it returns is a parameter of the step. An exception of the decoder or the encoder is caught in `main` and ends the process. Heartbeats are left out.
-/

namespace InstrumentServer

open Ipc

inductive WorkerPhase where
  | idle
  /-- in `handle_command`, before the response is sent -/
  | executing (msg : IpcMessage) (cmd : SerializedCommand)
  /-- the response is sent and the acknowledgement is not -/
  | acknowledging (msgId : Nat) (syncToken : SyncToken) (isSyncBarrier : Bool)
  | exited
deriving DecidableEq

structure Instrument where
  waitingSyncToken : Option SyncToken := none
  phase : WorkerPhase := .idle
deriving DecidableEq

namespace Instrument

def handleSyncContinue (w : Instrument) (msg : IpcMessage) : Instrument :=
  if w.waitingSyncToken = some msg.syncToken then { w with waitingSyncToken := none } else w

def deserializeCommandFromMsg (N : JsonLibrary) (msg : IpcMessage) : Except JsonError SerializedCommand :=
  deserializeCommand N msg.payload

/-- `handle_command` up to the plugin. -/
def beginCommand (N : JsonLibrary) (w : Instrument) (msg : IpcMessage) : Instrument :=
  match deserializeCommandFromMsg N msg with
  | .ok cmd => { w with phase := .executing msg cmd }
  | .error _ => { w with phase := .exited }

/-- A command that arrives while the worker waits for a token is dropped. -/
def processMessage (N : JsonLibrary) (w : Instrument) (msg : IpcMessage) : Instrument :=
  match msg.type with
  | .shutdown => { w with phase := .exited }
  | .syncContinue => w.handleSyncContinue msg
  | .command => if w.waitingSyncToken.isSome then w else w.beginCommand N msg
  | _ => w

/-- The next message is taken only between commands. -/
def receive (N : JsonLibrary) (w : Instrument) (msg : IpcMessage) : Option Instrument :=
  match w.phase with
  | .idle => some (w.processMessage N msg)
  | _ => none

def nopResponse (cmd : SerializedCommand) : PluginResponse :=
  { PluginResponse.zero with
    success := true
    commandId := .copy _ pluginMaxStringLen_pos cmd.id
    instrumentName := .copy _ pluginMaxStringLen_pos cmd.instrumentName
    textResponse := .copy _ pluginMaxPayload_pos (bytes "BARRIER_NOP") }

/-- What `handle_command` replies: the synthetic command does not reach the plugin. -/
def commandOutcome (cmd : SerializedCommand) (plugin : PluginResponse) : PluginResponse :=
  if cmd.verb = barrierNop then nopResponse cmd else plugin

def sendCommandResponse (N : JsonLibrary) (msg : IpcMessage) (cmd : SerializedCommand) (presp : PluginResponse) :
    Except JsonError IpcMessage := do
  let text ← serializeResponse N (fromPluginResponse presp)
  return .frame .response msg.id (cmd.syncToken.getD 0) text

theorem sendCommandResponse_ok_iff (N : JsonLibrary) (msg : IpcMessage) (cmd : SerializedCommand)
    (presp : PluginResponse) (resp : IpcMessage) :
    sendCommandResponse N msg cmd presp = .ok resp ↔
      ∃ text, serializeResponse N (fromPluginResponse presp) = .ok text ∧
        resp = .frame .response msg.id (cmd.syncToken.getD 0) text := by
  rw [Instrument.sendCommandResponse]
  cases serializeResponse N (fromPluginResponse presp) with
  | error e => simp [bind, Except.bind]
  | ok text => simp [bind, Except.bind, pure, Except.pure, eq_comm]

/-- The plugin returns and the response goes out. -/
def finishCommand (N : JsonLibrary) (w : Instrument) (plugin : PluginResponse) :
    Option (Instrument × List IpcMessage) :=
  match w.phase with
  | .executing msg cmd =>
      match sendCommandResponse N msg cmd (commandOutcome cmd plugin) with
      | .ok resp =>
          match cmd.syncToken with
          | some token => some ({ w with phase := .acknowledging msg.id token cmd.isSyncBarrier }, [resp])
          | none => some ({ w with phase := .idle }, [resp])
      | .error _ => some ({ w with phase := .exited }, [])
  | _ => none

/-- The acknowledgement goes out, and after the last command for a token the worker blocks. -/
def sendSyncAck (w : Instrument) : Option (Instrument × List IpcMessage) :=
  match w.phase with
  | .acknowledging msgId token isSyncBarrier =>
      some (⟨if isSyncBarrier then some token else w.waitingSyncToken, .idle⟩,
        [{ type := .syncAck, id := msgId, syncToken := token }])
  | _ => none

end Instrument

end InstrumentServer
