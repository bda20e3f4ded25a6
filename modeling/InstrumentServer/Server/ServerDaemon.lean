import InstrumentServer.Server.InstrumentRegistry
import InstrumentServer.Server.PidFile

/-!
# The daemon object

`ServerDaemon` is one object per process, with the registry, the thread of the heartbeat loop and the RPC server; only the PID file is shared with other processes. `start` and `stop` are given as what they do to this state and how they end. Of a `std::thread` three things are used: joining it from the thread itself throws, and assigning to one that can be joined or destroying it ends the process.
-/

namespace InstrumentServer

/-- Which thread makes a call. -/
inductive CallingThread where
  /-- the thread of the RPC server -/
  | rpcThread
  | anotherThread
deriving DecidableEq

/-- How a call ends. -/
inductive CallEnd (α : Type) where
  | returned (result : α)
  /-- a `std::system_error` leaves the call -/
  | threw
  /-- `std::terminate` -/
  | terminated
deriving DecidableEq

/-- What a process finds around it: its pid, the pids that signals reach, whether the PID file can be written and removed, whether the RPC server gets its port, and the text of `INSTRUMENT_SCRIPT_SERVER_RPC_PORT`. -/
structure DaemonSurroundings where
  pid : Nat
  signalable : Int → Bool
  canCreate : Bool := true
  canRemove : Bool := true
  bound : Bool := true
  rpcPortText : Option ByteString := none

/-! ### The RPC server -/

structure HttpRpcServer where
  running : Bool
  /-- `listen_fd_` is open -/
  listening : Bool
  /-- `server_thread_` can be joined -/
  joinable : Bool
  /-- the thread is in the accept loop -/
  accepting : Bool
deriving DecidableEq

namespace HttpRpcServer

/-- A new server after `start`, which succeeds in any case; without its port the thread has ended at once. -/
def start (bound : Bool) : HttpRpcServer := { running := bound, listening := bound, joinable := true, accepting := bound }

/-- The accept loop of another thread ends when its socket is closed. -/
def stop (r : HttpRpcServer) (caller : CallingThread) : HttpRpcServer × CallEnd Unit :=
  if r.running then
    let r := { r with running := false, listening := false }
    if r.joinable then
      match caller with
      | .rpcThread => (r, .threw)
      | .anotherThread => ({ r with joinable := false, accepting := false }, .returned ())
    else (r, .returned ())
  else (r, .returned ())

/-- `delete`: an exception may not leave the destructor, and the thread is destroyed after it. -/
def delete (r : HttpRpcServer) (caller : CallingThread) : CallEnd Unit :=
  match r.stop caller with
  | (r, .returned ()) => if r.joinable then .terminated else .returned ()
  | (_, _) => .terminated

/-- The condition of the accept loop after a request, and the end of the thread when it fails. -/
def nextRequest (r : HttpRpcServer) : HttpRpcServer :=
  if r.running then r else { r with listening := false, accepting := false }

end HttpRpcServer

/-! ### The daemon -/

structure ServerDaemon where
  /-- the PID file, as every process sees it -/
  pidFile : Option ByteString := none
  running : Bool := false
  /-- `daemon_thread_` can be joined -/
  daemonThread : Bool := false
  /-- the registry of the process -/
  registry : InstrumentRegistry := {}
  /-- `registry_` points to it -/
  hasRegistry : Bool := false
  /-- `sync_coordinator_` points to one -/
  syncCoordinator : Bool := false
  rpcServer : Option HttpRpcServer := none
  rpcPort : UInt16 := 0

namespace ServerDaemon

def createPidFile (env : DaemonSurroundings) (d : ServerDaemon) : ServerDaemon × Bool :=
  if env.canCreate then ({ d with pidFile := some (pidText env.pid) }, true) else (d, false)

def removePidFile (env : DaemonSurroundings) (d : ServerDaemon) : ServerDaemon :=
  { d with pidFile := if env.canRemove then none else d.pidFile }

/-- `get_daemon_pid()`. -/
def daemonPid (d : ServerDaemon) : Int := (d.pidFile.bind readPid).getD (-1)

/-- The resources of a daemon that starts, up to its thread. -/
def setUp (env : DaemonSurroundings) (d : ServerDaemon) : ServerDaemon :=
  { d with
    hasRegistry := true
    syncCoordinator := true
    rpcServer := if 0 < d.rpcPort then some (HttpRpcServer.start env.bound) else d.rpcServer
    running := true }

def start (env : DaemonSurroundings) (d : ServerDaemon) : ServerDaemon × CallEnd Bool :=
  if d.running then (d, .returned true)
  else if isAlreadyRunning env.signalable d.pidFile then (d, .returned false)
  else
    match d.createPidFile env with
    | (d, false) => (d, .returned false)
    | (d, true) =>
        let d := d.setUp env
        if d.daemonThread then (d, .terminated) else ({ d with daemonThread := true }, .returned true)

/-- What `stop` does after the RPC server is gone. The heartbeat loop ends because `running_` is false. -/
def finishStop (env : DaemonSurroundings) (d : ServerDaemon) : ServerDaemon :=
  { d with daemonThread := false, syncCoordinator := false }.removePidFile env

def stopRpcServer (caller : CallingThread) (d : ServerDaemon) : ServerDaemon × CallEnd Unit :=
  match d.rpcServer with
  | none => (d, .returned ())
  | some r =>
      match r.stop caller with
      | (r, .returned ()) =>
          match r.delete caller with
          | .returned () => ({ d with rpcServer := none }, .returned ())
          | _ => ({ d with rpcServer := some r }, .terminated)
      | (r, ended) => ({ d with rpcServer := some r }, ended)

def stop (env : DaemonSurroundings) (caller : CallingThread) (d : ServerDaemon) : ServerDaemon × CallEnd Unit :=
  if d.running then
    let d := { d with running := false, registry := if d.hasRegistry then d.registry.stopAll else d.registry }
    match d.stopRpcServer caller with
    | (d, .returned ()) => (d.finishStop env, .returned ())
    | (d, ended) => (d, ended)
  else (d, .returned ())

end ServerDaemon

end InstrumentServer
