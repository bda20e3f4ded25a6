import InstrumentServer.Server.CommandHandlers

/-!
# Stopping the daemon by a request

`daemon stop` may come in by RPC. The handler then runs on the thread of the RPC server, and `ServerDaemon::stop` comes to the point where it joins that thread, which throws. The exception is caught where requests are handled, so the client gets an error and the daemon stays as far as it came: it is not running and has no instruments, but it still has its RPC server, its thread and its PID file, and it can neither be stopped nor started again.

From any other thread `stop` goes through. By RPC the daemon is left as it was only when `is_already_running()` denies that there is a daemon.
-/

namespace InstrumentServer

namespace ServerDaemon

structure HttpReply where
  status : Nat
  body : Json

/-- The loop of the RPC server after a request. -/
def nextRequest (d : ServerDaemon) : ServerDaemon := { d with rpcServer := d.rpcServer.map HttpRpcServer.nextRequest }

/-- The answer to an exception, whose text is `what`. -/
def exceptionReply (what : ByteString) : HttpReply :=
  ⟨500, HandlerEnd.fields [(bytes "ok", .boolean false), (bytes "error", .string (bytes "exception: " ++ what))]⟩

/-- What `run_loop` does with a request for `handle_daemon`; nothing for other commands and where the thread does not come back. -/
def serve (env : DaemonSurroundings) (what : ByteString) (d : ServerDaemon) (req : Json) :
    Option (ServerDaemon × HttpReply) :=
  let read : Except JsonError (ByteString × Json) := do
    let command ← req.value Json.getString (bytes "command") []
    let params ← req.value .ok (bytes "params") (.object [])
    return (command, params)
  match read with
  | .error _ => some (d.nextRequest, exceptionReply what)
  | .ok (command, params) =>
      if command = bytes "daemon" then
        match handleDaemon env .rpcThread d params with
        | (d, .returned rc out) => some (d.nextRequest, ⟨if rc = 0 then 200 else 500, out⟩)
        | (d, .jsonError _) | (d, .systemError) => some (d.nextRequest, exceptionReply what)
        | (_, .blocked _) | (_, .terminated) => none
      else none

/-- `{command: daemon, params: {action: stop}}`. -/
def stopRequest : Json :=
  .object [(bytes "command", .string (bytes "daemon")),
    (bytes "params", .object [(bytes "action", .string (bytes "stop"))])]

/-- A daemon that is running, with an RPC server that accepts requests. -/
structure Serving (d : ServerDaemon) : Prop where
  running : d.running = true
  daemonThread : d.daemonThread = true
  hasRegistry : d.hasRegistry = true
  rpcServer : d.rpcServer = some (HttpRpcServer.start true)

structure FullyStopped (d : ServerDaemon) : Prop where
  running : d.running = false
  instruments : d.registry.instruments = []
  rpcServer : d.rpcServer = none
  daemonThread : d.daemonThread = false
  pidFile : d.pidFile = none
  restart : ∀ env : DaemonSurroundings, env.canCreate = true → (d.start env).2 = .returned true

variable {env : DaemonSurroundings} {d : ServerDaemon}

/-- What `start` makes of a daemon with an RPC port. -/
theorem start_serving (hstopped : d.running = false) (hthread : d.daemonThread = false) (hport : 0 < d.rpcPort)
    (hbound : env.bound = true) (hcreate : env.canCreate = true)
    (hfree : isAlreadyRunning env.signalable d.pidFile = false) :
    (d.start env).2 = .returned true ∧ (d.start env).1.Serving ∧ (d.start env).1.pidFile = some (pidText env.pid) := by
  have hstart : d.start env = ({ ({ d with pidFile := some (pidText env.pid) }.setUp env) with daemonThread := true },
      .returned true) := by
    simp [start, hstopped, hfree, createPidFile, hcreate, setUp, hthread]
  rw [hstart]
  refine ⟨rfl, ⟨rfl, rfl, rfl, ?_⟩, rfl⟩
  rw [setUp]
  simp [hport, hbound]

/-- Without a thread and a PID file in the way a daemon can be started. -/
theorem FullyStopped.of_fields (hrunning : d.running = false) (hinstruments : d.registry.instruments = [])
    (hrpc : d.rpcServer = none) (hthread : d.daemonThread = false) (hfile : d.pidFile = none) : d.FullyStopped where
  running := hrunning
  instruments := hinstruments
  rpcServer := hrpc
  daemonThread := hthread
  pidFile := hfile
  restart env hcreate := by
    simp [start, hrunning, hfile, isAlreadyRunning, createPidFile, hcreate, setUp, hthread]

/-- From another thread the daemon is stopped completely. -/
theorem stop_anotherThread (hserving : d.Serving) (hremove : env.canRemove = true) :
    (d.stop env .anotherThread).2 = .returned () ∧ (d.stop env .anotherThread).1.FullyStopped := by
  have hstop : d.stop env .anotherThread =
      (({ d with running := false, registry := {}, rpcServer := none } : ServerDaemon).finishStop env, .returned ()) := by
    simp [stop, hserving.running, hserving.hasRegistry, stopRpcServer, hserving.rpcServer, HttpRpcServer.stop,
      HttpRpcServer.start, HttpRpcServer.delete, InstrumentRegistry.stopAll]
  rw [hstop]
  refine ⟨rfl, .of_fields rfl rfl rfl rfl ?_⟩
  simp [finishStop, removePidFile, hremove]

/-- Where the join of its own thread leaves the daemon. -/
def halfStopped (d : ServerDaemon) : ServerDaemon :=
  { d with
    running := false
    registry := {}
    rpcServer := some { running := false, listening := false, joinable := true, accepting := false } }

/-- The request comes to `handle_daemon` with the action `stop`. -/
theorem serve_stopRequest (what : ByteString) :
    d.serve env what stopRequest =
      match d.handleStop env .rpcThread with
      | (d, .returned rc out) => some (d.nextRequest, ⟨if rc = 0 then 200 else 500, out⟩)
      | (d, .jsonError _) | (d, .systemError) => some (d.nextRequest, exceptionReply what)
      | (_, .blocked _) | (_, .terminated) => none := by
  have hhandle : handleDaemon env .rpcThread d (.object [(bytes "action", .string (bytes "stop"))]) =
      d.handleStop env .rpcThread := rfl
  rw [← hhandle]
  rfl

/-- A daemon that accepts requests goes on with them. -/
theorem Serving.nextRequest_eq (hserving : d.Serving) : d.nextRequest = d := by
  rw [nextRequest, hserving.rpcServer]
  show { d with rpcServer := some (HttpRpcServer.start true) } = d
  rw [← hserving.rpcServer]

theorem stop_rpcThread (hserving : d.Serving) :
    d.stop env .rpcThread =
      ({ d with
          running := false
          registry := {}
          rpcServer := some { running := false, listening := false, joinable := true, accepting := true } },
        .threw) := by
  simp [stop, hserving.running, hserving.hasRegistry, stopRpcServer, hserving.rpcServer, HttpRpcServer.stop,
    HttpRpcServer.start, InstrumentRegistry.stopAll]

theorem serve_stop_running (hserving : d.Serving) (what : ByteString)
    (hrunning : isAlreadyRunning env.signalable d.pidFile = true) :
    d.serve env what stopRequest = some (d.halfStopped, exceptionReply what) := by
  rw [serve_stopRequest, handleStop, if_pos hrunning, stop_rpcThread hserving]
  rfl

theorem serve_stop_denied (hserving : d.Serving) (what : ByteString)
    (hdenied : isAlreadyRunning env.signalable d.pidFile = false) :
    d.serve env what stopRequest = some (d, ⟨200, HandlerEnd.fields [(bytes "ok", .boolean true),
      (bytes "message", .string (bytes "daemon not running"))]⟩) := by
  rw [serve_stopRequest, handleStop, if_neg (by simp [hdenied])]
  show some (d.nextRequest, _) = _
  rw [hserving.nextRequest_eq, if_pos rfl]

/-- A daemon that is half stopped finds itself running when it is started again. -/
theorem start_halfStopped (hrunning : isAlreadyRunning env.signalable d.pidFile = true) :
    d.halfStopped.start env = (d.halfStopped, .returned false) := by
  have hstopped : ¬ d.halfStopped.running = true := Bool.false_ne_true
  rw [start, if_neg hstopped]
  exact if_pos hrunning

theorem not_fullyStopped_halfStopped (d : ServerDaemon) : ¬ d.halfStopped.FullyStopped := by
  intro hstopped
  exact absurd hstopped.rpcServer (by simp [halfStopped])

theorem Serving.halfStopped_ne (hserving : d.Serving) : d.halfStopped ≠ d := by
  intro hsame
  have hstopped : d.halfStopped.running = false := rfl
  rw [hsame, hserving.running] at hstopped
  contradiction

/-- The request stops the daemon completely or leaves it alone only when `is_already_running()` is false. -/
theorem stopRequest_allOrNothing_iff (env : DaemonSurroundings) (what : ByteString) (d : ServerDaemon)
    (hserving : d.Serving) :
    ∃ d' reply, d.serve env what stopRequest = some (d', reply) ∧
      ((d'.FullyStopped ∨ d' = d) ↔ isAlreadyRunning env.signalable d.pidFile = false) := by
  cases hrunning : isAlreadyRunning env.signalable d.pidFile with
  | true =>
      refine ⟨d.halfStopped, _, serve_stop_running hserving what hrunning, ?_⟩
      constructor
      · rintro (hstopped | hsame)
        · exact absurd hstopped d.not_fullyStopped_halfStopped
        · exact absurd hsame hserving.halfStopped_ne
      · intro hdenied
        contradiction
  | false => exact ⟨d, _, serve_stop_denied hserving what hrunning, by simp⟩

/-- A daemon with one instrument, as `start` left it in process 100. -/
def oneInstrument : ServerDaemon :=
  { pidFile := some (pidText 100)
    running := true
    daemonThread := true
    registry := { instruments := [(bytes "DMM1", ⟨bytes "DMM1", bytes "visa.so", bytes "\x7b\x7d", bytes "\x7b\x7d"⟩)] }
    hasRegistry := true
    syncCoordinator := true
    rpcServer := some (HttpRpcServer.start true)
    rpcPort := 8555 }

theorem oneInstrument_serving : oneInstrument.Serving := ⟨rfl, rfl, rfl, rfl⟩

/-- Process 100 in a system where only it is running. -/
def process100 : DaemonSurroundings := { pid := 100, signalable := fun pid => pid = 100 }

/-- A daemon whose PID file was removed denies that it is running, and stays as it is. -/
theorem stopRequest_allOrNothing_removedFile :
    ∃ d' reply, { oneInstrument with pidFile := none }.serve process100 [] stopRequest = some (d', reply) ∧
      (d'.FullyStopped ∨ d' = { oneInstrument with pidFile := none }) := by
  obtain ⟨d', reply, hserve, hiff⟩ := stopRequest_allOrNothing_iff process100 [] { oneInstrument with pidFile := none }
    ⟨rfl, rfl, rfl, rfl⟩
  exact ⟨d', reply, hserve, hiff.mpr rfl⟩

/-- The request takes the instrument away and leaves the rest, and the daemon cannot be started again. -/
theorem stopRequest_half_stopped :
    ∃ d' reply, oneInstrument.serve process100 (bytes "Resource deadlock avoided") stopRequest = some (d', reply) ∧
      reply.status = 500 ∧ d'.running = false ∧ d'.registry.instruments = [] ∧ d'.rpcServer.isSome = true ∧
      d'.daemonThread = true ∧ d'.pidFile = some (pidText 100) ∧ (d'.start process100).2 = .returned false ∧
      ¬ d'.FullyStopped ∧ d' ≠ oneInstrument := by
  have hrunning : isAlreadyRunning process100.signalable oneInstrument.pidFile = true := by decide +kernel
  refine ⟨_, _, serve_stop_running oneInstrument_serving _ hrunning, rfl, rfl, rfl, rfl, rfl, rfl, ?_, ?_, ?_⟩
  · rw [start_halfStopped hrunning]
  · exact oneInstrument.not_fullyStopped_halfStopped
  · exact oneInstrument_serving.halfStopped_ne

end ServerDaemon

end InstrumentServer
