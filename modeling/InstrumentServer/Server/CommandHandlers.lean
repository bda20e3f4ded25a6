import InstrumentServer.Server.InstrumentWorkerProxy
import InstrumentServer.Server.ServerDaemon

/-!
# Command handlers

The handlers that the command line and the RPC server share: each takes the parameters as a JSON object, and gives a return code and a JSON object. They work on the daemon object and the registry of the process they run in.
-/

namespace InstrumentServer

/-- How a handler ends. -/
inductive HandlerEnd where
  | returned (rc : Nat) (out : Json)
  /-- `daemon start` waits until the daemon is stopped -/
  | blocked (out : Json)
  | jsonError (error : JsonError)
  | systemError
  | terminated

namespace HandlerEnd

/-- A JSON object with the fields that a handler assigns to `out`. -/
def fields (entries : List (ByteString × Json)) : Json :=
  .object (entries.foldl (fun out entry => Json.set out entry.1 entry.2) [])

def succeeded (entries : List (ByteString × Json)) : HandlerEnd :=
  .returned 0 (fields ((bytes "ok", .boolean true) :: entries))

def failed (error : ByteString) : HandlerEnd :=
  .returned 1 (fields [(bytes "ok", .boolean false), (bytes "error", .string error)])

end HandlerEnd

open HandlerEnd

/-! ### `daemon` -/

/-- The port `daemon start` takes from the environment: 8555 if the text is no number. -/
def rpcPortOf (text : Option ByteString) (port : UInt16) : UInt16 :=
  match text with
  | none | some [] => port
  | some text =>
      match ByteString.stoi text with
      | none => 8555
      | some value => if 0 < value ∧ value ≤ 65535 then UInt16.ofInt value else port

namespace ServerDaemon

def handleStart (env : DaemonSurroundings) (block : Bool) (d : ServerDaemon) : ServerDaemon × HandlerEnd :=
  match { d with rpcPort := rpcPortOf env.rpcPortText d.rpcPort }.start env with
  | (d, .returned true) =>
      let pid := (bytes "pid", Json.integer (Int64.ofInt d.daemonPid))
      if block && d.running then (d, .blocked (fields [(bytes "ok", .boolean true), pid]))
      else (d, succeeded [pid])
  | (d, .returned false) => (d, failed (bytes "Failed to start daemon"))
  | (d, .threw) => (d, .systemError)
  | (d, .terminated) => (d, .terminated)

def handleStop (env : DaemonSurroundings) (caller : CallingThread) (d : ServerDaemon) : ServerDaemon × HandlerEnd :=
  if isAlreadyRunning env.signalable d.pidFile then
    match d.stop env caller with
    | (d, .returned ()) => (d, succeeded [])
    | (d, .threw) => (d, .systemError)
    | (d, .terminated) => (d, .terminated)
  else (d, succeeded [(bytes "message", .string (bytes "daemon not running"))])

def handleStatus (env : DaemonSurroundings) (d : ServerDaemon) : HandlerEnd :=
  if isAlreadyRunning env.signalable d.pidFile then
    succeeded [(bytes "running", .boolean true), (bytes "pid", .integer (Int64.ofInt d.daemonPid)),
      (bytes "message", .string (bytes "daemon running (pid=" ++ ByteString.decimalInt d.daemonPid ++ bytes ")"))]
  else succeeded [(bytes "running", .boolean false), (bytes "message", .string (bytes "daemon not running"))]

end ServerDaemon

def handleDaemon (env : DaemonSurroundings) (caller : CallingThread) (d : ServerDaemon) (params : Json) :
    ServerDaemon × HandlerEnd :=
  let read : Except JsonError (ByteString × Bool) := do
    let action ← params.value Json.getString (bytes "action") []
    let _ ← params.value Json.getString (bytes "log_level") (bytes "info")
    let block ← params.value Json.getBool (bytes "block") true
    return (action, block)
  match read with
  | .error e => (d, .jsonError e)
  | .ok (action, block) =>
      if action = bytes "start" then d.handleStart env block
      else if action = bytes "stop" then d.handleStop env caller
      else if action = bytes "status" then (d, d.handleStatus env)
      else (d, failed (bytes "Unknown daemon action"))

/-! ### Instruments -/

/-- What `start` finds: also whether the file given with `--plugin` exists, and with what text loading it throws. -/
structure StartSurroundings extends Surroundings where
  pluginExists : Bool := true
  pluginError : Option ByteString := none

/-- The part that `start` and `test` have in common: the plugin given with `--plugin`, then the creation. An error is the one they end with. -/
def createRequested (N : JsonLibrary) (Y : YamlLibrary) (env : StartSurroundings) (r : InstrumentRegistry)
    (configPath customPlugin : ByteString) : InstrumentRegistry × Except ByteString Unit :=
  if customPlugin ≠ [] ∧ ¬ env.pluginExists then (r, .error (bytes "plugin file not found"))
  else
    match if customPlugin = [] then none else env.pluginError with
    | some what => (r, .error (bytes "exception: " ++ what))
    | none =>
        match r.createInstrument N Y env.toSurroundings configPath with
        | (r, false) => (r, .error (bytes "failed to create instrument"))
        | (r, true) => (r, .ok ())

/-- It comes to an instrument only by the creation. -/
theorem createRequested_ok {N : JsonLibrary} {Y : YamlLibrary} {env : StartSurroundings} {r r' : InstrumentRegistry}
    {configPath customPlugin : ByteString}
    (hcreated : createRequested N Y env r configPath customPlugin = (r', .ok ())) :
    r.createInstrument N Y env.toSurroundings configPath = (r', true) := by
  unfold createRequested at hcreated
  split at hcreated
  · exact absurd (congrArg Prod.snd hcreated) (by simp)
  · split at hcreated
    · exact absurd (congrArg Prod.snd hcreated) (by simp)
    · split at hcreated
      · exact absurd (congrArg Prod.snd hcreated) (by simp)
      · rename_i hcreate
        rw [hcreate, (Prod.mk.inj hcreated).1]

/-- The configuration and the plugin that the parameters of `start` name. -/
def readStart (params : Json) : Except JsonError (ByteString × ByteString) := do
  let configPath ← params.value Json.getString (bytes "config_path") []
  let customPlugin ← params.value Json.getString (bytes "plugin") []
  let _ ← params.value Json.getString (bytes "log_level") (bytes "info")
  return (configPath, customPlugin)

def handleStart (N : JsonLibrary) (Y : YamlLibrary) (env : StartSurroundings) (r : InstrumentRegistry) (params : Json) :
    InstrumentRegistry × HandlerEnd :=
  match readStart params with
  | .error e => (r, .jsonError e)
  | .ok (configPath, customPlugin) =>
      if configPath = [] then (r, failed (bytes "missing config_path"))
      else
        match createRequested N Y env r configPath customPlugin with
        | (r, .error error) => (r, failed error)
        | (r, .ok ()) =>
            match r.instruments.getLast? with
            | none => (r, succeeded [])
            | some (name, _) => (r, succeeded [(bytes "instrument", .string name)])

def handleStop (r : InstrumentRegistry) (params : Json) : InstrumentRegistry × HandlerEnd :=
  match params.value Json.getString (bytes "name") [] with
  | .error e => (r, .jsonError e)
  | .ok name =>
      if name = [] then (r, failed (bytes "missing name"))
      else if (SortedAssoc.find? name r.instruments).isSome then (r.removeInstrument name, succeeded [])
      else (r, failed (bytes "instrument not found"))

/-- The statistics as `status` shows them. -/
def ProxyStats.json (stats : ProxyStats) : Json :=
  fields [(bytes "commands_sent", .unsigned (UInt64.ofNat stats.commandsSent)),
    (bytes "commands_completed", .unsigned (UInt64.ofNat stats.commandsCompleted)),
    (bytes "commands_failed", .unsigned (UInt64.ofNat stats.commandsFailed)),
    (bytes "commands_timeout", .unsigned (UInt64.ofNat stats.commandsTimeout))]

/-- `proxies` gives what the proxy under a name says of its worker. -/
def handleStatus (proxies : ByteString → Bool × ProxyStats) (r : InstrumentRegistry) (params : Json) : HandlerEnd :=
  match params.value Json.getString (bytes "name") [] with
  | .error e => .jsonError e
  | .ok name =>
      if name = [] then failed (bytes "missing name")
      else if (SortedAssoc.find? name r.instruments).isSome then
        succeeded [(bytes "name", .string name), (bytes "alive", .boolean (proxies name).1),
          (bytes "stats", (proxies name).2.json)]
      else failed (bytes "instrument not found")

def handleList (r : InstrumentRegistry) : HandlerEnd :=
  succeeded [(bytes "instruments", .array (r.instruments.map fun entry => .string entry.1))]

end InstrumentServer
