import InstrumentServer.Worker.MainLoop
import InstrumentServer.Worker.VisaPlugin

/-!
# A worker with the VISA plugin

`main` and `Instrument::run` of `generic_worker_main.cpp`: a worker takes its name and the path of the plugin from the command line, initialises the plugin, connects to the queue of the server and then takes messages. Recorded is what the plugin passes to `viWrite`.

The plugin is initialised with an empty connection object and without an API definition, whatever the arguments are. The VISA plugin refuses that, and `workerMain_eq` says that every worker with this plugin ends there.
-/

namespace InstrumentServer

/-- What the machine decides while a worker starts. -/
structure WorkerHost where
  pluginLoaded : Bool
  queueValid : Bool

/-- What a worker did up to the end of the messages it was given. -/
structure WorkerRun where
  /-- the process ended with status 1 before the main loop -/
  startFailed : Bool
  /-- what the plugin accepted -/
  config : Option PluginConfig := none
  startWrites : List ByteString := []
  /-- the commands the plugin was handed, with what it wrote for each -/
  commandWrites : List (SerializedCommand × List ByteString) := []

namespace Instrument

/-- The configuration in `load_and_init_plugin`. -/
def pluginConfig (instrumentName : ByteString) : PluginConfig where
  instrumentName := .copy _ pluginMaxStringLen_pos instrumentName
  connectionJson := .copy _ pluginMaxPayload_pos (bytes "\x7b\x7d")
  apiDefinitionJson := .copy _ pluginMaxPayload_pos []

def run (N : JsonLibrary) (C : CJsonLibrary) (host : WorkerHost) (instrumentName : ByteString)
    (deliveries : List Delivery) : WorkerRun :=
  if host.pluginLoaded then
    let config := pluginConfig instrumentName
    let init := VisaPlugin.pluginInitialize C config {}
    if init.2.2 ≠ 0 then { startFailed := true, startWrites := init.2.1 }
    else if host.queueValid then
      { startFailed := false
        config := some config
        startWrites := init.2.1
        commandWrites := (({} : Instrument).mainLoop N deliveries).pluginCalls.map fun cmd =>
          (cmd, VisaPlugin.pluginExecuteCommand init.1 (toPluginCommand cmd)) }
    else { startFailed := true, config := some config, startWrites := init.2.1 }
  else { startFailed := true }

end Instrument

/-- `main` of the worker; the path of the plugin decides only what is loaded. -/
def workerMain (N : JsonLibrary) (C : CJsonLibrary) (host : WorkerHost) (args : List ByteString)
    (deliveries : List Delivery) : WorkerRun :=
  match args with
  | _ :: instrumentName :: _pluginPath :: _ => Instrument.run N C host instrumentName deliveries
  | _ => { startFailed := true }

theorem pluginInitialize_pluginConfig (C : CJsonLibrary) (instrumentName : ByteString) (state : VisaPluginState) :
    VisaPlugin.pluginInitialize C (Instrument.pluginConfig instrumentName) state = (state, [], -1) := by
  have hconnection : (Instrument.pluginConfig instrumentName).connectionJson.text = bytes "\x7b\x7d" :=
    show (CharArray.copy _ pluginMaxPayload_pos (bytes "\x7b\x7d")).text = bytes "\x7b\x7d" by decide
  rw [VisaPlugin.pluginInitialize, hconnection, VisaPlugin.openSession_emptyObject]

theorem Instrument.run_eq (N : JsonLibrary) (C : CJsonLibrary) (host : WorkerHost) (instrumentName : ByteString)
    (deliveries : List Delivery) : run N C host instrumentName deliveries = { startFailed := true } := by
  rw [run]
  simp only [pluginInitialize_pluginConfig]
  split
  · exact if_pos (by decide)
  · rfl

/-- The worker ends before the main loop, with nothing written. -/
theorem workerMain_eq (N : JsonLibrary) (C : CJsonLibrary) (host : WorkerHost) (args : List ByteString)
    (deliveries : List Delivery) : workerMain N C host args deliveries = { startFailed := true } := by
  unfold workerMain
  split
  · exact Instrument.run_eq N C host _ deliveries
  · rfl

end InstrumentServer
