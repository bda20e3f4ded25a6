import InstrumentServer.Lib.Strings
import InstrumentServer.Server.InstrumentRegistry
import InstrumentServer.Server.RuntimeContext
import InstrumentServer.Worker.WorkerMain

/-!
# From a configuration to the bytes on the wire

What the two documents of an instrument are for: the connection object tells the plugin where the instrument is, and the template of a command tells it what to write. A proxy keeps both documents. It starts its worker with the name of the instrument and the path of the plugin, and the context sends the verb of a command, so neither the connection nor the template gets any further.

`ConfiguredCall` is a call of a command that the API definition has, with an argument for every placeholder. `ConfiguredCall.never_reaches` says that none of them reaches the instrument: its worker ends before the main loop. `initialized_writes_verb` says what a plugin with a connection would write.
-/

namespace InstrumentServer

open ByteString VisaPlugin

/-- The command line in `spawn_worker`. -/
def spawnArguments (proxy : ProxyArguments) : List ByteString :=
  [bytes "instrument-worker", proxy.instrumentName, proxy.pluginPath]

/-! ### What is configured -/

/-- The template of a command in an API definition. -/
def apiTemplate (apiDef : Json) (verb : ByteString) : Except JsonError ByteString := do
  let commands ← apiDef.field (bytes "commands")
  let command ← commands.field verb
  let template ← command.field (bytes "template")
  template.getString

/-- How a string, an integer or a boolean of a script is written. -/
def LuaValue.text : LuaValue → Option ByteString
  | .string value => some value
  | .integer value => some (decimalInt value.toInt)
  | .boolean value => some (if value then bytes "1" else bytes "0")
  | .nil | .number _ | .other => none

def argumentText (params : List (ByteString × LuaValue)) (name : ByteString) : Option ByteString :=
  (params.lookup name).bind LuaValue.text

/-- A call `I.V` of a command of a VISA instrument, with a short argument for every placeholder of its template. -/
structure ConfiguredCall (N : JsonLibrary) where
  proxy : ProxyArguments
  config : Json
  apiDef : Json
  verb : ByteString
  template : ByteString
  params : List (ByteString × LuaValue)
  parse_config : N.parse proxy.configJson = .ok config
  parse_apiDef : N.parse proxy.apiDefJson = .ok apiDef
  protocol : InstrumentRegistry.protocolType apiDef = .ok (bytes "VISA")
  template_eq : apiTemplate apiDef verb = .ok template
  supplied : ∀ name ∈ placeholders template, ∃ text, argumentText params name = some text ∧ text.length ≤ 126

namespace ConfiguredCall

variable {N : JsonLibrary}

/-- The command the context sends: without a token from a single call, with one in enqueue mode and in a parallel block. -/
def command (c : ConfiguredCall N) (expects : ByteString → ByteString → Bool) (id : ByteString)
    (syncToken : Option SyncToken) : Option SerializedCommand :=
  (parseFuncName (c.proxy.instrumentName ++ bytes "." ++ c.verb)).map fun name =>
    { callCommand expects name (.table c.params) with id, syncToken }

/-- The text of the connection's `termination`. -/
def termination (c : ConfiguredCall N) : ByteString :=
  ((c.config.field (bytes "connection") >>= fun connection =>
    connection.value Json.getString (bytes "termination") (bytes "\\n")).toOption).getD (bytes "\\n")

/-- The template with the arguments in it, and the termination. -/
def written (c : ConfiguredCall N) : ByteString :=
  render (fun name => (argumentText c.params name).getD []) c.template ++ terminationChar c.termination

end ConfiguredCall

/-- The plugin has the connection and the API definition, and for the command it writes what is configured. -/
structure ReachesInstrument {N : JsonLibrary} (c : ConfiguredCall N) (cmd : SerializedCommand) (run : WorkerRun) :
    Prop where
  initialised : ∃ config connection, run.config = some config ∧
    c.config.field (bytes "connection") = .ok connection ∧ N.dump connection = .ok config.connectionJson.text ∧
    config.apiDefinitionJson.text = c.proxy.apiDefJson
  executed : (cmd, [c.written]) ∈ run.commandWrites

/-! ### What happens -/

theorem not_reachesInstrument_of_startFailed {N : JsonLibrary} (c : ConfiguredCall N) (cmd : SerializedCommand) :
    ¬ ReachesInstrument c cmd { startFailed := true } := by
  rintro ⟨-, hexecuted⟩
  exact List.not_mem_nil hexecuted

/-- The worker of a proxy takes no message and writes nothing, so no call of a configured command reaches the instrument. -/
theorem ConfiguredCall.never_reaches (N : JsonLibrary) (C : CJsonLibrary) (host : WorkerHost) (c : ConfiguredCall N)
    (expects : ByteString → ByteString → Bool) (id : ByteString) (syncToken : Option SyncToken)
    (deliveries : List Delivery) :
    (workerMain N C host (spawnArguments c.proxy) deliveries).startFailed = true ∧
      (workerMain N C host (spawnArguments c.proxy) deliveries).startWrites = [] ∧
      (workerMain N C host (spawnArguments c.proxy) deliveries).commandWrites = [] ∧
      ¬ ∃ cmd, c.command expects id syncToken = some cmd ∧
        ReachesInstrument c cmd (workerMain N C host (spawnArguments c.proxy) deliveries) := by
  rw [workerMain_eq]
  refine ⟨rfl, rfl, rfl, ?_⟩
  rintro ⟨cmd, -, hreaches⟩
  exact not_reachesInstrument_of_startFailed c cmd hreaches

/-! ### A multimeter -/

def multimeterConfig : Json :=
  .object
    [(bytes "api_ref", .string (bytes "examples/instrument-apis/agi_34401a.yaml")),
      (bytes "connection", .object
        [(bytes "address", .string (bytes "TCPIP::192.168.0.1::INSTR::0")), (bytes "type", .string (bytes "VISA"))]),
      (bytes "io_config", .object
        [(bytes "voltage", .object
          [(bytes "role", .string (bytes "input")), (bytes "type", .string (bytes "float"))])]),
      (bytes "name", .string (bytes "DMM1"))]

def multimeterApi : Json :=
  .object
    [(bytes "api_version", .string (bytes "1.0.0")),
      (bytes "commands", .object
        [(bytes "SET_VOLTAGE", .object
          [(bytes "outputs", .array []),
            (bytes "parameters", .array [.object [(bytes "io", .string (bytes "voltage"))]]),
            (bytes "template", .string (bytes "SOUR: VOLT \x7bvoltage\x7d"))])]),
      (bytes "instrument", .object [(bytes "model", .string (bytes "34401A")), (bytes "vendor", .string (bytes "Agilent"))]),
      (bytes "io", .array
        [.object
          [(bytes "name", .string (bytes "voltage")), (bytes "role", .string (bytes "input")),
            (bytes "type", .string (bytes "float"))]]),
      (bytes "protocol", .object [(bytes "type", .string (bytes "VISA"))])]

theorem reread_multimeterConfig : multimeterConfig.reread = multimeterConfig := by
  simp only [multimeterConfig, Json.reread, Json.rereadFields]

theorem reread_multimeterApi : multimeterApi.reread = multimeterApi := by
  simp only [multimeterApi, Json.reread, Json.rereadFields, Json.rereadItems]

/-- `context:call("DMM1.SET_VOLTAGE", { voltage = "5" })` -/
def setVoltage : ConfiguredCall .compact where
  proxy :=
    { instrumentName := bytes "DMM1"
      pluginPath := bytes "/usr/lib/visa_plugin.so"
      configJson := Json.Text.write multimeterConfig
      apiDefJson := Json.Text.write multimeterApi }
  config := multimeterConfig
  apiDef := multimeterApi
  verb := bytes "SET_VOLTAGE"
  template := bytes "SOUR: VOLT \x7bvoltage\x7d"
  params := [(bytes "voltage", .string (bytes "5"))]
  parse_config := JsonLibrary.compact_parse reread_multimeterConfig
  parse_apiDef := JsonLibrary.compact_parse reread_multimeterApi
  protocol := by decide +kernel
  template_eq := by decide +kernel
  supplied := by decide +kernel

/-- A reader of documents; `cJSON_GetObjectItem` does not distinguish capital letters. -/
def CJsonLibrary.compact : CJsonLibrary where
  parse text := (Json.parse text).toOption
  getObjectItem
    | .object fields, key => (fields.find? fun item => item.1.map toLower = key.map toLower).map Prod.snd
    | _, _ => none
  parse_emptyObject := by
    have hparse : Json.parse (bytes "\x7b\x7d") = .ok (.object []) := Json.parse_write (.object [])
    rw [hparse]
    rfl
  getObjectItem_emptyObject _ := rfl

/-- The command of the call, as the worker decodes it. -/
def setVoltageCommand : SerializedCommand :=
  { id := bytes "DMM1-1", instrumentName := bytes "DMM1", verb := bytes "SET_VOLTAGE",
    params := ParamMap.empty.insert (bytes "voltage") (.string (bytes "5")) }

/-- A worker whose plugin can be loaded and whose queue is there, with the command on its way. -/
def multimeterRun : WorkerRun :=
  workerMain .compact .compact ⟨true, true⟩ (spawnArguments setVoltage.proxy)
    [⟨commandMessage 1 setVoltageCommand, .zero⟩]

/-- The multimeter is to receive `SOUR: VOLT 5` and a line feed, and receives nothing. -/
theorem setVoltage_not_written :
    setVoltage.command (fun _ _ => false) (bytes "DMM1-1") none = some setVoltageCommand ∧
      setVoltage.written = bytes "SOUR: VOLT 5\n" ∧
      multimeterRun.startFailed = true ∧ multimeterRun.startWrites = [] ∧ multimeterRun.commandWrites = [] ∧
      ¬ ReachesInstrument setVoltage setVoltageCommand multimeterRun := by
  have hrun : multimeterRun = { startFailed := true } := workerMain_eq _ _ _ _ _
  rw [hrun]
  exact ⟨by decide +kernel, by decide +kernel, rfl, rfl, rfl, not_reachesInstrument_of_startFailed _ _⟩

/-! ### With a connection -/

/-- A plugin with a connection writes the verb of the command, which is not looked up in the API definition. -/
theorem initialized_writes_verb {state : VisaPluginState} {cmd : SerializedCommand} (hinit : state.initialized = true)
    (hname : ∀ param ∈ (toPluginCommand cmd).params, param.name.text ≠ bytes "template")
    (hfits : (render (placeholderText (toPluginCommand cmd).params) (toPluginCommand cmd).verb.text).length +
      state.terminationChar.length < pluginMaxPayload) :
    pluginExecuteCommand state (toPluginCommand cmd) =
      [render (placeholderText (toPluginCommand cmd).params) (toPluginCommand cmd).verb.text ++
        state.terminationChar] := by
  rw [← commandTemplate_eq_verb hname] at hfits ⊢
  exact pluginExecuteCommand_eq_render hinit hfits

example : pluginExecuteCommand { terminationChar := [10], initialized := true } (toPluginCommand setVoltageCommand) =
    [bytes "SET_VOLTAGE\n"] := by
  decide +kernel

end InstrumentServer
