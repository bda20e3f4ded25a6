import InstrumentServer.Lib.Json.Library
import InstrumentServer.Lib.Transition
import InstrumentServer.Lib.Yaml

/-!
# The instrument registry

`InstrumentRegistry` keeps two maps under the names of the instruments: the proxies and the metadata. A creation reads two documents, stores the metadata, looks up the plugin of the protocol and starts the worker; it may end early at each of these, by returning false or by an exception. `create_instrument` reads the documents from YAML files and turns every exception into false.

The files, the plugin registry and the outcome of `start` belong to the surroundings of a call and may differ from call to call. A proxy is represented by what it was constructed with. Logging is left out.
-/

namespace InstrumentServer

/-! ### YAML as JSON -/

/-- A scalar is the first of an integer, a double and a boolean that it can be read as, and a text otherwise. -/
def yamlScalar (Y : YamlLibrary) (text : ByteString) : Json :=
  match Y.asInt64 text, Y.asDouble text, Y.asBool text with
  | some value, _, _ => .integer value
  | none, some value, _ => .float value
  | none, none, some value => .boolean value
  | none, none, none => .string text

mutual

/-- The JSON value of a node; nothing where a key is not a text. -/
def yamlToJson (Y : YamlLibrary) : YamlNode → Option Json
  | .null => some .null
  | .scalar text => some (yamlScalar Y text)
  | .sequence items => (yamlItems Y items).map .array
  | .map entries => (yamlFields Y [] entries).map .object

def yamlItems (Y : YamlLibrary) : List YamlNode → Option (List Json)
  | [] => some []
  | item :: items => do
      let value ← yamlToJson Y item
      let values ← yamlItems Y items
      return value :: values

/-- The entries are assigned in turn, so of two with the same key the later one stays. -/
def yamlFields (Y : YamlLibrary) (fields : List (ByteString × Json)) :
    List (YamlNode × YamlNode) → Option (List (ByteString × Json))
  | [] => some fields
  | (key, node) :: entries => do
      let value ← yamlToJson Y node
      let key ← Y.asString key
      yamlFields Y (Json.set fields key value) entries

end

/-! ### The surroundings of a call -/

structure FileSystem where
  loadFile : ByteString → Option YamlNode
  exists? : ByteString → Bool
  canonical : ByteString → Option ByteString
  isAbsolute : ByteString → Bool
  parentPath : ByteString → ByteString
  join : ByteString → ByteString → ByteString
  currentPath : ByteString

inductive StartOutcome where
  | started
  | failed
  /-- the listener thread could not be created -/
  | raised
deriving DecidableEq

structure Surroundings where
  files : FileSystem
  /-- the path of the plugin for a protocol, empty when there is none -/
  getPluginPath : ByteString → ByteString
  start : StartOutcome

def stripFileScheme (apiRef : ByteString) : ByteString :=
  if (bytes "file://").isPrefixOf apiRef then apiRef.drop (bytes "file://").length else apiRef

/-- The file an `api_ref` means: an absolute path, or one relative to the configuration or else to the working directory. Nothing where the source throws. -/
def resolveApiRef (files : FileSystem) (apiRef configPath : ByteString) : Option ByteString :=
  let path := stripFileScheme apiRef
  if path = [] then none
  else if files.isAbsolute path then
    if files.exists? path then files.canonical path else none
  else
    let configParent := if files.parentPath configPath = [] then files.currentPath else files.parentPath configPath
    if files.exists? (files.join configParent path) then files.canonical (files.join configParent path)
    else if files.exists? (files.join files.currentPath path) then files.canonical (files.join files.currentPath path)
    else none

/-! ### The registry -/

structure InstrumentMetadata where
  name : ByteString
  config : Json
  apiDef : Json

/-- What a proxy is constructed with. -/
structure ProxyArguments where
  instrumentName : ByteString
  pluginPath : ByteString
  configJson : ByteString
  apiDefJson : ByteString

structure InstrumentRegistry where
  instruments : List (ByteString × ProxyArguments) := []
  metadata : List (ByteString × InstrumentMetadata) := []

/-- The exceptions that leave `create_instrument_from_json`. -/
inductive CreateError where
  | json (error : JsonError)
  | system
deriving DecidableEq

namespace InstrumentRegistry

def storeMetadata (r : InstrumentRegistry) (metadata : InstrumentMetadata) : InstrumentRegistry :=
  { r with metadata := SortedAssoc.insert metadata.name metadata r.metadata }

def eraseMetadata (r : InstrumentRegistry) (name : ByteString) : InstrumentRegistry :=
  { r with metadata := SortedAssoc.erase name r.metadata }

/-- `api_def["protocol"]["type"]` as a text. -/
def protocolType (apiDef : Json) : Except JsonError ByteString := do
  let protocol ← apiDef.field (bytes "protocol")
  let type ← protocol.field (bytes "type")
  type.getString

def createInstrumentFromJson (N : JsonLibrary) (env : Surroundings) (r : InstrumentRegistry)
    (name configJson apiDefJson : ByteString) : InstrumentRegistry × Except CreateError Bool :=
  if (SortedAssoc.find? name r.instruments).isSome then (r, .ok false)
  else
    match N.parse configJson, N.parse apiDefJson with
    | .error e, _ => (r, .error (.json e))
    | .ok _, .error e => (r, .error (.json e))
    | .ok config, .ok apiDef =>
        let r := r.storeMetadata { name, config, apiDef }
        match protocolType apiDef with
        | .error e => (r, .error (.json e))
        | .ok protocol =>
            let pluginPath := env.getPluginPath protocol
            if pluginPath = [] then (r.eraseMetadata name, .ok false)
            else
              match env.start with
              | .failed => (r.eraseMetadata name, .ok false)
              | .raised => (r, .error .system)
              | .started =>
                  let proxy : ProxyArguments := ⟨name, pluginPath, configJson, apiDefJson⟩
                  ({ r with instruments := SortedAssoc.insert name proxy r.instruments }, .ok true)

/-- The name and the two documents `create_instrument` finds under a path. -/
def loadConfig (N : JsonLibrary) (Y : YamlLibrary) (files : FileSystem) (configPath : ByteString) :
    Option (ByteString × ByteString × ByteString) := do
  let config ← yamlToJson Y (← files.loadFile configPath)
  let apiRef ← (config.field (bytes "api_ref") >>= Json.getString).toOption
  let resolvedApiPath ← resolveApiRef files apiRef configPath
  let apiDef ← yamlToJson Y (← files.loadFile resolvedApiPath)
  let name ← (config.field (bytes "name") >>= Json.getString).toOption
  let configJson ← (N.dump config).toOption
  let apiDefJson ← (N.dump apiDef).toOption
  return (name, configJson, apiDefJson)

/-- An exception is caught and makes the result false. -/
def createInstrument (N : JsonLibrary) (Y : YamlLibrary) (env : Surroundings) (r : InstrumentRegistry)
    (configPath : ByteString) : InstrumentRegistry × Bool :=
  match loadConfig N Y env.files configPath with
  | none => (r, false)
  | some (name, configJson, apiDefJson) =>
      let (r, result) := r.createInstrumentFromJson N env name configJson apiDefJson
      (r, result.toOption.getD false)

def removeInstrument (r : InstrumentRegistry) (name : ByteString) : InstrumentRegistry :=
  if (SortedAssoc.find? name r.instruments).isSome then
    { instruments := SortedAssoc.erase name r.instruments, metadata := SortedAssoc.erase name r.metadata }
  else r

def stopAll (_ : InstrumentRegistry) : InstrumentRegistry := {}

inductive RegistryLabel where
  | createInstrument (configPath : ByteString) (env : Surroundings)
  | createInstrumentFromJson (name configJson apiDefJson : ByteString) (env : Surroundings)
  | removeInstrument (name : ByteString)
  | stopAll

def step (N : JsonLibrary) (Y : YamlLibrary) (r : InstrumentRegistry) : RegistryLabel → InstrumentRegistry
  | .createInstrument configPath env => (r.createInstrument N Y env configPath).1
  | .createInstrumentFromJson name configJson apiDefJson env =>
      (r.createInstrumentFromJson N env name configJson apiDefJson).1
  | .removeInstrument name => r.removeInstrument name
  | .stopAll => r.stopAll

/-- Every sequence of creations and removals; the registry's mutex makes each of them one step. -/
def system (N : JsonLibrary) (Y : YamlLibrary) : Transition.System InstrumentRegistry RegistryLabel where
  init := {}
  step r label := some (r.step N Y label)

end InstrumentRegistry

end InstrumentServer
