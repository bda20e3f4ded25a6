import InstrumentServer.Lib.Validator
import InstrumentServer.Lib.Yaml

/-!
# The schema validator

`SchemaValidator` checks a YAML document against the rules for instrument APIs and for instrument configurations. An exception of the YAML library ends a check; it becomes one more error.

Of a file only what the library loads from it is modelled. Line and column of an error are always 0 and are left out.
-/

namespace InstrumentServer

open YamlNode

structure ValidationError where
  path : ByteString
  message : ByteString
deriving DecidableEq

structure ValidationResult where
  valid : Bool
  errors : List ValidationError
deriving DecidableEq

abbrev Check : Type → Type := Validator ValidationError YamlError

def nodePath (path : List ByteString) : ByteString := path.flatMap (bytes "/" ++ ·)

def addError (path : List ByteString) (msg : ByteString) : Check Unit := .report ⟨nodePath path, msg⟩

/-- The result of a check; `what` gives the texts of the exceptions. -/
def validationResult (what : YamlError → ByteString) (check : Check Unit) : ValidationResult :=
  match check.outcome with
  | .ok () => ⟨check.reported.isEmpty, check.reported⟩
  | .error e => ⟨false, check.reported ++ [⟨[], bytes "YAML parse error: " ++ what e⟩]⟩

/-- The loops over required fields. -/
def requireFields (node : YamlNode) (path : List ByteString) (kind : ByteString) (keys : List ByteString) : Check Unit :=
  .forEach keys fun key => do
    match ← .lift (node.get key) with
    | some _ => pure ()
    | none => addError path (bytes "Missing required " ++ kind ++ bytes "field '" ++ key ++ bytes "'")

theorem valid_validationResult {what : YamlError → ByteString} {check : Check Unit} :
    (validationResult what check).valid = true ↔ check.Accepts () := by
  rw [validationResult, Validator.Accepts]
  cases check.outcome with
  | error e => simp
  | ok _ => simp

@[simp] theorem accepts_addError {path : List ByteString} {msg : ByteString} {a : Unit} : ¬ (addError path msg).Accepts a :=
  Validator.accepts_report

@[simp] theorem accepts_requireFields {node : YamlNode} {path keys : List ByteString} {kind : ByteString} {a : Unit} :
    (requireFields node path kind keys).Accepts a ↔ ∀ key ∈ keys, ∃ value, node.get key = .ok (some value) := by
  rw [requireFields, Validator.accepts_forEach]
  refine forall₂_congr fun key _ => ?_
  rw [Validator.accepts_bind]
  constructor
  · rintro ⟨value, hget, hmatch⟩
    cases value with
    | none => exact absurd hmatch accepts_addError
    | some value => exact ⟨value, Validator.accepts_lift.mp hget⟩
  · rintro ⟨value, hget⟩
    exact ⟨some value, Validator.accepts_lift.mpr hget, Validator.accepts_pure.mpr rfl⟩

/-! ### Channel groups -/

/-- What the loops over channel groups read of a group. -/
structure ChannelGroup where
  name : ByteString
  min : Int
  max : Int
  ioTypes : List (Option YamlNode)

def readGroup (Y : YamlLibrary) (group : Option YamlNode) : Except YamlError ChannelGroup := do
  let name ← Y.textAt (bytes "name") group
  let min ← Y.asInt (← subscript (bytes "min") (← subscript (bytes "channel_parameter") group))
  let max ← Y.asInt (← subscript (bytes "max") (← subscript (bytes "channel_parameter") group))
  let ioTypes ← subscript (bytes "io_types") group
  return { name, min, max, ioTypes := items ioTypes }

/-- The values of `ch`. Where `max` is the greatest `int`, the loop of the source has no defined end. -/
def ChannelGroup.channels (group : ChannelGroup) : List Int :=
  (List.range (group.max + 1 - group.min).toNat).map fun k => group.min + k

/-- The name of the io of a channel. -/
def channelIoName (groupName : ByteString) (ch : Int) (suffix : ByteString) : ByteString :=
  groupName ++ ByteString.decimalInt ch ++ bytes "_" ++ suffix

/-- The names of the entries of `io`. -/
def ioNames (Y : YamlLibrary) (io : Option YamlNode) : Except YamlError (List ByteString) :=
  (items io).mapM (Y.textAt (bytes "name"))

def validateIoAgainstChannelGroups (Y : YamlLibrary) (io channelGroups : Option YamlNode) (path : List ByteString) :
    Check Unit :=
  if channelGroups.isNone then pure ()
  else do
    let names ← .lift (ioNames Y io)
    .forEach (items channelGroups) fun node => do
      let group ← .lift (readGroup Y node)
      .forEach group.channels fun ch =>
        .forEach group.ioTypes fun ioType => do
          let suffix ← .lift (Y.textAt (bytes "suffix") ioType)
          if channelIoName group.name ch suffix ∈ names then pure ()
          else
            addError (path ++ [bytes "io"])
              (bytes "Missing IO entry for channel group '" ++ group.name ++ bytes "', channel " ++
                ByteString.decimalInt ch ++ bytes ", suffix '" ++ suffix ++ bytes "' (expected name: '" ++
                channelIoName group.name ch suffix ++ bytes "')")

def validateChannelGroup (Y : YamlLibrary) (group : YamlNode) (index : Nat) : Check Unit := do
  let path := [bytes "channel_groups", ByteString.decimal index]
  requireFields group path (bytes "channel_group ") [bytes "name", bytes "channel_parameter", bytes "io_types"]
  match ← .lift (group.get (bytes "channel_parameter")) with
  | none => pure ()
  | some parameter => do
      requireFields parameter path (bytes "channel_parameter ") [bytes "name", bytes "type", bytes "min", bytes "max"]
      match ← .lift (parameter.get (bytes "type")) with
      | none => pure ()
      | some type => do
          let type ← .lift (Y.text (some type))
          if type ≠ bytes "int" then addError path (bytes "channel_parameter type must be 'int'") else pure ()
  match ← .lift (group.get (bytes "io_types")) with
  | none => pure ()
  | some (.sequence ioTypes) =>
      .forEach ioTypes.zipIdx fun ioType =>
        requireFields ioType.1 (path ++ [bytes "io_types", ByteString.decimal ioType.2]) (bytes "io_type ")
          [bytes "suffix", bytes "type", bytes "role"]
  | some _ => addError path (bytes "io_types must be a sequence")

/-! ### Commands -/

/-- The names in braces: `open?` holds what was read since the first open brace, if there is one. -/
def templatePlaceholdersFrom (open? : Option ByteString) : ByteString → List ByteString
  | [] => []
  | b :: rest =>
      match open? with
      | none => if b = 123 then templatePlaceholdersFrom (some []) rest else templatePlaceholdersFrom none rest
      | some name =>
          if b = 125 then
            if name = [] then templatePlaceholdersFrom none rest else name :: templatePlaceholdersFrom none rest
          else templatePlaceholdersFrom (some (name ++ [b])) rest

/-- The matches of `\{([^}]+)\}` in a template. -/
def templatePlaceholders (template : ByteString) : List ByteString := templatePlaceholdersFrom none template

/-- The name that a parameter adds to those a template may use. -/
def parameterName (param : YamlNode) : Except YamlError (Option ByteString) := do
  match ← param.get (bytes "name") with
  | some (.scalar name) => return some name
  | _ =>
      match ← param.get (bytes "io") with
      | some (.scalar io) => return some io
      | _ => return none

/-- The check of a template against the parameters and the channel group of its command. -/
def validateTemplate (path : List ByteString) (template : ByteString) (allowedNames : List ByteString)
    (channelGroupName : ByteString) : Check Unit := do
  .forEach (templatePlaceholders template) fun name =>
    if name ∈ allowedNames then pure ()
    else
      addError path (bytes "Template placeholder \x7b" ++ name ++
        bytes "\x7d does not match any parameter or channel_group name")
  if channelGroupName ≠ [] ∧ channelGroupName ∉ templatePlaceholders template then
    addError path (bytes "Template for command with channel_group must include \x7b" ++ channelGroupName ++
      bytes "\x7d placeholder")
  else pure ()

theorem accepts_validateTemplate {path allowedNames : List ByteString} {template channelGroupName : ByteString} :
    (validateTemplate path template allowedNames channelGroupName).Accepts () ↔
      (∀ name ∈ templatePlaceholders template, name ∈ allowedNames) ∧
        (channelGroupName ≠ [] → channelGroupName ∈ templatePlaceholders template) := by
  rw [validateTemplate, Validator.accepts_then, Validator.accepts_forEach]
  refine and_congr (forall₂_congr fun name _ => ?_) ?_
  · split <;> simp [*]
  · split <;> simp_all

/-- The channel group is read from the first command of this name. -/
def validateCommand (commands : YamlNode) (cmdName : ByteString) (cmd : YamlNode) : Check Unit := do
  let path := [bytes "commands", cmdName]
  requireFields cmd path (bytes "command ") [bytes "template", bytes "parameters", bytes "outputs"]
  let parameters ← .lift (cmd.get (bytes "parameters"))
  let outputs ← .lift (cmd.get (bytes "outputs"))
  if parameters.any (fun node => !node.isSequence) then addError path (bytes "parameters must be a sequence")
  else if outputs.any (fun node => !node.isSequence) then addError path (bytes "outputs must be a sequence")
  else if outputs.isNone then
    match ← .lift (cmd.get (bytes "channel_group")) with
    | some _ => addError path (bytes "outputs must be a sequence of suffixes when channel_group is set")
    | none => addError path (bytes "outputs must be a sequence of io names when channel_group is not set")
  else
    match ← .lift (cmd.get (bytes "template")) with
    | some (.scalar template) => do
        let names ← .lift (((items parameters).filterMap id).mapM parameterName)
        let fresh ← .lift (commands.get cmdName)
        match ← .lift (fresh.elim (.ok none) fun cmd => cmd.get (bytes "channel_group")) with
        | none => validateTemplate path template (names.filterMap id) []
        | some (.scalar group) => validateTemplate path template (names.filterMap id ++ [group]) group
        | some _ => addError path (bytes "channel_group must be a scalar string if defined")
    | _ => pure ()

/-! ### Instrument APIs -/

def validateIo (doc : YamlNode) : Check Unit := do
  match ← .lift (doc.get (bytes "io")) with
  | some (.sequence entries) =>
      .forEach entries.zipIdx fun entry =>
        if entry.1.isMap then
          requireFields entry.1 [bytes "io", ByteString.decimal entry.2] (bytes "IO ")
            [bytes "name", bytes "type", bytes "role"]
        else addError [bytes "io", ByteString.decimal entry.2] (bytes "IO entry must be a map")
  | _ => addError [bytes "io"] (bytes "IO must be a sequence")

/-- An accepted `io` is a sequence of maps with names, types and roles. -/
theorem io_of_accepts {doc : YamlNode} (haccepts : (validateIo doc).Accepts ()) :
    ∃ entries, doc.get (bytes "io") = .ok (some (.sequence entries)) ∧ ∀ entry ∈ entries, entry.isMap = true ∧
      ∀ key ∈ [bytes "name", bytes "type", bytes "role"], ∃ value, entry.get key = .ok (some value) := by
  obtain ⟨io, hlift, haccepts⟩ := Validator.accepts_bind.mp haccepts
  have hio := Validator.accepts_lift.mp hlift
  split at haccepts
  · rename_i entries
    refine ⟨entries, hio, fun entry hentry => ?_⟩
    obtain ⟨i, hi, rfl⟩ := List.mem_iff_getElem.mp hentry
    have hround := Validator.accepts_forEach.mp haccepts (entries[i], i)
      (List.mk_mem_zipIdx_iff_getElem?.mpr (List.getElem?_eq_getElem hi))
    dsimp only at hround
    split at hround
    · rename_i hmap
      exact ⟨hmap, accepts_requireFields.mp hround⟩
    · exact absurd hround accepts_addError
  · exact absurd haccepts accepts_addError

def validateChannelGroups (Y : YamlLibrary) (doc : YamlNode) : Check Unit := do
  match ← .lift (doc.get (bytes "channel_groups")) with
  | none => pure ()
  | some (.sequence groups) => do
      let io ← .lift (doc.get (bytes "io"))
      validateIoAgainstChannelGroups Y io (some (.sequence groups)) []
      .forEach groups.zipIdx fun group => validateChannelGroup Y group.1 group.2
  | some _ => addError [bytes "channel_groups"] (bytes "channel_groups must be a sequence")

def validateCommands (Y : YamlLibrary) (doc : YamlNode) : Check Unit := do
  match ← .lift (doc.get (bytes "commands")) with
  | some (.map commands) =>
      .forEach commands fun command => do
        let cmdName ← .lift (Y.text (some command.1))
        validateCommand (.map commands) cmdName command.2
  | _ => addError [bytes "commands"] (bytes "commands must be a map/object")

def checkInstrumentApi (Y : YamlLibrary) (doc : YamlNode) : Check Unit := do
  requireFields doc [] [] [bytes "api_version", bytes "instrument", bytes "protocol", bytes "io", bytes "commands"]
  validateIo doc
  validateChannelGroups Y doc
  validateCommands Y doc

/-- `loaded` is what the file holds, or the exception of loading it. -/
def validateInstrumentApi (Y : YamlLibrary) (what : YamlError → ByteString) (loaded : Except YamlError YamlNode) :
    ValidationResult :=
  validationResult what (.lift loaded >>= checkInstrumentApi Y)

/-! ### Instrument configurations -/

/-- A scalar under this key is one of the given texts. -/
def requireOneOf (node : YamlNode) (path : List ByteString) (key : ByteString) (texts : List ByteString)
    (msg : ByteString) : Check Unit := do
  match ← .lift (node.get key) with
  | some (.scalar text) => if text ∈ texts then pure () else addError path msg
  | _ => pure ()

/-- What is under this key, if anything, is a scalar. -/
def requireScalar (node : YamlNode) (path : List ByteString) (key msg : ByteString) : Check Unit := do
  match ← .lift (node.get key) with
  | none => pure ()
  | some (.scalar _) => pure ()
  | some _ => addError path msg

theorem accepts_requireOneOf {node : YamlNode} {path texts : List ByteString} {key text msg : ByteString}
    (hget : node.get key = .ok (some (.scalar text))) :
    (requireOneOf node path key texts msg).Accepts () ↔ text ∈ texts := by
  rw [requireOneOf, hget]
  simp only [Validator.accepts_bind, Validator.accepts_lift, Except.ok.injEq, exists_eq_left']
  split
  · rename_i hmem
    exact iff_of_true (Validator.accepts_pure.mpr rfl) hmem
  · rename_i hmem
    exact iff_of_false accepts_addError hmem

theorem accepts_requireScalar {node : YamlNode} {path : List ByteString} {key text msg : ByteString}
    (hget : node.get key = .ok (some (.scalar text))) : (requireScalar node path key msg).Accepts () := by
  rw [requireScalar, hget]
  exact Validator.accepts_bind.mpr ⟨_, Validator.accepts_lift.mpr rfl, Validator.accepts_pure.mpr rfl⟩

/-- The types and the roles of configured ios. -/
def configuredTypes : List ByteString := [bytes "int", bytes "float", bytes "string", bytes "bool"]

def configuredRoles : List ByteString := [bytes "input", bytes "output", bytes "inout"]

def validateConfiguredIo (Y : YamlLibrary) (key entry : YamlNode) : Check Unit := do
  let name ← .lift (Y.text (some key))
  let path := [bytes "io_config", name]
  requireFields entry path (bytes "IO ") [bytes "type", bytes "role"]
  requireOneOf entry path (bytes "type") configuredTypes (bytes "type must be one of:  int, float, string, bool")
  requireOneOf entry path (bytes "role") configuredRoles (bytes "role must be one of: input, output, inout")
  requireScalar entry path (bytes "offset") (bytes "offset must be a number")
  requireScalar entry path (bytes "scale") (bytes "scale must be a number")

def validateConnection (doc : YamlNode) : Check Unit := do
  match ← .lift (doc.get (bytes "connection")) with
  | none => pure ()
  | some connection =>
      if connection.isMap then
        match ← .lift (connection.get (bytes "type")) with
        | some _ => pure ()
        | none => addError [bytes "connection"] (bytes "Missing required field 'type' in connection")
      else addError [bytes "connection"] (bytes "connection must be an object")

def validateIoConfig (Y : YamlLibrary) (doc : YamlNode) : Check Unit := do
  match ← .lift (doc.get (bytes "io_config")) with
  | some (.map entries) => .forEach entries fun entry => validateConfiguredIo Y entry.1 entry.2
  | _ => addError [bytes "io_config"] (bytes "io_config must be an object")

def checkInstrumentConfiguration (Y : YamlLibrary) (doc : YamlNode) : Check Unit := do
  requireFields doc [] [] [bytes "name", bytes "api_ref", bytes "connection", bytes "io_config"]
  validateConnection doc
  validateIoConfig Y doc

def validateInstrumentConfiguration (Y : YamlLibrary) (what : YamlError → ByteString)
    (loaded : Except YamlError YamlNode) : ValidationResult :=
  validationResult what (.lift loaded >>= checkInstrumentConfiguration Y)

end InstrumentServer
