import InstrumentServer.Lib.Lists
import InstrumentServer.Server.InstrumentRegistry
import InstrumentServer.Validation.SchemaValidator

/-!
# The type of a response

`get_response_type` looks for the first output of a command in the API definition of an instrument: among the names of the ios, and after them among the suffixes of the io types of all channel groups. The API says where the output belongs: to the ios if the command has no channel group, and otherwise to the io types of the group it names.

The file says when the type that is found is the declared one.
-/

namespace InstrumentServer

open YamlNode

/-! ### The lookup -/

/-- One round of a search: the type of an item with this text under `key`, and nothing where the search goes on. -/
def typeIfNamed (key label : ByteString) (item : Json) : Except JsonError (Option ByteString) :=
  match item.member? key with
  | none => return none
  | some named => do
      if (← named.getString) = label then
        match item.member? (bytes "type") with
        | none => return none
        | some type => return some (← type.getString)
      else return none

namespace InstrumentRegistry

def findCommandDef (r : InstrumentRegistry) (instrumentName verb : ByteString) : Option Json := do
  let metadata ← SortedAssoc.find? instrumentName r.metadata
  let commands ← metadata.apiDef.member? (bytes "commands")
  commands.member? verb

/-- The search in the ios and then in the io types of one channel group after the other. -/
def findOutputType (apiDef : Json) (outputName : ByteString) : Except JsonError (Option ByteString) := do
  match ← (apiDef.arrayAt (bytes "io")).findSomeM? (typeIfNamed (bytes "name") outputName) with
  | some type => return some type
  | none =>
      (apiDef.arrayAt (bytes "channel_groups")).findSomeM? fun group =>
        (group.arrayAt (bytes "io_types")).findSomeM? (typeIfNamed (bytes "suffix") outputName)

def getResponseType (r : InstrumentRegistry) (instrumentName verb : ByteString) :
    Except JsonError (Option ByteString) :=
  match SortedAssoc.find? instrumentName r.metadata, r.findCommandDef instrumentName verb with
  | some metadata, some cmdDef =>
      match cmdDef.arrayAt (bytes "outputs") with
      | [] => .ok none
      | output :: _ => do findOutputType metadata.apiDef (← output.getString)
  | _, _ => .ok none

end InstrumentRegistry

/-! ### What the API declares -/

/-- The types of the items with this text under `key`. -/
def typesNamed (key label : ByteString) (items : List Json) : List ByteString :=
  items.filterMap fun item => if item.textAt? key = some label then item.textAt? (bytes "type") else none

def ioTypesOf (groups : List Json) : List Json := groups.flatMap fun group => group.arrayAt (bytes "io_types")

/-- The types declared for an output of a command. -/
def declaredTypes (apiDef cmdDef : Json) (output : ByteString) : List ByteString :=
  match cmdDef.member? (bytes "channel_group") with
  | none => typesNamed (bytes "name") output (apiDef.arrayAt (bytes "io"))
  | some (.string group) =>
      typesNamed (bytes "suffix") output
        (ioTypesOf ((apiDef.arrayAt (bytes "channel_groups")).filter fun node => node.textAt? (bytes "name") = some group))
  | some _ => []

theorem mem_typesNamed {key label type : ByteString} {items : List Json} :
    type ∈ typesNamed key label items ↔
      ∃ item ∈ items, item.textAt? key = some label ∧ item.textAt? (bytes "type") = some type := by
  rw [typesNamed, List.mem_filterMap]
  refine exists_congr fun item => and_congr_right fun _ => ?_
  rw [Option.ite_none_right_eq_some]

/-! ### What the lookup finds -/

/-- The search goes on after this item: it has no such key, or another text, or no type. -/
def Passes (key label : ByteString) (item : Json) : Prop :=
  ∀ named, item.member? key = some named →
    ∃ text, named = .string text ∧ (text = label → item.member? (bytes "type") = none)

/-- The first item where the search does not go on has this text and this type. -/
def FirstNamed (key label : ByteString) (items : List Json) (type : ByteString) : Prop :=
  ∃ before item after, items = before ++ item :: after ∧ (∀ other ∈ before, Passes key label other) ∧
    item.textAt? key = some label ∧ item.textAt? (bytes "type") = some type

theorem typeIfNamed_eq_none_iff {key label : ByteString} {item : Json} :
    typeIfNamed key label item = .ok none ↔ Passes key label item := by
  rw [typeIfNamed, Passes]
  cases item.member? key with
  | none => exact iff_of_true rfl (by simp)
  | some named =>
      simp only [Lists.bind_eq_ok_iff, Json.getString_eq_ok_iff, Option.some.injEq, forall_eq']
      refine exists_congr fun text => and_congr_right fun _ => ?_
      split
      · rename_i hlabel
        rw [imp_iff_right hlabel]
        cases item.member? (bytes "type") with
        | none => exact iff_of_true rfl rfl
        | some type => cases type <;> simp [Json.getString, bind, Except.bind, pure, Except.pure]
      · rename_i hlabel
        exact iff_of_true rfl fun h => absurd h hlabel

theorem typeIfNamed_eq_some_iff {key label type : ByteString} {item : Json} :
    typeIfNamed key label item = .ok (some type) ↔
      item.textAt? key = some label ∧ item.textAt? (bytes "type") = some type := by
  rw [typeIfNamed, Json.textAt?_eq_some_iff, Json.textAt?_eq_some_iff]
  cases item.member? key with
  | none => simp [pure, Except.pure]
  | some named =>
      simp only [Lists.bind_eq_ok_iff, Json.getString_eq_ok_iff, Option.some.injEq]
      constructor
      · rintro ⟨text, rfl, hround⟩
        split at hround
        · rename_i hlabel
          refine ⟨congrArg Json.string hlabel, ?_⟩
          cases htype : item.member? (bytes "type") with
          | none => simp [htype, pure, Except.pure] at hround
          | some found =>
              simp only [htype, Lists.bind_eq_ok_iff, Json.getString_eq_ok_iff] at hround
              obtain ⟨text', rfl, hsame⟩ := hround
              rw [Option.some.inj (Except.ok.inj hsame)]
        · exact absurd (Except.ok.inj hround) (Option.some_ne_none type).symm
      · rintro ⟨rfl, htype⟩
        refine ⟨label, rfl, ?_⟩
        rw [if_pos rfl, htype]
        rfl

theorem search_eq_some_iff {key label type : ByteString} {items : List Json} :
    items.findSomeM? (typeIfNamed key label) = .ok (some type) ↔ FirstNamed key label items type := by
  rw [Lists.findSomeM?_ok_some_iff]
  simp only [typeIfNamed_eq_none_iff, typeIfNamed_eq_some_iff]
  rfl

theorem search_eq_none_iff {key label : ByteString} {items : List Json} :
    items.findSomeM? (typeIfNamed key label) = .ok none ↔ ∀ item ∈ items, Passes key label item := by
  rw [Lists.findSomeM?_ok_none_iff]
  simp only [typeIfNamed_eq_none_iff]

theorem findOutputType_eq_some_iff {apiDef : Json} {outputName type : ByteString} :
    InstrumentRegistry.findOutputType apiDef outputName = .ok (some type) ↔
      FirstNamed (bytes "name") outputName (apiDef.arrayAt (bytes "io")) type ∨
        (∀ io ∈ apiDef.arrayAt (bytes "io"), Passes (bytes "name") outputName io) ∧
          FirstNamed (bytes "suffix") outputName (ioTypesOf (apiDef.arrayAt (bytes "channel_groups"))) type := by
  rw [InstrumentRegistry.findOutputType, Lists.bind_eq_ok_iff, ← search_eq_some_iff, ← search_eq_some_iff,
    ← search_eq_none_iff, ioTypesOf, Lists.findSomeM?_flatMap]
  constructor
  · rintro ⟨found, hios, hrest⟩
    cases found with
    | some type' =>
        obtain rfl : type' = type := Option.some.inj (Except.ok.inj hrest)
        exact Or.inl hios
    | none => exact Or.inr ⟨hios, hrest⟩
  · rintro (hios | ⟨hios, hgroups⟩)
    · exact ⟨some type, hios, rfl⟩
    · exact ⟨none, hios, hgroups⟩

namespace InstrumentRegistry

variable {r : InstrumentRegistry} {instrumentName verb : ByteString} {metadata : InstrumentMetadata} {cmdDef first : Json}
  {rest : List Json}

theorem getResponseType_eq_some_iff (hmetadata : SortedAssoc.find? instrumentName r.metadata = some metadata)
    (hcmd : r.findCommandDef instrumentName verb = some cmdDef)
    (houtputs : cmdDef.arrayAt (bytes "outputs") = first :: rest) {type : ByteString} :
    r.getResponseType instrumentName verb = .ok (some type) ↔
      ∃ output, first = .string output ∧ findOutputType metadata.apiDef output = .ok (some type) := by
  rw [getResponseType, hmetadata, hcmd]
  simp only [houtputs, Lists.bind_eq_ok_iff, Json.getString_eq_ok_iff]

end InstrumentRegistry

/-! ### When the declared type is returned -/

/-- The output is a name, and the type returned for the command is declared for it. -/
def ReturnsDeclaredType (r : InstrumentRegistry) (instrumentName verb : ByteString) (apiDef cmdDef output : Json) : Prop :=
  ∃ outputName, output = .string outputName ∧ ∃ type ∈ declaredTypes apiDef cmdDef outputName,
    r.getResponseType instrumentName verb = .ok (some type)

/-- Without a channel group: the search in the ios ends at an io. With one: the search, which also begins with the ios and goes through all groups, ends at a type that the group of the command declares. -/
def ResolvesOutput (apiDef cmdDef : Json) (output : ByteString) : Prop :=
  match cmdDef.member? (bytes "channel_group") with
  | none => ∃ type, FirstNamed (bytes "name") output (apiDef.arrayAt (bytes "io")) type
  | some _ => ∃ type ∈ declaredTypes apiDef cmdDef output,
      FirstNamed (bytes "name") output (apiDef.arrayAt (bytes "io")) type ∨
        (∀ io ∈ apiDef.arrayAt (bytes "io"), Passes (bytes "name") output io) ∧
          FirstNamed (bytes "suffix") output (ioTypesOf (apiDef.arrayAt (bytes "channel_groups"))) type

theorem FirstNamed.mem_typesNamed {key label type : ByteString} {items : List Json}
    (hfirst : FirstNamed key label items type) : type ∈ typesNamed key label items := by
  obtain ⟨before, item, after, rfl, -, hlabel, htype⟩ := hfirst
  exact InstrumentServer.mem_typesNamed.mpr ⟨item, by simp, hlabel, htype⟩

/-- An item where the search goes on declares no type. -/
theorem typesNamed_eq_nil_of_passes {key label : ByteString} {items : List Json}
    (hpasses : ∀ item ∈ items, Passes key label item) : typesNamed key label items = [] := by
  rw [List.eq_nil_iff_forall_not_mem]
  intro type hmem
  obtain ⟨item, hitem, hlabel, htype⟩ := mem_typesNamed.mp hmem
  obtain ⟨text, htext, hgoes⟩ := hpasses item hitem _ (Json.textAt?_eq_some_iff.mp hlabel)
  obtain rfl := Json.string.inj htext
  rw [Json.textAt?_eq_some_iff, hgoes rfl] at htype
  contradiction

theorem resolvesOutput_iff {apiDef cmdDef : Json} {output : ByteString} :
    ResolvesOutput apiDef cmdDef output ↔ ∃ type ∈ declaredTypes apiDef cmdDef output,
      InstrumentRegistry.findOutputType apiDef output = .ok (some type) := by
  simp only [findOutputType_eq_some_iff]
  rw [ResolvesOutput]
  split
  · rename_i hnone
    simp only [declaredTypes, hnone]
    constructor
    · rintro ⟨type, hfirst⟩
      exact ⟨type, hfirst.mem_typesNamed, Or.inl hfirst⟩
    · rintro ⟨type, hdeclared, hfirst | ⟨hpasses, -⟩⟩
      · exact ⟨type, hfirst⟩
      · rw [typesNamed_eq_nil_of_passes hpasses] at hdeclared
        contradiction
  · rfl

/-- The declared type of the first output of a command is returned exactly if the search for it ends where the output belongs. -/
theorem response_type_declared_iff {r : InstrumentRegistry} {instrumentName verb : ByteString}
    {metadata : InstrumentMetadata} {cmdDef first : Json} {rest : List Json}
    (hmetadata : SortedAssoc.find? instrumentName r.metadata = some metadata)
    (hcmd : r.findCommandDef instrumentName verb = some cmdDef)
    (houtputs : cmdDef.arrayAt (bytes "outputs") = first :: rest) :
    ReturnsDeclaredType r instrumentName verb metadata.apiDef cmdDef first ↔
      ∃ output, first = .string output ∧ ResolvesOutput metadata.apiDef cmdDef output := by
  refine exists_congr fun output => and_congr_right fun hfirst => ?_
  rw [resolvesOutput_iff]
  refine exists_congr fun type => and_congr_right fun _ => ?_
  rw [InstrumentRegistry.getResponseType_eq_some_iff hmetadata hcmd houtputs]
  constructor
  · rintro ⟨output', hfirst', hfound⟩
    obtain rfl := Json.string.inj (hfirst.symm.trans hfirst')
    exact hfound
  · exact fun hfound => ⟨output, hfirst, hfound⟩

/-! ### Runs -/

/-- A group with one channel and data of this type. -/
def dataGroup (name type : ByteString) : YamlNode :=
  .map [(.scalar (bytes "name"), .scalar name),
    (.scalar (bytes "channel_parameter"), textMap [(bytes "name", bytes "channel"), (bytes "type", bytes "int"),
      (bytes "min", bytes "1"), (bytes "max", bytes "1")]),
    (.scalar (bytes "io_types"), .sequence [textMap [(bytes "suffix", bytes "data"), (bytes "type", type),
      (bytes "role", bytes "output")]])]

def dataIo (name type : ByteString) : YamlNode :=
  textMap [(bytes "name", name), (bytes "type", type), (bytes "role", bytes "output")]

/-- A command that reads the data of a channel of this group. -/
def readDataCommand (template group : ByteString) : YamlNode :=
  .map [(.scalar (bytes "template"), .scalar template), (.scalar (bytes "parameters"), .sequence []),
    (.scalar (bytes "channel_group"), .scalar group), (.scalar (bytes "outputs"), .sequence [.scalar (bytes "data")])]

/-- A device whose analog channels give numbers with a fraction and whose digital channels give integers. -/
def daqApi : YamlNode :=
  .map [(.scalar (bytes "api_version"), .scalar (bytes "1.0.0")),
    (.scalar (bytes "instrument"), textMap [(bytes "identifier", bytes "DAQ")]),
    (.scalar (bytes "protocol"), textMap [(bytes "type", bytes "VISA")]),
    (.scalar (bytes "io"), .sequence
      [dataIo (bytes "analog1_data") (bytes "float"), dataIo (bytes "digital1_data") (bytes "int")]),
    (.scalar (bytes "channel_groups"), .sequence
      [dataGroup (bytes "analog") (bytes "float"), dataGroup (bytes "digital") (bytes "int")]),
    (.scalar (bytes "commands"), .map
      [(.scalar (bytes "READ_ANALOG"), readDataCommand (bytes "AREAD? \x7banalog\x7d") (bytes "analog")),
        (.scalar (bytes "READ_DIGITAL"), readDataCommand (bytes "DREAD? \x7bdigital\x7d") (bytes "digital"))])]

def daqDefinition : Json := (yamlToJson .decimals daqApi).getD .null

def daqRegistry : InstrumentRegistry :=
  ({} : InstrumentRegistry).storeMetadata { name := bytes "DAQ", config := .null, apiDef := daqDefinition }

def readDefinition (verb : ByteString) : Json := (daqRegistry.findCommandDef (bytes "DAQ") verb).getD .null

theorem response_type_declared_readAnalog :
    (validateInstrumentApi .decimals (fun _ => []) (.ok daqApi)).valid = true ∧
      (yamlToJson .decimals daqApi).isSome = true ∧
      ReturnsDeclaredType daqRegistry (bytes "DAQ") (bytes "READ_ANALOG") daqDefinition
        (readDefinition (bytes "READ_ANALOG")) (.string (bytes "data")) := by
  refine ⟨by decide +kernel, by decide +kernel, ?_⟩
  exact (@response_type_declared_iff daqRegistry (bytes "DAQ") (bytes "READ_ANALOG") ⟨bytes "DAQ", .null, daqDefinition⟩
    (readDefinition (bytes "READ_ANALOG")) (.string (bytes "data")) [] rfl rfl rfl).mpr
    ⟨bytes "data", rfl, bytes "float", by decide +kernel,
      Or.inr ⟨search_eq_none_iff.mp (by decide +kernel), search_eq_some_iff.mp (by decide +kernel)⟩⟩

/-- Data of a digital channel is an integer, and the type of its response is that of the analog channels. -/
theorem response_type_not_declared_readDigital :
    (validateInstrumentApi .decimals (fun _ => []) (.ok daqApi)).valid = true ∧
      (yamlToJson .decimals daqApi).isSome = true ∧
      (readDefinition (bytes "READ_DIGITAL")).arrayAt (bytes "outputs") = [.string (bytes "data")] ∧
      daqRegistry.getResponseType (bytes "DAQ") (bytes "READ_DIGITAL") = .ok (some (bytes "float")) ∧
      ¬ ReturnsDeclaredType daqRegistry (bytes "DAQ") (bytes "READ_DIGITAL") daqDefinition
        (readDefinition (bytes "READ_DIGITAL")) (.string (bytes "data")) := by
  have hresult : daqRegistry.getResponseType (bytes "DAQ") (bytes "READ_DIGITAL") = .ok (some (bytes "float")) := by
    decide +kernel
  have hdeclared : declaredTypes daqDefinition (readDefinition (bytes "READ_DIGITAL")) (bytes "data") = [bytes "int"] := by
    decide +kernel
  refine ⟨by decide +kernel, by decide +kernel, rfl, hresult, ?_⟩
  rintro ⟨output, houtput, type, htype, hreturned⟩
  obtain rfl := Json.string.inj houtput
  rw [hdeclared] at htype
  rw [hresult, List.mem_singleton.mp htype] at hreturned
  exact absurd (Option.some.inj (Except.ok.inj hreturned)) (by decide)

end InstrumentServer
