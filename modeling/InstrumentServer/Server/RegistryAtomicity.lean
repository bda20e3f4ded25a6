import InstrumentServer.Server.InstrumentRegistry
import InstrumentServer.Lib.Json.Text

/-!
# A creation succeeds or leaves no trace

The metadata of a new instrument is stored before the protocol is read from the API definition. The two ways to fail that return false take it back; the two that throw do not: a protocol type that is no text, and a worker whose listener thread cannot be created. Where neither happens the two maps always have the same names, and a creation that does not succeed changes neither of them.
-/

namespace InstrumentServer

open Transition

namespace InstrumentRegistry

/-- What comes to `create_instrument_from_json`. -/
structure CreateRequest where
  name : ByteString
  configJson : ByteString
  apiDefJson : ByteString
  env : Surroundings

def create (N : JsonLibrary) (r : InstrumentRegistry) (q : CreateRequest) :
    InstrumentRegistry × Except CreateError Bool :=
  r.createInstrumentFromJson N q.env q.name q.configJson q.apiDefJson

/-- The creation that a call performs, if it comes that far. -/
def request (N : JsonLibrary) (Y : YamlLibrary) : RegistryLabel → Option CreateRequest
  | .createInstrument configPath env =>
      (loadConfig N Y env.files configPath).map fun (name, configJson, apiDefJson) =>
        { name, configJson, apiDefJson, env }
  | .createInstrumentFromJson name configJson apiDefJson env => some { name, configJson, apiDefJson, env }
  | _ => none

/-- The registry after a call that creates, and whether the call returned true. -/
def creation (N : JsonLibrary) (Y : YamlLibrary) (r : InstrumentRegistry) :
    RegistryLabel → Option (InstrumentRegistry × Bool)
  | .createInstrument configPath env => some (r.createInstrument N Y env configPath)
  | .createInstrumentFromJson name configJson apiDefJson env =>
      let (r, result) := r.createInstrumentFromJson N env name configJson apiDefJson
      some (r, result.toOption.getD false)
  | _ => none

/-- If both documents can be read, the protocol type is a text, and with a plugin for it `start` does not throw. -/
def CreateRequest.noThrow (N : JsonLibrary) (q : CreateRequest) : Bool :=
  match N.parse q.configJson, N.parse q.apiDefJson with
  | .ok _, .ok apiDef =>
      match protocolType apiDef with
      | .ok protocol => q.env.getPluginPath protocol = [] || q.env.start ≠ .raised
      | .error _ => false
  | _, _ => true

/-- A creation under a new name throws at most before it stores the metadata. -/
def ThrowsEarly (N : JsonLibrary) (Y : YamlLibrary) (r : InstrumentRegistry) (label : RegistryLabel) : Prop :=
  ∀ q ∈ request N Y label, SortedAssoc.find? q.name r.instruments = none → q.noThrow N = true

instance (N : JsonLibrary) (Y : YamlLibrary) (r : InstrumentRegistry) (label : RegistryLabel) :
    Decidable (ThrowsEarly N Y r label) :=
  inferInstanceAs (Decidable (∀ q ∈ request N Y label, SortedAssoc.find? q.name r.instruments = none →
    q.noThrow N = true))

/-- The two maps have the same keys. -/
def SameKeys (r : InstrumentRegistry) : Prop :=
  ∀ name, (SortedAssoc.find? name r.metadata).isSome = (SortedAssoc.find? name r.instruments).isSome

variable {N : JsonLibrary} {Y : YamlLibrary} {r r' : InstrumentRegistry} {label : RegistryLabel}

/-- A creation that throws early either ends as it found the registry or adds its name to both maps. -/
theorem create_cases (hsame : SameKeys r) {q : CreateRequest}
    (hearly : SortedAssoc.find? q.name r.instruments = none → q.noThrow N = true) :
    ((r.create N q).1 = r ∧ (r.create N q).2 ≠ .ok true) ∨
      ∃ proxy metadata, (r.create N q).1 = ⟨SortedAssoc.insert q.name proxy r.instruments,
        SortedAssoc.insert q.name metadata r.metadata⟩ ∧ (r.create N q).2 = .ok true := by
  rw [create, createInstrumentFromJson]
  split
  · exact Or.inl ⟨rfl, by simp⟩
  · rename_i hnew
    have hinstrument : SortedAssoc.find? q.name r.instruments = none := by simpa using hnew
    have hmetadata : SortedAssoc.find? q.name r.metadata = none := by
      have hkeys := hsame q.name
      simpa [hinstrument] using hkeys
    have hback : ∀ metadata, metadata.name = q.name → (r.storeMetadata metadata).eraseMetadata q.name = r := by
      rintro metadata hname
      rw [storeMetadata, eraseMetadata, hname, SortedAssoc.erase_insert metadata hmetadata]
    have hearly := hearly hinstrument
    rw [CreateRequest.noThrow] at hearly
    split
    · exact Or.inl ⟨rfl, by simp⟩
    · exact Or.inl ⟨rfl, by simp⟩
    · rename_i config apiDef hconfig hapiDef
      rw [hconfig, hapiDef] at hearly
      dsimp only at hearly ⊢
      cases hprotocol : protocolType apiDef with
      | error e => simp [hprotocol] at hearly
      | ok protocol =>
          rw [hprotocol] at hearly
          dsimp only at hearly ⊢
          split
          · exact Or.inl ⟨hback _ rfl, by simp⟩
          · rename_i hplugin
            cases hstart : q.env.start with
            | failed => exact Or.inl ⟨hback _ rfl, by simp⟩
            | raised => simp [hplugin, hstart] at hearly
            | started => exact Or.inr ⟨_, _, rfl, rfl⟩

/-- A call that creates is the creation it comes to, or ends before it. -/
theorem creation_cases {created : Bool} (hcreation : r.creation N Y label = some (r', created)) :
    (request N Y label = none ∧ r' = r ∧ created = false) ∨
      ∃ q, request N Y label = some q ∧ r' = (r.create N q).1 ∧ created = (r.create N q).2.toOption.getD false := by
  cases label with
  | createInstrument configPath env =>
      have hresult := Option.some.inj hcreation
      rw [request]
      unfold createInstrument at hresult
      cases hload : loadConfig N Y env.files configPath with
      | none =>
          rw [hload] at hresult
          obtain ⟨rfl, rfl⟩ := Prod.mk.inj hresult
          exact Or.inl ⟨rfl, rfl, rfl⟩
      | some documents =>
          rw [hload] at hresult
          obtain ⟨rfl, rfl⟩ := Prod.mk.inj hresult
          exact Or.inr ⟨_, rfl, rfl, rfl⟩
  | createInstrumentFromJson name configJson apiDefJson env =>
      obtain ⟨rfl, rfl⟩ := Prod.mk.inj (Option.some.inj hcreation)
      exact Or.inr ⟨_, rfl, rfl, rfl⟩
  | removeInstrument name => simp [creation] at hcreation
  | stopAll => simp [creation] at hcreation

/-- A creation that does not return true leaves both maps as they were. -/
theorem SameKeys.unchanged (hsame : SameKeys r) (hearly : ThrowsEarly N Y r label)
    (hcreation : r.creation N Y label = some (r', false)) : r' = r := by
  obtain ⟨-, heq, -⟩ | ⟨q, hq, rfl, hfailed⟩ := creation_cases hcreation
  · exact heq
  · obtain ⟨heq, -⟩ | ⟨proxy, metadata, -, htrue⟩ := create_cases hsame (hearly q hq)
    · exact heq
    · simp [htrue, Except.toOption] at hfailed

theorem SameKeys.insert (hsame : SameKeys r) (name : ByteString) (proxy : ProxyArguments)
    (metadata : InstrumentMetadata) :
    SameKeys ⟨SortedAssoc.insert name proxy r.instruments, SortedAssoc.insert name metadata r.metadata⟩ := by
  intro other
  rw [SortedAssoc.find?_insert, SortedAssoc.find?_insert]
  split
  · rfl
  · exact hsame other

theorem SameKeys.creation (hsame : SameKeys r) (hearly : ThrowsEarly N Y r label) {created : Bool}
    (hcreation : r.creation N Y label = some (r', created)) : SameKeys r' := by
  obtain ⟨-, rfl, -⟩ | ⟨q, hq, rfl, -⟩ := creation_cases hcreation
  · exact hsame
  · obtain ⟨heq, -⟩ | ⟨proxy, metadata, heq, -⟩ := create_cases hsame (hearly q hq)
    · rw [heq]
      exact hsame
    · rw [heq]
      exact hsame.insert q.name proxy metadata

theorem SameKeys.removeInstrument (hsame : SameKeys r) (name : ByteString) : SameKeys (r.removeInstrument name) := by
  rw [InstrumentRegistry.removeInstrument]
  split
  · intro other
    rw [SortedAssoc.find?_erase, SortedAssoc.find?_erase]
    split
    · rfl
    · exact hsame other
  · exact hsame

theorem SameKeys.step (hsame : SameKeys r) (hearly : ThrowsEarly N Y r label) : SameKeys (r.step N Y label) := by
  cases label with
  | createInstrument configPath env => exact hsame.creation hearly rfl
  | createInstrumentFromJson name configJson apiDefJson env => exact hsame.creation hearly rfl
  | removeInstrument name => exact hsame.removeInstrument name
  | stopAll => exact fun _ => rfl

/-- In every run whose creations throw at most before they store the metadata, the two maps have the same keys, and a creation that does not return true leaves both unchanged. -/
theorem registry_atomic (hreach : ReachableWhile (system N Y) (ThrowsEarly N Y) r) :
    SameKeys r ∧ ∀ label r', ThrowsEarly N Y r label → r.creation N Y label = some (r', false) → r' = r := by
  have hsame : SameKeys r := by
    refine hreach.invariant (fun _ => rfl) ?_
    intro r r' label hsame hearly hnext
    obtain rfl := Option.some.inj hnext
    exact hsame.step hearly
  exact ⟨hsame, fun label r' hearly hcreation => hsame.unchanged hearly hcreation⟩

/-! ### Runs -/

/-- The files of a meter with a VISA protocol. -/
def meterFiles : FileSystem where
  loadFile path :=
    if path = bytes "/lab/dmm.yml" then
      some (.map [(.scalar (bytes "name"), .scalar (bytes "dmm")),
        (.scalar (bytes "api_ref"), .scalar (bytes "api.yml"))])
    else if path = bytes "/lab/api.yml" then
      some (.map [(.scalar (bytes "protocol"), .map [(.scalar (bytes "type"), .scalar (bytes "VISA"))])])
    else none
  exists? path := path = bytes "/lab/dmm.yml" || path = bytes "/lab/api.yml"
  canonical := some
  isAbsolute path := (bytes "/").isPrefixOf path
  parentPath _ := bytes "/lab"
  join directory path := directory ++ bytes "/" ++ path
  currentPath := bytes "/"

/-- Only the VISA plugin is there. -/
def meterLab (start : StartOutcome) : Surroundings where
  files := meterFiles
  getPluginPath protocol := if protocol = bytes "VISA" then bytes "visa_plugin.so" else []
  start := start

/-- The text of an API definition with a protocol type. -/
def apiOfType (type : ByteString) : ByteString :=
  Json.Text.write (.object [(bytes "protocol", .object [(bytes "type", .string type)])])

def emptyDocument : ByteString := Json.Text.write (.object [])

/-- One creation succeeds; the others fail at the name, at the documents, at the plugin and at the worker. -/
def failingCreations : List RegistryLabel :=
  [.createInstrument (bytes "/lab/dmm.yml") (meterLab .started),
    .createInstrument (bytes "/lab/dmm.yml") (meterLab .started),
    .createInstrumentFromJson (bytes "scope") emptyDocument [] (meterLab .started),
    .createInstrumentFromJson (bytes "scope") emptyDocument (apiOfType (bytes "GPIB")) (meterLab .started),
    .createInstrumentFromJson (bytes "scope") emptyDocument (apiOfType (bytes "VISA")) (meterLab .failed)]

theorem registry_atomic_failingCreations :
    ∃ r, ReachableWhile (system .compact .textOnly) (ThrowsEarly .compact .textOnly) r ∧
      r.instruments.map Prod.fst = [bytes "dmm"] ∧ r.metadata.map Prod.fst = [bytes "dmm"] ∧ SameKeys r ∧
      ∀ label r', ThrowsEarly .compact .textOnly r label → r.creation .compact .textOnly label = some (r', false) →
        r' = r := by
  obtain ⟨r, hreach, hview⟩ := @ReachableWhile.of_any _ _ (system .compact .textOnly) (ThrowsEarly .compact .textOnly) _
    failingCreations (fun r => r.instruments.map Prod.fst = [bytes "dmm"] && r.metadata.map Prod.fst = [bytes "dmm"])
    (by decide +kernel)
  obtain ⟨hinstruments, hmetadata⟩ : r.instruments.map Prod.fst = [bytes "dmm"] ∧
      r.metadata.map Prod.fst = [bytes "dmm"] := by simpa using hview
  exact ⟨r, hreach, hinstruments, hmetadata, registry_atomic hreach⟩

/-- A creation with an API definition that names no protocol. -/
def missingProtocol : RegistryLabel :=
  .createInstrumentFromJson (bytes "dmm") emptyDocument emptyDocument (meterLab .started)

/-- The creation throws, and its metadata stays behind. -/
theorem registry_not_atomic :
    ∃ r, ({} : InstrumentRegistry).creation .compact .textOnly missingProtocol = some (r, false) ∧
      Reachable (system .compact .textOnly) r ∧ r.instruments.map Prod.fst = [] ∧
      r.metadata.map Prod.fst = [bytes "dmm"] ∧ ¬ SameKeys r ∧ r ≠ {} := by
  have hview : (({} : InstrumentRegistry).creation .compact .textOnly missingProtocol).map
      (fun result => (result.1.instruments.map Prod.fst, result.1.metadata.map Prod.fst, result.2)) =
      some ([], [bytes "dmm"], false) := by decide +kernel
  obtain ⟨⟨r, created⟩, hcreation, hview⟩ := Option.map_eq_some_iff.mp hview
  obtain ⟨hinstruments, hview⟩ := Prod.mk.inj hview
  obtain ⟨hmetadata, rfl⟩ := Prod.mk.inj hview
  have hstep : ({} : InstrumentRegistry).step .compact .textOnly missingProtocol = r :=
    congrArg Prod.fst (Option.some.inj hcreation)
  refine ⟨r, hcreation, ReachableWhile.init.step trivial (congrArg some hstep), hinstruments, hmetadata, fun hsame => ?_,
    fun hempty => ?_⟩
  · obtain ⟨entry, hentry, -⟩ := List.map_eq_singleton_iff.mp hmetadata
    have hkeys := hsame entry.1
    rw [hentry, List.map_eq_nil_iff.mp hinstruments] at hkeys
    simp [SortedAssoc.find?] at hkeys
  · simp [hempty] at hmetadata

end InstrumentRegistry

end InstrumentServer
