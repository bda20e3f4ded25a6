import InstrumentServer.Lib.JsonSchema
import InstrumentServer.Ipc.Codec
import InstrumentServer.Server.SyncResults
import InstrumentServer.Server.ReturnedValues

/-!
# Measurement results and their schema

`handle_measure` turns each collected result into an object of its reply, and `measurement_results.schema.json` says what these objects look like. The schema names the types of return values as the parameters of a driver are named, a result as the runtime context names them, and only `string` and the kinds of buffers are names of both.

This module says for which results of a synchronous script the objects are valid.
-/

namespace InstrumentServer

open ByteString

/-! ### `measurement_results.schema.json` -/

/-- The enumeration in `directReturn`. -/
def directTypes : List ByteString :=
  [bytes "double", bytes "int64", bytes "string", bytes "bool", bytes "array", bytes "void"]

/-- The enumeration in `bufferReturn`. -/
def bufferDataTypes : List ByteString :=
  [bytes "float32", bytes "float64", bytes "int32", bytes "int64", bytes "uint32", bytes "uint64", bytes "uint8"]

def numbersSchema : JsonSchema := .schema [.type .array, .items (.type .number)]

def directReturnSchema : JsonSchema :=
  .schema
    [.type .object, .required [bytes "type", bytes "value"],
      .properties
        [(bytes "type", .schema [.type .string, .texts directTypes]),
          (bytes "value", .oneOf [.type .number, .type .string, .type .boolean, numbersSchema, .type .null])]]

def bufferReturnSchema : JsonSchema :=
  .schema
    [.type .object, .required [bytes "type", bytes "buffer_id", bytes "element_count", bytes "data_type"],
      .properties
        [(bytes "type", .schema [.type .string, .texts [bytes "buffer"]]),
          (bytes "buffer_id", .type .string),
          (bytes "element_count", .schema [.type .integer, .minimum 0]),
          (bytes "data_type", .schema [.type .string, .texts bufferDataTypes])]]

def paramsSchema : JsonSchema :=
  .schema
    [.type .object,
      .additional [] (.oneOf [.type .number, .type .string, .type .boolean, numbersSchema])]

def callResultSchema : JsonSchema :=
  .schema
    [.type .object,
      .required
        [bytes "index", bytes "instrument", bytes "verb", bytes "params", bytes "executed_at_ms", bytes "return"],
      .properties
        [(bytes "index", .schema [.type .integer, .minimum 0]),
          (bytes "instrument", .type .string),
          (bytes "verb", .type .string),
          (bytes "params", paramsSchema),
          (bytes "executed_at_ms", .type .integer),
          (bytes "return", .oneOf [directReturnSchema, bufferReturnSchema])]]

/-! ### `handle_measure` -/

/-- `params_json` starts as null and becomes an object with its first field. -/
def measureParams (params : ParamMap) : Json :=
  match Ipc.paramFields params with
  | [] => .null
  | fields => .object fields

/-- `return_json`, which stays null without a value. No branch writes the values of an array. -/
def measureReturn (cr : CallResult) : Json :=
  if cr.hasLargeData then bufferJson cr.bufferId cr.elementCount cr.dataType
  else
    match cr.returnValue with
    | none => .null
    | some (.doubles _) => .object (typed cr.returnType)
    | some value => .object (Json.set (typed cr.returnType) (bytes "value") (Ipc.paramJson value))

/-- The round of the loop. -/
def measureResult (executedAtMs : Int64) (index : Nat) (cr : CallResult) : Json :=
  let fields := Json.set [] (bytes "index") (.unsigned (UInt64.ofNat index))
  let fields := Json.set fields (bytes "instrument") (.string cr.instrumentName)
  let fields := Json.set fields (bytes "verb") (.string cr.verb)
  let fields := Json.set fields (bytes "params") (measureParams cr.params)
  let fields := Json.set fields (bytes "executed_at_ms") (.integer executedAtMs)
  .object (Json.set fields (bytes "return") (measureReturn cr))

/-- The array under `results`; `executedAtMs` gives the time of the result at each place. -/
def measureResults (executedAtMs : Nat → Int64) (results : List CallResult) : List Json :=
  results.zipIdx.map fun result => measureResult (executedAtMs result.2) result.2 result.1

/-! ### The condition -/

/-- The result has parameters, all their numbers are finite, and it returns a buffer of a listed type or a text. -/
def CallResult.FitsSchema (cr : CallResult) : Prop :=
  cr.params.entries ≠ [] ∧ (∀ entry ∈ cr.params.entries, entry.2.Finite) ∧
    if cr.hasLargeData then cr.dataType ∈ bufferDataTypes else ∃ text, cr.returnValue = some (.string text)

/-- The type `populate_callresult_from_response` gives to a value. -/
def ParamValue.typeName : ParamValue → ByteString
  | .double _ => bytes "float"
  | .int64 _ => bytes "integer"
  | .string _ => bytes "string"
  | .boolean _ => bytes "boolean"
  | .doubles _ => bytes "array"

/-- The type of the result is the one of its value. -/
def CallResult.Typed (cr : CallResult) : Prop := ∀ value, cr.returnValue = some value → cr.returnType = value.typeName

/-! ### Results have the type of their value -/

theorem CallResult.typed_populate {cr : CallResult} (hnew : cr.returnValue = none) (resp : CommandResponse) :
    (cr.populate resp).Typed := by
  intro value hvalue
  rw [populate] at hvalue ⊢
  dsimp only at hvalue ⊢
  split at hvalue
  · rw [hnew] at hvalue
    contradiction
  · rename_i hsmall
    rw [if_neg hsmall]
    split at hvalue
    · rename_i returned hreturned
      cases returned <;> cases hvalue <;> rfl
    · rw [hnew] at hvalue
      contradiction

section

variable {Future : Type} {expects : ByteString → ByteString → Bool} {registry : Registry} {outcome : Nat → SyncOutcome}

theorem SyncScript.typed_runOp {s : SyncScript Future} (hs : ∀ cr ∈ s.ctx.collectedResults, cr.Typed) (op : ScriptOp) :
    ∀ cr ∈ (s.runOp expects registry outcome op).ctx.collectedResults, cr.Typed := by
  intro cr hcr
  cases op with
  | call single =>
      rw [runOp] at hcr
      split at hcr
      · exact hs cr hcr
      · rw [call] at hcr
        dsimp only at hcr
        split at hcr
        · rename_i resp hresp
          rcases List.mem_append.mp hcr with hold | hadded
          · exact hs cr hold
          · rw [List.mem_singleton.mp hadded]
            exact CallResult.typed_populate rfl resp
        · exact hs cr hcr
  | parallel calls =>
      rw [runOp, executeParallelBuffer] at hcr
      split at hcr
      · exact hs cr hcr
      · rw [collectedResults_recordAll] at hcr
        rcases List.mem_append.mp hcr with hold | hadded
        · exact hs cr hold
        · obtain ⟨resp, -, rfl⟩ := List.mem_map.mp hadded
          exact CallResult.typed_populate rfl resp

theorem SyncScript.typed_run (script : List ScriptOp) :
    ∀ cr ∈ (run expects registry outcome script : SyncScript Future).ctx.collectedResults, cr.Typed := by
  induction script using List.reverseRecOn with
  | nil => exact fun cr hcr => absurd hcr List.not_mem_nil
  | append_singleton script op ih =>
      rw [run, List.foldl_append]
      exact typed_runOp ih op

end

/-! ### Validity, field by field -/

theorem paramsSchema_oneOf_iff (value : ParamValue) :
    (JsonSchema.oneOf [.type .number, .type .string, .type .boolean, numbersSchema]).Valid (Ipc.paramJson value) ↔
      value.Finite := by
  rw [JsonSchema.Valid, JsonSchema.accepts]
  cases value <;>
    simp [Ipc.paramJson, JsonSchema.countAccepts, JsonSchema.accepts, JsonSchema.acceptsAll, JsonSchema.itemsOf,
      numbersSchema, Json.hasType, Json.number?, ParamValue.Finite]

theorem valid_measureParams_iff (params : ParamMap) :
    paramsSchema.Valid (measureParams params) ↔
      params.entries ≠ [] ∧ ∀ entry ∈ params.entries, entry.2.Finite := by
  rw [measureParams, Ipc.paramFields_eq, paramsSchema, JsonSchema.valid_schema_iff]
  cases hentries : params.entries with
  | nil => simp [JsonSchema.valid_type_iff, Json.hasType]
  | cons entry entries =>
      simp only [List.map_cons, List.forall_mem_cons, JsonSchema.valid_type_iff, Json.hasType,
        JsonSchema.valid_additional_object_iff, paramsSchema_oneOf_iff, List.forall_mem_map, List.not_mem_nil]
      simp

/-- A return object with a type and a value. -/
theorem valid_directReturn_iff (type : ByteString) (value : Json) :
    directReturnSchema.Valid (.object (Json.set (typed type) (bytes "value") value)) ↔
      type ∈ directTypes ∧
        (JsonSchema.oneOf [.type .number, .type .string, .type .boolean, numbersSchema, .type .null]).Valid value := by
  have htype : (Json.object (Json.set (typed type) (bytes "value") value)).member? (bytes "type") = some (.string type) := rfl
  have hvalue : (Json.object (Json.set (typed type) (bytes "value") value)).member? (bytes "value") = some value := rfl
  rw [directReturnSchema, JsonSchema.valid_schema_iff]
  simp [JsonSchema.valid_type_iff, JsonSchema.valid_required_object_iff, JsonSchema.valid_properties_iff,
    JsonSchema.valid_schema_iff, JsonSchema.valid_texts_string_iff, Json.hasType, htype, hvalue]

/-- Without a value an object is no direct return. -/
theorem not_valid_directReturn {fields : List (ByteString × Json)}
    (hvalue : (Json.object fields).member? (bytes "value") = none) : ¬ directReturnSchema.Valid (.object fields) := by
  rw [directReturnSchema, JsonSchema.valid_schema_iff]
  simp [JsonSchema.valid_required_object_iff, hvalue]

theorem valid_bufferReturn_iff (bufferId : ByteString) (elementCount : UInt64) (dataType : ByteString) :
    bufferReturnSchema.Valid (bufferJson bufferId elementCount dataType) ↔ dataType ∈ bufferDataTypes := by
  rw [bufferJson]
  generalize hfields : Json.set _ (bytes "data_type") _ = fields
  have htype : (Json.object fields).member? (bytes "type") = some (.string (bytes "buffer")) := hfields ▸ rfl
  have hid : (Json.object fields).member? (bytes "buffer_id") = some (.string bufferId) := hfields ▸ rfl
  have hcount : (Json.object fields).member? (bytes "element_count") = some (.unsigned elementCount) := hfields ▸ rfl
  have hdata : (Json.object fields).member? (bytes "data_type") = some (.string dataType) := hfields ▸ rfl
  have hnonneg : (JsonSchema.minimum 0).Valid (.unsigned elementCount) := by
    simp [JsonSchema.Valid, JsonSchema.accepts, Json.number?]
  rw [bufferReturnSchema, JsonSchema.valid_schema_iff]
  simp [JsonSchema.valid_type_iff, JsonSchema.valid_required_object_iff, JsonSchema.valid_properties_iff,
    JsonSchema.valid_schema_iff, JsonSchema.valid_texts_string_iff, Json.hasType, Json.number?, htype, hid, hcount, hdata,
    hnonneg]

/-- An object without the id of a buffer is no buffer. -/
theorem not_valid_bufferReturn {fields : List (ByteString × Json)}
    (hid : (Json.object fields).member? (bytes "buffer_id") = none) : ¬ bufferReturnSchema.Valid (.object fields) := by
  rw [bufferReturnSchema, JsonSchema.valid_schema_iff]
  simp [JsonSchema.valid_required_object_iff, hid]

/-- A value under the name of its type. -/
theorem valid_typed_value_iff (value : ParamValue) (harray : ∀ values, value ≠ .doubles values) :
    (JsonSchema.oneOf [directReturnSchema, bufferReturnSchema]).Valid
        (.object (Json.set (typed value.typeName) (bytes "value") (Ipc.paramJson value))) ↔
      ∃ text, value = .string text := by
  rw [JsonSchema.valid_oneOf_pair_iff, iff_true_right (not_valid_bufferReturn rfl), valid_directReturn_iff]
  cases value with
  | string text =>
      refine iff_of_true ⟨show bytes "string" ∈ directTypes by decide, ?_⟩ ⟨text, rfl⟩
      simp [JsonSchema.Valid, JsonSchema.accepts, JsonSchema.countAccepts, JsonSchema.acceptsAll, numbersSchema,
        Ipc.paramJson, Json.hasType, Json.number?]
  | doubles values => exact absurd rfl (harray values)
  | double => exact iff_of_false (fun h => absurd h.1 (show bytes "float" ∉ directTypes by decide)) (by simp)
  | int64 => exact iff_of_false (fun h => absurd h.1 (show bytes "integer" ∉ directTypes by decide)) (by simp)
  | boolean => exact iff_of_false (fun h => absurd h.1 (show bytes "boolean" ∉ directTypes by decide)) (by simp)

theorem valid_measureReturn_iff {cr : CallResult} (htyped : cr.Typed) :
    (JsonSchema.oneOf [directReturnSchema, bufferReturnSchema]).Valid (measureReturn cr) ↔
      if cr.hasLargeData then cr.dataType ∈ bufferDataTypes else ∃ text, cr.returnValue = some (.string text) := by
  rw [measureReturn]
  split
  · have hdirect : ¬ directReturnSchema.Valid (bufferJson cr.bufferId cr.elementCount cr.dataType) :=
      not_valid_directReturn rfl
    rw [JsonSchema.valid_oneOf_pair_iff, iff_false_left hdirect, not_not, valid_bufferReturn_iff]
  · split
    · rename_i hnone
      rw [hnone]
      exact iff_of_false (by decide) (by simp)
    · rename_i values harray
      have hdirect : ¬ directReturnSchema.Valid (.object (typed cr.returnType)) := not_valid_directReturn rfl
      have hbuffer : ¬ bufferReturnSchema.Valid (.object (typed cr.returnType)) := not_valid_bufferReturn rfl
      rw [JsonSchema.valid_oneOf_pair_iff, harray, iff_false_left hdirect]
      exact iff_of_false (not_not.mpr hbuffer) (by simp)
    · rename_i value hscalar hvalue
      rw [hvalue, htyped value hvalue, valid_typed_value_iff value hscalar]
      simp

/-! ### The results of a script -/

/-- The object for a result is valid exactly if the result fits. -/
theorem valid_measureResult_iff {cr : CallResult} (htyped : cr.Typed) (executedAtMs : Int64) (index : Nat) :
    callResultSchema.Valid (measureResult executedAtMs index cr) ↔ cr.FitsSchema := by
  rw [measureResult]
  generalize hfields : Json.set _ (bytes "return") _ = fields
  have hindex : (Json.object fields).member? (bytes "index") = some (.unsigned (UInt64.ofNat index)) := hfields ▸ rfl
  have hinstrument : (Json.object fields).member? (bytes "instrument") = some (.string cr.instrumentName) := hfields ▸ rfl
  have hverb : (Json.object fields).member? (bytes "verb") = some (.string cr.verb) := hfields ▸ rfl
  have hparams : (Json.object fields).member? (bytes "params") = some (measureParams cr.params) := hfields ▸ rfl
  have htime : (Json.object fields).member? (bytes "executed_at_ms") = some (.integer executedAtMs) := hfields ▸ rfl
  have hreturn : (Json.object fields).member? (bytes "return") = some (measureReturn cr) := hfields ▸ rfl
  have hnonneg : (JsonSchema.minimum 0).Valid (.unsigned (UInt64.ofNat index)) := by
    simp [JsonSchema.Valid, JsonSchema.accepts, Json.number?]
  rw [callResultSchema, JsonSchema.valid_schema_iff]
  simp [JsonSchema.valid_type_iff, JsonSchema.valid_required_object_iff, JsonSchema.valid_properties_iff,
    JsonSchema.valid_schema_iff, Json.hasType, Json.number?, hindex, hinstrument, hverb, hparams, htime, hreturn, hnonneg,
    valid_measureParams_iff, valid_measureReturn_iff htyped, CallResult.FitsSchema, and_assoc]

/-- The results of a synchronous script are valid exactly if every one of them has parameters, all finite, and returns a text or a buffer of a type that the schema lists. -/
theorem measureResults_valid_iff (Future : Type) (expects : ByteString → ByteString → Bool) (registry : Registry)
    (outcome : Nat → SyncOutcome) (script : List ScriptOp) (executedAtMs : Nat → Int64) :
    (∀ entry ∈ measureResults executedAtMs
        (SyncScript.run expects registry outcome script : SyncScript Future).ctx.collectedResults,
      callResultSchema.Valid entry) ↔
      ∀ cr ∈ (SyncScript.run expects registry outcome script : SyncScript Future).ctx.collectedResults, cr.FitsSchema := by
  have htyped : ∀ cr ∈ (SyncScript.run expects registry outcome script : SyncScript Future).ctx.collectedResults,
      cr.Typed := SyncScript.typed_run script
  generalize (SyncScript.run expects registry outcome script : SyncScript Future).ctx.collectedResults = results at *
  constructor
  · intro hvalid cr hcr
    obtain ⟨index, hindex⟩ := List.mem_iff_getElem?.mp hcr
    have hentry := hvalid (measureResult (executedAtMs index) index cr)
      (List.mem_map.mpr ⟨(cr, index), List.mem_zipIdx_iff_getElem?.mpr hindex, rfl⟩)
    exact (valid_measureResult_iff (htyped cr hcr) _ _).mp hentry
  · intro hfits entry hentry
    obtain ⟨⟨cr, index⟩, hmem, rfl⟩ := List.mem_map.mp hentry
    have hcr : cr ∈ results := List.fst_mem_of_mem_zipIdx hmem
    exact (valid_measureResult_iff (htyped cr hcr) _ _).mpr (hfits cr hcr)

/-- A measurement with one argument that is answered with one volt. -/
def voltScript : List ScriptOp := [.call ⟨bytes "DMM.MEASURE", .positional [.integer 3]⟩]

/-- The measurement returns a number, and `float` is no type of the schema. -/
theorem measureResults_not_valid_voltScript :
    ¬ ∀ entry ∈ measureResults (fun _ => 0)
        (SyncScript.run (fun _ _ => true) dmmAndScope
          (fun _ => .answered { success := true, returnValue := some (.double Double.one) }) voltScript :
          SyncScript Unit).ctx.collectedResults,
      callResultSchema.Valid entry := by
  decide +kernel

end InstrumentServer
