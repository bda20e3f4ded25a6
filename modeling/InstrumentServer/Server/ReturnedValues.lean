import InstrumentServer.Ipc.DataBufferManager
import InstrumentServer.Server.RuntimeContext
import InstrumentServer.Worker.PluginInterface

/-!
# The way of a return value

What a plugin returns is converted five times before a caller sees it: into a `CommandResponse`, into JSON text and back, into a `CallResult` and into the return object of the result list. The first conversion knows four kinds of values and four types of buffers. `returned_value_intact_iff` says that the others do not lose anything further.
-/

namespace InstrumentServer

open Ipc

/-! ### `collect_results_json` -/

/-- The beginning of every return object. -/
def typed (type : ByteString) : List (ByteString × Json) := Json.set [] (bytes "type") (.string type)

/-- The return object for a large result. -/
def bufferJson (bufferId : ByteString) (elementCount : UInt64) (dataType : ByteString) : Json :=
  let fields := Json.set (typed (bytes "buffer")) (bytes "buffer_id") (.string bufferId)
  let fields := Json.set fields (bytes "element_count") (.unsigned elementCount)
  .object (Json.set fields (bytes "data_type") (.string dataType))

/-- The return object for a value. -/
def valueJson : Option ParamValue → Json
  | some (.double value) => .object (Json.set (typed (bytes "float")) (bytes "value") (.float value))
  | some (.int64 value) => .object (Json.set (typed (bytes "integer")) (bytes "value") (.integer value))
  | some (.string value) => .object (Json.set (typed (bytes "string")) (bytes "value") (.string value))
  | some (.boolean value) => .object (Json.set (typed (bytes "boolean")) (bytes "value") (.boolean value))
  | some (.doubles _) | none => .object (typed (bytes "void"))

/-- The object under `return`. -/
def CallResult.returnJson (cr : CallResult) : Json :=
  if cr.hasLargeData then bufferJson cr.bufferId cr.elementCount cr.dataType else valueJson cr.returnValue

/-- The round of the loop; the time of execution is not part of the modelled result. -/
def CallResult.json (executedAtMs : Int64) (cr : CallResult) : Json :=
  let fields := Json.set [] (bytes "command_id") (.string cr.commandId)
  let fields := Json.set fields (bytes "instrument") (.string cr.instrumentName)
  let fields := Json.set fields (bytes "verb") (.string cr.verb)
  let fields := Json.set fields (bytes "executed_at_ms") (.integer executedAtMs)
  let fields := Json.set fields (bytes "return") cr.returnJson
  .object (if cr.success then fields else Json.set fields (bytes "error") (.string cr.errorMessage))

/-- The result list; `executedAtMs` gives the time of the result at each place. -/
def collectResultsJson (executedAtMs : Nat → Int64) (results : List CallResult) : List Json :=
  results.zipIdx.map fun result => result.1.json (executedAtMs result.2)

/-! ### What a caller may expect -/

/-- The number, flag, text or array as JSON. -/
def PluginParamValue.json : PluginParamValue → Option Json
  | .int32 value => some (.integer value.toInt64)
  | .int64 value => some (.integer value)
  | .uint32 value => some (.unsigned value.toUInt64)
  | .uint64 value => some (.unsigned value)
  | .float bits => some (.float (Double.ofFloat bits))
  | .double value => some (.float value)
  | .bool value => some (.boolean value)
  | .string value => some (.string value.text)
  | .arrayDouble data => some (.array (data.map .float))
  | .arrayInt32 data => some (.array (data.map fun value => .integer value.toInt64))
  | .none | .binary _ => Option.none

/-- No number in the value is an infinity or a NaN. -/
def PluginParamValue.Finite : PluginParamValue → Prop
  | .float bits => (Double.ofFloat bits).isFinite = true
  | .double value => value.isFinite = true
  | .arrayDouble data => ∀ value ∈ data, value.isFinite = true
  | .none | .int32 _ | .int64 _ | .uint32 _ | .uint64 _ | .bool _ | .string _ | .binary _ | .arrayInt32 _ => True

/-- The entry has a return object with the value or the buffer that the plugin returned. -/
def ShowsReturn (presp : PluginResponse) (entry : Json) : Prop :=
  ∃ ret type, entry.member? (bytes "return") = some ret ∧ ret.textAt? (bytes "type") = some type ∧ type ≠ bytes "void" ∧
    if presp.hasLargeData then
      ret.textAt? (bytes "buffer_id") = some presp.dataBufferId.text ∧
        ret.member? (bytes "element_count") = some (.unsigned presp.dataElementCount) ∧
        ret.textAt? (bytes "data_type") = some (DataType.ofCode presp.dataType).name
    else ∃ value, presp.returnValue.json = some value ∧ ret.member? (bytes "value") = some value

/-- Whatever call the response answers and whatever other results there are, its entry in the list shows the return. -/
def EntryShows (presp : PluginResponse) (resp : CommandResponse) : Prop :=
  ∀ instrumentName verb params executedAtMs before after, ∃ entry,
    (collectResultsJson executedAtMs
      (before ++ CallResult.populate { instrumentName, verb, params } resp :: after))[before.length]? = some entry ∧
    ShowsReturn presp entry

/-- The response gets through to the server, and its entry shows the return. -/
def ReturnsIntact (N : JsonLibrary) (presp : PluginResponse) : Prop :=
  ∃ text resp, serializeResponse N (fromPluginResponse presp) = .ok text ∧ deserializeResponse N text = .ok resp ∧
    EntryShows presp resp

/-- The kinds of values that `from_plugin_response` knows. -/
def PluginParamValue.Known : PluginParamValue → Prop
  | .double _ | .int64 _ | .string _ | .bool _ => True
  | .none | .int32 _ | .uint32 _ | .uint64 _ | .float _ | .binary _ | .arrayDouble _ | .arrayInt32 _ => False

/-- The types of buffers whose name `from_plugin_response` knows, or whose name is unknown to `data_type_to_string`, too. -/
def KnownDataType (code : UInt8) : Prop := code ≠ 4 ∧ code ≠ 5 ∧ code ≠ 6

/-- The value is no infinite double and no NaN. -/
def PluginParamValue.DoubleFinite (value : PluginParamValue) : Prop := ∀ d, value = .double d → d.isFinite = true

section

variable {presp : PluginResponse}

/-! ### From the worker to the server -/

theorem dataTypeName_eq_iff (code : UInt8) : dataTypeName code = (DataType.ofCode code).name ↔ KnownDataType code := by
  rw [dataTypeName, DataType.ofCode, KnownDataType]
  split_ifs <;> simp_all +decide [DataType.name]

theorem returnValue_fromPluginResponse (hsuccess : presp.success = true) :
    (fromPluginResponse presp).returnValue = presp.returnValue.toParamValue :=
  if_pos hsuccess

theorem announced_fromPluginResponse (presp : PluginResponse) : LargeDataAnnounced (fromPluginResponse presp) := by
  intro hlarge
  have hnone : presp.hasLargeData = false := hlarge
  simp [fromPluginResponse, hnone]

theorem doubleFinite_fromPluginResponse (hsuccess : presp.success = true) :
    (∀ value, (fromPluginResponse presp).returnValue = some value → value.Finite) ↔ presp.returnValue.DoubleFinite := by
  rw [returnValue_fromPluginResponse hsuccess]
  cases hvalue : presp.returnValue <;>
    simp [PluginParamValue.toParamValue, PluginParamValue.DoubleFinite, ParamValue.Finite]

/-- The response gets through exactly if its value is finite, and then unchanged. -/
theorem transported_iff (N : JsonLibrary) (hsuccess : presp.success = true) (hvalid : presp.ValidText)
    (P : CommandResponse → Prop) :
    (∃ text resp, serializeResponse N (fromPluginResponse presp) = .ok text ∧ deserializeResponse N text = .ok resp ∧ P resp) ↔
      presp.returnValue.DoubleFinite ∧ P (fromPluginResponse presp) := by
  rw [← doubleFinite_fromPluginResponse hsuccess]
  have htext := (validText_fromPluginResponse presp).mpr hvalid
  constructor
  · rintro ⟨text, resp, hserialize, hdeserialize, hresp⟩
    have htake := deserializeResponse_take N text.length hserialize
    rw [List.take_length, decodedResponse_of_announced (announced_fromPluginResponse presp), hdeserialize] at htake
    rcases htake with ⟨⟨-, hfinite⟩, hsame⟩ | ⟨-, e, herror⟩
    · rw [Except.ok.inj hsame] at hresp
      exact ⟨hfinite, hresp⟩
    · contradiction
  · rintro ⟨hfinite, hresp⟩
    obtain ⟨text, hserialize, hdeserialize⟩ :=
      deserializeResponse_serializeResponse N htext hfinite (announced_fromPluginResponse presp)
    exact ⟨text, _, hserialize, hdeserialize, hresp⟩

/-! ### In the result list -/

theorem getElem?_collectResultsJson (executedAtMs : Nat → Int64) (before after : List CallResult) (cr : CallResult) :
    (collectResultsJson executedAtMs (before ++ cr :: after))[before.length]? =
      some (cr.json (executedAtMs before.length)) := by
  simp [collectResultsJson]

theorem member?_return_json (executedAtMs : Int64) (cr : CallResult) :
    (cr.json executedAtMs).member? (bytes "return") = some cr.returnJson := by
  rw [CallResult.json]
  cases cr.success <;> rfl

theorem returnJson_populate (instrumentName verb : ByteString) (params : ParamMap) (resp : CommandResponse) :
    (CallResult.populate { instrumentName, verb, params } resp).returnJson =
      if resp.hasLargeData then bufferJson resp.bufferId resp.elementCount resp.dataType else valueJson resp.returnValue := by
  rw [CallResult.populate]
  dsimp only
  split
  · rfl
  · split
    · rename_i value hvalue
      rw [hvalue]
      cases value <;> rfl
    · rename_i hnone
      rw [hnone]
      rfl

/-- The return object of a value has a type other than `void` exactly if `from_plugin_response` knows the kind. -/
theorem valueJson_shows_iff {plugin : PluginParamValue} {value : Json} (hvalue : plugin.json = some value) :
    (∃ type, (valueJson plugin.toParamValue).textAt? (bytes "type") = some type ∧ type ≠ bytes "void" ∧
      (valueJson plugin.toParamValue).member? (bytes "value") = some value) ↔ plugin.Known := by
  cases plugin with
  | double d => exact iff_of_true ⟨bytes "float", rfl, by decide, hvalue⟩ trivial
  | int64 i => exact iff_of_true ⟨bytes "integer", rfl, by decide, hvalue⟩ trivial
  | string s => exact iff_of_true ⟨bytes "string", rfl, by decide, hvalue⟩ trivial
  | bool b => exact iff_of_true ⟨bytes "boolean", rfl, by decide, hvalue⟩ trivial
  | none | binary => contradiction
  | int32 | uint32 | uint64 | float | arrayDouble | arrayInt32 =>
      refine iff_of_false ?_ id
      rintro ⟨type, htype, hvoid, -⟩
      exact hvoid (Option.some.inj htype).symm

/-- What the return object of a response shows. -/
theorem showsReturn_iff (hsuccess : presp.success = true)
    (hreturns : presp.hasLargeData = true ∨ ∃ value, presp.returnValue.json = some value)
    (instrumentName verb : ByteString) (params : ParamMap) (executedAtMs : Int64) :
    ShowsReturn presp ((CallResult.populate { instrumentName, verb, params } (fromPluginResponse presp)).json executedAtMs) ↔
      if presp.hasLargeData then KnownDataType presp.dataType else presp.returnValue.Known := by
  rw [ShowsReturn]
  simp only [member?_return_json, Option.some.injEq, exists_and_left, exists_eq_left', returnJson_populate,
    returnValue_fromPluginResponse hsuccess]
  cases hlarge : presp.hasLargeData with
  | true =>
      have hbuffer : bufferJson (fromPluginResponse presp).bufferId (fromPluginResponse presp).elementCount
            (fromPluginResponse presp).dataType =
          bufferJson presp.dataBufferId.text presp.dataElementCount (dataTypeName presp.dataType) := by
        simp [fromPluginResponse, hlarge]
      have hresp : (fromPluginResponse presp).hasLargeData = true := hlarge
      simp only [hresp, if_true, hbuffer, ← dataTypeName_eq_iff]
      constructor
      · rintro ⟨type, -, -, -, -, hname⟩
        exact Option.some.inj hname
      · intro hname
        exact ⟨bytes "buffer", rfl, by decide, rfl, rfl, congrArg some hname⟩
  | false =>
      obtain ⟨value, hvalue⟩ := hreturns.resolve_left (by simp [hlarge])
      have hresp : (fromPluginResponse presp).hasLargeData = false := hlarge
      simp only [hresp, Bool.false_eq_true, if_false, hvalue, Option.some.injEq, exists_eq_left']
      exact valueJson_shows_iff hvalue

theorem entryShows_iff (hsuccess : presp.success = true)
    (hreturns : presp.hasLargeData = true ∨ ∃ value, presp.returnValue.json = some value) :
    EntryShows presp (fromPluginResponse presp) ↔
      if presp.hasLargeData then KnownDataType presp.dataType else presp.returnValue.Known := by
  simp only [EntryShows, getElem?_collectResultsJson, Option.some.injEq, exists_eq_left',
    showsReturn_iff hsuccess hreturns]
  exact ⟨fun hshows => hshows [] [] .empty (fun _ => 0) [] [], fun hknown _ _ _ _ _ _ => hknown⟩

/-- A return gets into the result list intact exactly if the worker knows its kind, and the value with it is finite. -/
theorem returned_value_intact_iff (N : JsonLibrary) (hsuccess : presp.success = true) (hvalid : presp.ValidText)
    (hreturns : presp.hasLargeData = true ∨ (∃ value, presp.returnValue.json = some value) ∧ presp.returnValue.Finite) :
    ReturnsIntact N presp ↔
      if presp.hasLargeData then KnownDataType presp.dataType ∧ presp.returnValue.DoubleFinite
      else presp.returnValue.Known := by
  rw [ReturnsIntact, transported_iff N hsuccess hvalid, entryShows_iff hsuccess (hreturns.imp_right And.left)]
  cases hlarge : presp.hasLargeData with
  | true => exact and_comm
  | false =>
      obtain ⟨-, hfinite⟩ := hreturns.resolve_left (by simp [hlarge])
      refine and_iff_right fun d hd => ?_
      rw [hd] at hfinite
      exact hfinite

end

/-! ### Runs -/

/-- A voltage of one volt. -/
def voltReply : PluginResponse := { PluginResponse.zero with success := true, returnValue := .double Double.one }

/-- A count of seven, as a 32-bit integer. -/
def countReply : PluginResponse := { PluginResponse.zero with success := true, returnValue := .int32 7 }

theorem validText_reply {value : PluginParamValue} (htext : ∀ s, value = .string s → ByteString.ValidUtf8 s.text) :
    PluginResponse.ValidText { PluginResponse.zero with success := true, returnValue := value } := by
  have hempty : ByteString.ValidUtf8 [] := ByteString.validUtf8_bytes ""
  exact ⟨hempty, hempty, hempty, hempty, fun _ => htext, fun hlarge => by contradiction⟩

theorem returned_value_intact_voltReply : ReturnsIntact .compact voltReply := by
  have hvalid : voltReply.ValidText := validText_reply (by simp)
  have hfinite : voltReply.returnValue.Finite := show Double.one.isFinite = true by decide
  exact (returned_value_intact_iff .compact rfl hvalid (Or.inr ⟨⟨_, rfl⟩, hfinite⟩)).mpr trivial

/-- The response arrives without the value, and its return object says `void`. -/
theorem returned_value_lost_countReply :
    countReply.success = true ∧ countReply.ValidText ∧ countReply.returnValue.json = some (.integer 7) ∧
      countReply.returnValue.Finite ∧ ¬ ReturnsIntact .compact countReply := by
  have hvalid : countReply.ValidText := validText_reply (by simp)
  refine ⟨rfl, hvalid, rfl, trivial, ?_⟩
  rintro ⟨text, resp, hserialize, hdeserialize, hshows⟩
  obtain ⟨-, hshows⟩ := (transported_iff .compact rfl hvalid (EntryShows countReply)).mp
    ⟨text, resp, hserialize, hdeserialize, hshows⟩
  obtain ⟨entry, hentry, ret, type, hret, htype, hvoid, -⟩ := hshows [] [] .empty (fun _ => 0) [] []
  rw [getElem?_collectResultsJson] at hentry
  obtain rfl := Option.some.inj hentry
  obtain rfl := Option.some.inj hret
  exact hvoid (Option.some.inj htype).symm

end InstrumentServer
