import InstrumentServer.Lib.Json.Text
import InstrumentServer.Ipc.SerializedCommand

/-!
# What the encodings keep

The fields of a command and of a response are written out in key order, and from that follow the three facts the wire needs: when the encoder throws, what the decoder returns on the text of a whole document, and when it throws there.

* A command loses `isSyncBarrier` and every scalar parameter that is not finite; an array parameter with an element that is not finite makes the decoder throw (`decodeCommand_reread`).
* With valid texts and finite numbers everything else survives: each parameter keeps its key, its kind and its value (`deserializeCommand_serializeCommand`).
* A response comes back unchanged when its return value is finite and its large data fields are unused or announced (`deserializeResponse_serializeResponse`).
-/

namespace InstrumentServer

/-- The strings the encoder writes for a value are valid UTF-8. -/
def ParamValue.ValidText : ParamValue → Prop
  | .string value => ByteString.ValidUtf8 value
  | _ => True

/-- No number in the value is an infinity or a NaN. -/
def ParamValue.Finite : ParamValue → Prop
  | .double value => value.isFinite = true
  | .doubles values => ∀ d ∈ values, d.isFinite = true
  | _ => True

/-- No element of an array value is an infinity or a NaN. -/
def ParamValue.ArrayFinite : ParamValue → Prop
  | .doubles values => ∀ d ∈ values, d.isFinite = true
  | _ => True

theorem ParamValue.Finite.arrayFinite {value : ParamValue} (hfinite : value.Finite) : value.ArrayFinite := by
  cases value with
  | doubles values => exact hfinite
  | double value | int64 value | string value | boolean value => trivial

/-- Names and values of the parameters are valid UTF-8. -/
def ParamMap.ValidText (params : ParamMap) : Prop :=
  ∀ entry ∈ params.entries, ByteString.ValidUtf8 entry.1 ∧ entry.2.ValidText

/-- The strings of a command are valid UTF-8. -/
def SerializedCommand.ValidText (cmd : SerializedCommand) : Prop :=
  ByteString.ValidUtf8 cmd.id ∧ ByteString.ValidUtf8 cmd.instrumentName ∧ ByteString.ValidUtf8 cmd.verb ∧
    cmd.params.ValidText

instance decidableParamValueValidText : (value : ParamValue) → Decidable value.ValidText
  | .string value => inferInstanceAs (Decidable (ByteString.ValidUtf8 value))
  | .double _ | .int64 _ | .boolean _ | .doubles _ => instDecidableTrue

instance decidableParamMapValidText (params : ParamMap) : Decidable params.ValidText :=
  inferInstanceAs (Decidable (∀ entry ∈ params.entries, ByteString.ValidUtf8 entry.1 ∧ entry.2.ValidText))

instance decidableCommandValidText (cmd : SerializedCommand) : Decidable cmd.ValidText :=
  inferInstanceAs (Decidable (ByteString.ValidUtf8 cmd.id ∧ ByteString.ValidUtf8 cmd.instrumentName ∧
    ByteString.ValidUtf8 cmd.verb ∧ cmd.params.ValidText))

/-- The strings the encoder writes for a response are valid UTF-8. -/
def CommandResponse.ValidText (resp : CommandResponse) : Prop :=
  ByteString.ValidUtf8 resp.commandId ∧ ByteString.ValidUtf8 resp.instrumentName ∧
    ByteString.ValidUtf8 resp.errorMessage ∧ ByteString.ValidUtf8 resp.textResponse ∧
    (∀ value, resp.returnValue = some value → value.ValidText) ∧
    (resp.hasLargeData = true → ByteString.ValidUtf8 resp.bufferId ∧ ByteString.ValidUtf8 resp.dataType)

namespace Ipc

/-! ### Values -/

@[simp] theorem getString_reread_string (s : ByteString) : (Json.string s).reread.getString = .ok s := rfl

@[simp] theorem getBool_reread_boolean (b : Bool) : (Json.boolean b).reread.getBool = .ok b := rfl

@[simp] theorem getUInt64_reread_unsigned (n : UInt64) : (Json.unsigned n).reread.getUInt64 = .ok n := rfl

@[simp] theorem getInt64_reread_integer (i : Int64) : (Json.integer i).reread.getInt64 = .ok i := by
  rw [Json.reread]
  split
  · rfl
  · rw [Json.getInt64, Int64.toInt64_toUInt64]

@[simp] theorem getInt32_reread_integer (i : Int32) : (Json.integer i.toInt64).reread.getInt32 = .ok i := by
  rw [Json.reread]
  split
  · rw [Json.getInt32, Int32.toInt32_toInt64]
  · rw [Json.getInt32, Int64.toInt64_toUInt64, Int32.toInt32_toInt64]

theorem getDoubles_reread_array (values : List Double) (hfinite : ∀ d ∈ values, d.isFinite = true) :
    (Json.array (values.map .float)).reread.getDoubles = .ok values := by
  rw [Json.reread, Json.rereadItems_eq_map, Json.getDoubles, List.map_map]
  induction values with
  | nil => rfl
  | cons d values ih =>
      have hd : d.isFinite = true := hfinite d (by simp)
      rw [List.map_cons, List.mapM_cons, ih fun e he => hfinite e (by simp [he])]
      simp [Json.reread, hd, Json.getDouble, bind, Except.bind, pure, Except.pure]

/-- An element that is not finite was written as null, which is no number. -/
theorem getDoubles_reread_array_error (values : List Double) (hnot : ¬ ∀ d ∈ values, d.isFinite = true) :
    (Json.array (values.map .float)).reread.getDoubles = .error .typeError := by
  rw [Json.reread, Json.rereadItems_eq_map, Json.getDoubles, List.map_map]
  induction values with
  | nil => simp at hnot
  | cons d values ih =>
      rw [List.map_cons, List.mapM_cons]
      by_cases hd : d.isFinite = true
      · rw [ih fun hrest => hnot (by simpa [hd] using hrest)]
        simp [Json.reread, hd, Json.getDouble, bind, Except.bind]
      · simp [Json.reread, hd, Json.getDouble, bind, Except.bind]

theorem validText_paramJson (value : ParamValue) : (paramJson value).ValidText ↔ value.ValidText := by
  cases value with
  | doubles values =>
      simp only [paramJson, Json.ValidText, ParamValue.ValidText, Json.validTexts_iff, List.mem_map, iff_true]
      rintro item ⟨d, -, rfl⟩
      simp [Json.ValidText]
  | double value => simp [paramJson, Json.ValidText, ParamValue.ValidText]
  | int64 value => simp [paramJson, Json.ValidText, ParamValue.ValidText]
  | string value => simp [paramJson, Json.ValidText, ParamValue.ValidText]
  | boolean value => simp [paramJson, Json.ValidText, ParamValue.ValidText]

theorem ordered_paramJson (value : ParamValue) : (paramJson value).Ordered := by
  cases value with
  | doubles values =>
      simp only [paramJson, Json.Ordered, Json.orderedItems_iff, List.mem_map]
      rintro item ⟨d, -, rfl⟩
      simp [Json.Ordered]
  | double value => simp [paramJson, Json.Ordered]
  | int64 value => simp [paramJson, Json.Ordered]
  | string value => simp [paramJson, Json.Ordered]
  | boolean value => simp [paramJson, Json.Ordered]

/-! ### Parameters -/

theorem paramFields_eq (params : ParamMap) :
    paramFields params = params.entries.map fun entry => (entry.1, paramJson entry.2) :=
  SortedAssoc.foldl_insert_map (fun entry => paramJson entry.2) params.sorted

theorem ordered_paramFields (params : ParamMap) : (Json.object (paramFields params)).Ordered := by
  rw [Json.Ordered, Json.orderedFields_iff, paramFields_eq]
  refine ⟨SortedAssoc.sorted_map params.sorted _, fun entry hmem => ?_⟩
  obtain ⟨source, -, rfl⟩ := List.mem_map.mp hmem
  exact ordered_paramJson source.2

theorem validFields_paramFields (params : ParamMap) : Json.ValidFields (paramFields params) ↔ params.ValidText := by
  rw [Json.validFields_iff, paramFields_eq, ParamMap.ValidText]
  simp only [List.forall_mem_map, validText_paramJson]

/-- The parameter that a written value is read back as. -/
def decodedParam : ParamValue → Option ParamValue
  | .double value => if value.isFinite then some (.double value) else none
  | value => some value

theorem decodeParam_reread {value : ParamValue} (hfinite : value.ArrayFinite) :
    decodeParam (paramJson value).reread = .ok (decodedParam value) := by
  cases value with
  | double value =>
      rw [paramJson, Json.reread, decodedParam]
      split <;> rfl
  | int64 value =>
      rw [paramJson, Json.reread]
      split
      · rfl
      · rw [decodeParam, Int64.toInt64_toUInt64]
        rfl
  | string value => rfl
  | boolean value => rfl
  | doubles values =>
      have hread := getDoubles_reread_array values hfinite
      rw [Json.reread] at hread
      rw [paramJson, Json.reread, decodeParam, hread]
      rfl

theorem decodeParam_reread_error {value : ParamValue} (hnot : ¬ value.ArrayFinite) :
    decodeParam (paramJson value).reread = .error .typeError := by
  cases value with
  | doubles values =>
      have hread := getDoubles_reread_array_error values hnot
      rw [Json.reread] at hread
      rw [paramJson, Json.reread, decodeParam, hread]
      rfl
  | double value | int64 value | string value | boolean value => exact absurd trivial hnot

/-- The decoded parameters: the written ones that can be read back. -/
def decodedParams (params : ParamMap) : List (ByteString × ParamValue) → ParamMap
  | [] => params
  | (key, value) :: entries =>
      match decodedParam value with
      | some param => decodedParams (params.insert key param) entries
      | none => decodedParams params entries

theorem decodeParams_reread (entries : List (ByteString × ParamValue)) (params : ParamMap)
    (hfinite : ∀ entry ∈ entries, entry.2.ArrayFinite) :
    decodeParams params (entries.map fun entry => (entry.1, (paramJson entry.2).reread)) =
      .ok (decodedParams params entries) := by
  induction entries generalizing params with
  | nil => rfl
  | cons entry entries ih =>
      obtain ⟨key, value⟩ := entry
      have hrest : ∀ entry ∈ entries, entry.2.ArrayFinite := fun entry hmem => hfinite entry (by simp [hmem])
      rw [List.map_cons, decodeParams, decodeParam_reread (hfinite (key, value) (by simp)), decodedParams]
      cases hparam : decodedParam value with
      | none => exact ih params hrest
      | some param => exact ih (params.insert key param) hrest

theorem decodeParams_reread_error (entries : List (ByteString × ParamValue)) (params : ParamMap)
    (hnot : ¬ ∀ entry ∈ entries, entry.2.ArrayFinite) :
    decodeParams params (entries.map fun entry => (entry.1, (paramJson entry.2).reread)) = .error .typeError := by
  induction entries generalizing params with
  | nil => simp at hnot
  | cons entry entries ih =>
      obtain ⟨key, value⟩ := entry
      rw [List.map_cons, decodeParams]
      by_cases hvalue : value.ArrayFinite
      · have hrest : ¬ ∀ entry ∈ entries, entry.2.ArrayFinite := fun hall => hnot (by simpa [hvalue] using hall)
        rw [decodeParam_reread hvalue]
        cases hparam : decodedParam value with
        | none => exact ih params hrest
        | some param => exact ih (params.insert key param) hrest
      · rw [decodeParam_reread_error hvalue]
        rfl

/-! ### Commands -/

def syncTokenFields (cmd : SerializedCommand) : List (ByteString × Json) :=
  match cmd.syncToken with
  | some token => [(bytes "sync_token", .unsigned (UInt64.ofNat token))]
  | none => []

theorem commandFields_eq (cmd : SerializedCommand) :
    commandFields cmd =
      [(bytes "expects_response", Json.boolean cmd.expectsResponse), (bytes "id", Json.string cmd.id),
        (bytes "instrument_name", Json.string cmd.instrumentName), (bytes "params", Json.object (paramFields cmd.params))] ++
      syncTokenFields cmd ++ [(bytes "timeout_ms", Json.integer cmd.timeout), (bytes "verb", Json.string cmd.verb)] := by
  rw [commandFields, syncTokenFields]
  cases cmd.syncToken with
  | none => rfl
  | some token => rfl

theorem sorted_commandFields (cmd : SerializedCommand) : SortedAssoc.Sorted (commandFields cmd) := by
  rw [commandFields]
  cases cmd.syncToken <;>
    repeat' first | exact List.Pairwise.nil | apply SortedAssoc.sorted_insert

theorem ordered_commandFields (cmd : SerializedCommand) : (Json.object (commandFields cmd)).Ordered := by
  have hparams := ordered_paramFields cmd.params
  refine ⟨sorted_commandFields cmd, ?_⟩
  rw [Json.orderedFields_iff, commandFields_eq, syncTokenFields]
  cases cmd.syncToken <;> simpa [Json.Ordered] using hparams

/-- What a written command is read back as. -/
def decodedCommand (cmd : SerializedCommand) : SerializedCommand :=
  { cmd with
    params := decodedParams .empty cmd.params.entries
    syncToken := cmd.syncToken.map (· % 2 ^ 64)
    isSyncBarrier := false }

theorem reread_paramFields (params : ParamMap) :
    (Json.object (paramFields params)).reread =
      .object (params.entries.map fun entry => (entry.1, (paramJson entry.2).reread)) := by
  rw [Json.reread, Json.rereadFields_eq_map, paramFields_eq, List.map_map]
  rfl

theorem field_reread (fields : List (ByteString × Json)) (key : ByteString) :
    (Json.object fields).reread.field key = .ok (((SortedAssoc.find? key fields).map Json.reread).getD .null) := by
  rw [Json.reread, Json.field, Json.find?_rereadFields]

theorem contains_reread (fields : List (ByteString × Json)) (key : ByteString) :
    (Json.object fields).reread.contains key = (SortedAssoc.find? key fields).isSome := by
  rw [Json.reread, Json.contains, Json.find?_rereadFields, Option.isSome_map]

theorem decodeCommand_reread_params (cmd : SerializedCommand) :
    decodeCommand (Json.object (commandFields cmd)).reread =
      (decodeParams .empty (cmd.params.entries.map fun entry => (entry.1, (paramJson entry.2).reread))).map
        fun params => { decodedCommand cmd with params } := by
  rw [decodeCommand, decodeSyncToken, decodeParamsField]
  simp only [field_reread, contains_reread, commandFields_eq, syncTokenFields]
  cases htoken : cmd.syncToken with
  | none =>
      simp +decide [SortedAssoc.find?, reread_paramFields, bind, Except.bind, pure, Except.pure]
      cases decodeParams ParamMap.empty (cmd.params.entries.map fun entry => (entry.1, (paramJson entry.2).reread)) with
      | error e => rfl
      | ok params => simp [Except.map, decodedCommand, htoken]
  | some token =>
      simp +decide [SortedAssoc.find?, reread_paramFields, bind, Except.bind, pure, Except.pure]
      cases decodeParams ParamMap.empty (cmd.params.entries.map fun entry => (entry.1, (paramJson entry.2).reread)) with
      | error e => rfl
      | ok params => simp [Except.map, decodedCommand, htoken]

theorem validText_commandFields (cmd : SerializedCommand) :
    (Json.object (commandFields cmd)).ValidText ↔ cmd.ValidText := by
  rw [Json.ValidText, commandFields_eq, syncTokenFields, SerializedCommand.ValidText, ← validFields_paramFields]
  cases cmd.syncToken <;>
    simpa [Json.ValidFields, Json.ValidText, ByteString.validUtf8_bytes] using fun _ _ => and_comm

/-- Reading back a whole command: everything but `isSyncBarrier` and the numbers that are not finite. -/
theorem decodeCommand_reread {cmd : SerializedCommand} (hfinite : ∀ entry ∈ cmd.params.entries, entry.2.ArrayFinite) :
    decodeCommand (Json.object (commandFields cmd)).reread = .ok (decodedCommand cmd) := by
  rw [decodeCommand_reread_params, decodeParams_reread _ _ hfinite]
  rfl

theorem decodeCommand_reread_error {cmd : SerializedCommand}
    (hnot : ¬ ∀ entry ∈ cmd.params.entries, entry.2.ArrayFinite) :
    decodeCommand (Json.object (commandFields cmd)).reread = .error .typeError := by
  rw [decodeCommand_reread_params, decodeParams_reread_error _ _ hnot]
  rfl

/-! ### Responses -/

def returnFields (resp : CommandResponse) : List (ByteString × Json) :=
  match resp.returnValue with
  | some value => [(bytes "return_type", .string (returnTypeName value)), (bytes "return_value", paramJson value)]
  | none => []

theorem responseFields_eq (resp : CommandResponse) :
    responseFields resp =
      (if resp.hasLargeData then [(bytes "buffer_id", Json.string resp.bufferId)] else []) ++
      [(bytes "command_id", Json.string resp.commandId)] ++
      (if resp.hasLargeData then
        [(bytes "data_type", Json.string resp.dataType), (bytes "element_count", Json.unsigned resp.elementCount)] else []) ++
      [(bytes "error_code", Json.integer resp.errorCode.toInt64), (bytes "error_message", Json.string resp.errorMessage),
        (bytes "has_large_data", Json.boolean resp.hasLargeData),
        (bytes "instrument_name", Json.string resp.instrumentName)] ++
      returnFields resp ++
      [(bytes "success", Json.boolean resp.success), (bytes "text_response", Json.string resp.textResponse)] := by
  rw [responseFields, returnFields]
  cases resp.returnValue <;> cases resp.hasLargeData <;> rfl

theorem sorted_responseFields (resp : CommandResponse) : SortedAssoc.Sorted (responseFields resp) := by
  rw [responseFields]
  cases resp.returnValue <;> cases resp.hasLargeData <;>
    repeat' first | exact List.Pairwise.nil | apply SortedAssoc.sorted_insert

theorem ordered_responseFields (resp : CommandResponse) : (Json.object (responseFields resp)).Ordered := by
  refine ⟨sorted_responseFields resp, ?_⟩
  rw [Json.orderedFields_iff, responseFields_eq, returnFields]
  cases resp.returnValue <;> cases resp.hasLargeData <;> simp [Json.Ordered, ordered_paramJson]

theorem validUtf8_returnTypeName (value : ParamValue) : ByteString.ValidUtf8 (returnTypeName value) := by
  cases value <;> exact ByteString.validUtf8_bytes _

theorem validText_responseFields (resp : CommandResponse) :
    (Json.object (responseFields resp)).ValidText ↔ resp.ValidText := by
  rw [Json.ValidText, responseFields_eq, returnFields, CommandResponse.ValidText]
  cases resp.returnValue <;> cases resp.hasLargeData <;>
    simp only [Json.ValidFields, Json.ValidText, ByteString.validUtf8_bytes, validUtf8_returnTypeName,
      validText_paramJson, List.cons_append, List.nil_append, if_true, Bool.false_eq_true, if_false, true_and, and_true,
      Option.some.injEq, forall_eq', forall_const, reduceCtorEq, IsEmpty.forall_iff, implies_true] <;>
    tauto

theorem decodeReturnValue_reread {value : ParamValue} (hfinite : value.Finite) :
    decodeReturnValue (returnTypeName value) (paramJson value).reread = .ok (some value) := by
  cases value with
  | double value =>
      have hread : (paramJson (.double value)).reread = .float value := by
        rw [paramJson, Json.reread]
        exact if_pos hfinite
      rw [hread]
      rfl
  | int64 value =>
      have hread := getInt64_reread_integer value
      simp +decide [decodeReturnValue, returnTypeName, paramJson, hread, bind, Except.bind, pure, Except.pure]
  | string value => rfl
  | boolean value => rfl
  | doubles values =>
      have hread := getDoubles_reread_array values hfinite
      simp +decide [decodeReturnValue, returnTypeName, paramJson, hread, bind, Except.bind, pure, Except.pure]

theorem decodeReturnValue_reread_error {value : ParamValue} (hnot : ¬ value.Finite) :
    decodeReturnValue (returnTypeName value) (paramJson value).reread = .error .typeError := by
  cases value with
  | double value =>
      have hread : (paramJson (.double value)).reread = .null := by
        rw [paramJson, Json.reread]
        exact if_neg hnot
      rw [hread]
      rfl
  | doubles values =>
      have hread := getDoubles_reread_array_error values hnot
      simp +decide [decodeReturnValue, returnTypeName, paramJson, hread, bind, Except.bind]
  | int64 value | string value | boolean value => exact absurd trivial hnot

/-- What a written response is read back as. -/
def decodedResponse (resp : CommandResponse) : CommandResponse :=
  if resp.hasLargeData then resp else { resp with bufferId := [], elementCount := 0, dataType := [] }

theorem decodeResponse_reread {resp : CommandResponse}
    (hfinite : ∀ value, resp.returnValue = some value → value.Finite) :
    decodeResponse (Json.object (responseFields resp)).reread = .ok (decodedResponse resp) := by
  have hread : ∀ value, resp.returnValue = some value →
      decodeReturnValue (returnTypeName value) (paramJson value).reread = .ok (some value) :=
    fun value hvalue => decodeReturnValue_reread (hfinite value hvalue)
  obtain ⟨commandId, instrumentName, success, errorCode, errorMessage, textResponse, returnValue, hasLargeData,
    bufferId, elementCount, dataType⟩ := resp
  simp only [decodeResponse, decodeReturn, decodeLargeData, field_reread, contains_reread, responseFields_eq,
    returnFields, decodedResponse]
  cases returnValue <;> cases hasLargeData <;>
    simp +decide [SortedAssoc.find?, bind, Except.bind, pure, Except.pure, hread]

theorem decodeResponse_reread_error {resp : CommandResponse} {value : ParamValue}
    (hreturn : resp.returnValue = some value) (hnot : ¬ value.Finite) :
    decodeResponse (Json.object (responseFields resp)).reread = .error .typeError := by
  have hread := decodeReturnValue_reread_error hnot
  rw [decodeResponse, decodeReturn]
  simp only [decodeLargeData, field_reread, contains_reread, responseFields_eq, returnFields, hreturn]
  cases hlarge : resp.hasLargeData <;>
    simp +decide [SortedAssoc.find?, bind, Except.bind, hread]

/-! ### Cut texts -/

section Library

variable (N : JsonLibrary)

theorem serializeCommand_ok_iff (cmd : SerializedCommand) :
    (∃ text, serializeCommand N cmd = .ok text) ↔ cmd.ValidText :=
  (N.dump_ok_iff (ordered_commandFields cmd)).trans (validText_commandFields cmd)

/-- The first `size` bytes of an encoded command are accepted exactly when they are all of it and no array parameter was damaged. -/
theorem deserializeCommand_take {cmd : SerializedCommand} {text : ByteString} (size : Nat)
    (htext : serializeCommand N cmd = .ok text) :
    (∃ cmd', deserializeCommand N (text.take size) = .ok cmd') ↔
      text.length ≤ size ∧ ∀ entry ∈ cmd.params.entries, entry.2.ArrayFinite := by
  rcases N.parse_take size (ordered_commandFields cmd) htext with ⟨hle, hparse⟩ | ⟨hlt, e, hparse⟩
  · rw [deserializeCommand, hparse]
    by_cases hfinite : ∀ entry ∈ cmd.params.entries, entry.2.ArrayFinite
    · exact iff_of_true ⟨decodedCommand cmd, decodeCommand_reread hfinite⟩ ⟨hle, hfinite⟩
    · refine iff_of_false (fun ⟨cmd', hcmd'⟩ => ?_) fun h => hfinite h.2
      have herror := (decodeCommand_reread_error hfinite).symm.trans hcmd'
      simp at herror
  · rw [deserializeCommand, hparse]
    exact iff_of_false (fun ⟨cmd', hcmd'⟩ => by simp [bind, Except.bind] at hcmd') fun h => absurd h.1 (not_le.mpr hlt)

theorem deserializeCommand_of_serialize {cmd : SerializedCommand} {text : ByteString}
    (htext : serializeCommand N cmd = .ok text) (hfinite : ∀ entry ∈ cmd.params.entries, entry.2.ArrayFinite) :
    deserializeCommand N text = .ok (decodedCommand cmd) := by
  rw [deserializeCommand, N.parse_of_dump (ordered_commandFields cmd) htext]
  exact decodeCommand_reread hfinite

/-- No command is decoded as the last one for its token. -/
theorem isSyncBarrier_of_deserializeCommand {text : ByteString} {cmd : SerializedCommand}
    (h : deserializeCommand N text = .ok cmd) : cmd.isSyncBarrier = false := by
  simp only [deserializeCommand, decodeCommand, bind, Except.bind, pure, Except.pure] at h
  repeat' split at h
  all_goals first
    | contradiction
    | rw [← Except.ok.inj h]

theorem serializeResponse_ok_iff (resp : CommandResponse) :
    (∃ text, serializeResponse N resp = .ok text) ↔ resp.ValidText :=
  (N.dump_ok_iff (ordered_responseFields resp)).trans (validText_responseFields resp)

/-- The first `size` bytes of an encoded response are accepted exactly when they are all of it and the return value is finite, and then the response comes back. -/
theorem deserializeResponse_take {resp : CommandResponse} {text : ByteString} (size : Nat)
    (htext : serializeResponse N resp = .ok text) :
    ((text.length ≤ size ∧ ∀ value, resp.returnValue = some value → value.Finite) ∧
        deserializeResponse N (text.take size) = .ok (decodedResponse resp)) ∨
      (¬ (text.length ≤ size ∧ ∀ value, resp.returnValue = some value → value.Finite) ∧
        ∃ e, deserializeResponse N (text.take size) = .error e) := by
  rcases N.parse_take size (ordered_responseFields resp) htext with ⟨hle, hparse⟩ | ⟨hlt, e, hparse⟩
  · rw [deserializeResponse, hparse]
    by_cases hfinite : ∀ value, resp.returnValue = some value → value.Finite
    · exact Or.inl ⟨⟨hle, hfinite⟩, decodeResponse_reread hfinite⟩
    · push Not at hfinite
      obtain ⟨value, hreturn, hnot⟩ := hfinite
      exact Or.inr ⟨fun h => hnot (h.2 value hreturn), .typeError, decodeResponse_reread_error hreturn hnot⟩
  · rw [deserializeResponse, hparse]
    exact Or.inr ⟨fun h => absurd h.1 (not_le.mpr hlt), e, rfl⟩

end Library

/-! ### Round trip -/

theorem decodedParam_of_finite {value : ParamValue} (hfinite : value.Finite) : decodedParam value = some value := by
  cases value with
  | double value => exact if_pos hfinite
  | int64 value | string value | boolean value | doubles values => rfl

/-- Finite entries that come after those already read are read back one after the other. -/
theorem entries_decodedParams (entries : List (ByteString × ParamValue)) (params : ParamMap)
    (hsorted : SortedAssoc.Sorted (params.entries ++ entries)) (hfinite : ∀ entry ∈ entries, entry.2.Finite) :
    (decodedParams params entries).entries = params.entries ++ entries := by
  induction entries generalizing params with
  | nil => simp [decodedParams]
  | cons entry entries ih =>
      obtain ⟨key, value⟩ := entry
      have hafter : ∀ entry ∈ params.entries, entry.1 < key := fun entry hmem =>
        (List.pairwise_append.mp hsorted).2.2 entry hmem (key, value) (by simp)
      have hinsert : (params.insert key value).entries = params.entries ++ [(key, value)] :=
        SortedAssoc.insert_append hafter
      have hnext : (params.insert key value).entries ++ entries = params.entries ++ (key, value) :: entries := by
        rw [hinsert, List.append_assoc, List.singleton_append]
      rw [decodedParams, decodedParam_of_finite (hfinite (key, value) (by simp))]
      show (decodedParams (params.insert key value) entries).entries = params.entries ++ (key, value) :: entries
      rw [ih (params.insert key value) (hnext ▸ hsorted) fun entry hmem => hfinite entry (by simp [hmem]), hnext]

theorem decodedParams_of_finite {params : ParamMap} (hfinite : ∀ entry ∈ params.entries, entry.2.Finite) :
    decodedParams .empty params.entries = params := by
  have hentries := entries_decodedParams params.entries .empty params.sorted hfinite
  obtain ⟨entries, hsorted⟩ := params
  rw [← ParamMap.mk.injEq _ (decodedParams ParamMap.empty entries).sorted] at hentries
  exact hentries

section RoundTrip

variable (N : JsonLibrary)

/-- A command of valid texts and finite numbers comes back with every field but `isSyncBarrier`. -/
theorem deserializeCommand_serializeCommand {cmd : SerializedCommand} (hvalid : cmd.ValidText)
    (hfinite : ∀ entry ∈ cmd.params.entries, entry.2.Finite)
    (htoken : ∀ token, cmd.syncToken = some token → token < 2 ^ 64) :
    ∃ text, serializeCommand N cmd = .ok text ∧
      deserializeCommand N text = .ok { cmd with isSyncBarrier := false } := by
  obtain ⟨text, htext⟩ := (serializeCommand_ok_iff N cmd).mpr hvalid
  have hsame : cmd.syncToken.map (· % 2 ^ 64) = cmd.syncToken := by
    cases hsync : cmd.syncToken with
    | none => rfl
    | some token => exact congrArg some (Nat.mod_eq_of_lt (htoken token hsync))
  have hdecoded : decodedCommand cmd = { cmd with isSyncBarrier := false } := by
    rw [decodedCommand, decodedParams_of_finite hfinite, hsame]
  refine ⟨text, htext, ?_⟩
  rw [deserializeCommand_of_serialize N htext fun entry hmem => (hfinite entry hmem).arrayFinite, hdecoded]

/-- The fields that describe a data buffer have their defaults unless the response announces one. -/
def LargeDataAnnounced (resp : CommandResponse) : Prop :=
  resp.hasLargeData = false → resp.bufferId = [] ∧ resp.elementCount = 0 ∧ resp.dataType = []

theorem decodedResponse_of_announced {resp : CommandResponse} (hlarge : LargeDataAnnounced resp) :
    decodedResponse resp = resp := by
  cases hdata : resp.hasLargeData with
  | true => exact if_pos hdata
  | false =>
      obtain ⟨hbuffer, hcount, htype⟩ := hlarge hdata
      rw [decodedResponse, hdata, if_neg Bool.false_ne_true]
      cases resp
      simp_all only

/-- A response of valid texts and finite numbers, with a data buffer described only where one is announced, comes back in every field. -/
theorem deserializeResponse_serializeResponse {resp : CommandResponse} (hvalid : resp.ValidText)
    (hfinite : ∀ value, resp.returnValue = some value → value.Finite) (hlarge : LargeDataAnnounced resp) :
    ∃ text, serializeResponse N resp = .ok text ∧ deserializeResponse N text = .ok resp := by
  obtain ⟨text, htext⟩ := (serializeResponse_ok_iff N resp).mpr hvalid
  have hdecode : deserializeResponse N text = .ok (decodedResponse resp) := by
    rw [deserializeResponse, N.parse_of_dump (ordered_responseFields resp) htext]
    exact decodeResponse_reread hfinite
  refine ⟨text, htext, ?_⟩
  rw [hdecode, decodedResponse_of_announced hlarge]

end RoundTrip

/-- One parameter of each kind: an integral double, the least `int64_t`, a text with a two-byte character, a flag and the empty array. -/
def everyKind : ParamMap where
  entries := [(bytes "average", .boolean true), (bytes "label", .string (bytes "µV")), (bytes "level", .double Double.one),
    (bytes "offset", .int64 Int64.minValue), (bytes "waveform", .doubles [])]
  sorted := by decide

def everyKindCommand : SerializedCommand :=
  { id := bytes "dac-1", instrumentName := bytes "dac", verb := bytes "SET", params := everyKind, expectsResponse := true
    syncToken := some (2 ^ 64 - 1), isSyncBarrier := true }

theorem everyKindCommand_serializeCommand :
    ∃ text, serializeCommand JsonLibrary.compact everyKindCommand = .ok text ∧
      deserializeCommand JsonLibrary.compact text = .ok { everyKindCommand with isSyncBarrier := false } := by
  apply deserializeCommand_serializeCommand
  · refine ⟨ByteString.validUtf8_bytes _, ByteString.validUtf8_bytes _, ByteString.validUtf8_bytes _, fun entry hmem => ?_⟩
    simp only [everyKindCommand, everyKind, List.mem_cons, List.not_mem_nil, or_false] at hmem
    rcases hmem with rfl | rfl | rfl | rfl | rfl <;>
      exact ⟨ByteString.validUtf8_bytes _, by trivial⟩
  · intro entry hmem
    simp only [everyKindCommand, everyKind, List.mem_cons, List.not_mem_nil, or_false] at hmem
    rcases hmem with rfl | rfl | rfl | rfl | rfl <;> simp +decide [ParamValue.Finite]
  · intro token htoken
    obtain rfl : 2 ^ 64 - 1 = token := Option.some.inj htoken
    decide

/-- A response with a value and a buffer of the greatest `size_t` number of elements. -/
def largeDataResponse : CommandResponse :=
  { commandId := bytes "scope-1", instrumentName := bytes "scope", success := true, errorCode := -1
    textResponse := bytes "µV", returnValue := some (.doubles [Double.one]), hasLargeData := true
    bufferId := bytes "buffer_1_0", elementCount := 0 - 1, dataType := bytes "float32" }

theorem largeDataResponse_serializeResponse :
    ∃ text, serializeResponse JsonLibrary.compact largeDataResponse = .ok text ∧
      deserializeResponse JsonLibrary.compact text = .ok largeDataResponse := by
  apply deserializeResponse_serializeResponse
  · refine ⟨ByteString.validUtf8_bytes _, ByteString.validUtf8_bytes _, ByteString.validUtf8_bytes "", ByteString.validUtf8_bytes _,
      fun value hvalue => ?_, fun _ => ⟨ByteString.validUtf8_bytes _, ByteString.validUtf8_bytes _⟩⟩
    obtain rfl : ParamValue.doubles [Double.one] = value := Option.some.inj hvalue
    trivial
  · intro value hvalue
    obtain rfl : ParamValue.doubles [Double.one] = value := Option.some.inj hvalue
    simp +decide [ParamValue.Finite]
  · intro hdata
    exact absurd hdata (by decide)

end Ipc

end InstrumentServer
