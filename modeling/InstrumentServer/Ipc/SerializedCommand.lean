import InstrumentServer.Lib.Json.Library

/-!
# Commands and responses on the wire

The two records that cross the process boundary and their JSON encodings. The time a command was created does not cross it and is not modelled. Parameters are a map; its entries are kept in key order, which is the order they have in the JSON object.

The encoder of commands has no field for `isSyncBarrier`, so a decoded command always has the default there.
-/

namespace InstrumentServer

abbrev SyncToken : Type := Nat

/-- `std::variant<double, int64_t, std::string, bool, std::vector<double>>` -/
inductive ParamValue where
  | double (value : Double)
  | int64 (value : Int64)
  | string (value : ByteString)
  | boolean (value : Bool)
  | doubles (values : List Double)
deriving DecidableEq

/-- The parameters of a command, by name. -/
structure ParamMap where
  entries : List (ByteString × ParamValue)
  sorted : SortedAssoc.Sorted entries
deriving DecidableEq

namespace ParamMap

def empty : ParamMap := ⟨[], List.Pairwise.nil⟩

def find? (params : ParamMap) (key : ByteString) : Option ParamValue := SortedAssoc.find? key params.entries

def insert (params : ParamMap) (key : ByteString) (value : ParamValue) : ParamMap :=
  ⟨SortedAssoc.insert key value params.entries, SortedAssoc.sorted_insert params.sorted key value⟩

end ParamMap

structure SerializedCommand where
  id : ByteString := []
  instrumentName : ByteString
  verb : ByteString
  params : ParamMap
  expectsResponse : Bool := false
  timeout : Int64 := 5000
  syncToken : Option SyncToken := none
  isSyncBarrier : Bool := false
deriving DecidableEq

/-- The verb of the synthetic command for an instrument that a block does not use. -/
def barrierNop : ByteString := bytes "__BARRIER_NOP__"

structure CommandResponse where
  commandId : ByteString := []
  instrumentName : ByteString := []
  success : Bool := false
  errorCode : Int32 := 0
  errorMessage : ByteString := []
  textResponse : ByteString := []
  returnValue : Option ParamValue := none
  hasLargeData : Bool := false
  bufferId : ByteString := []
  elementCount : UInt64 := 0
  dataType : ByteString := []
deriving DecidableEq

namespace Ipc

open Json (set)

/-! ### Commands -/

def paramJson : ParamValue → Json
  | .double value => .float value
  | .int64 value => .integer value
  | .string value => .string value
  | .boolean value => .boolean value
  | .doubles values => .array (values.map .float)

def paramFields (params : ParamMap) : List (ByteString × Json) :=
  params.entries.foldl (fun fields entry => set fields entry.1 (paramJson entry.2)) []

/-- The fields of the object `serialize_command` dumps. -/
def commandFields (cmd : SerializedCommand) : List (ByteString × Json) :=
  let fields := set [] (bytes "id") (.string cmd.id)
  let fields := set fields (bytes "instrument_name") (.string cmd.instrumentName)
  let fields := set fields (bytes "verb") (.string cmd.verb)
  let fields := set fields (bytes "expects_response") (.boolean cmd.expectsResponse)
  let fields := set fields (bytes "timeout_ms") (.integer cmd.timeout)
  let fields := match cmd.syncToken with
    | some token => set fields (bytes "sync_token") (.unsigned (UInt64.ofNat token))
    | none => fields
  set fields (bytes "params") (.object (paramFields cmd.params))

def serializeCommand (N : JsonLibrary) (cmd : SerializedCommand) : Except JsonError ByteString :=
  N.dump (.object (commandFields cmd))

/-- The parameter a decoded value becomes; a value of no listed kind is skipped. -/
def decodeParam : Json → Except JsonError (Option ParamValue)
  | .float value => .ok (some (.double value))
  | .integer value => .ok (some (.int64 value))
  | .unsigned value => .ok (some (.int64 value.toInt64))
  | .string value => .ok (some (.string value))
  | .boolean value => .ok (some (.boolean value))
  | .array items => do return some (.doubles (← (Json.array items).getDoubles))
  | _ => .ok none

def decodeParams (params : ParamMap) : List (ByteString × Json) → Except JsonError ParamMap
  | [] => .ok params
  | (key, value) :: fields => do
      match ← decodeParam value with
      | some param => decodeParams (params.insert key param) fields
      | none => decodeParams params fields

def decodeSyncToken (j : Json) : Except JsonError (Option SyncToken) :=
  if j.contains (bytes "sync_token") then do return some (← (← j.field (bytes "sync_token")).getUInt64).toNat
  else .ok none

/-- The parameter object; anything else under its name is ignored. -/
def decodeParamsField (j : Json) : Except JsonError ParamMap :=
  if j.contains (bytes "params") then do
    match ← j.field (bytes "params") with
    | .object fields => decodeParams .empty fields
    | _ => return .empty
  else .ok .empty

def decodeCommand (j : Json) : Except JsonError SerializedCommand := do
  let id ← (← j.field (bytes "id")).getString
  let instrumentName ← (← j.field (bytes "instrument_name")).getString
  let verb ← (← j.field (bytes "verb")).getString
  let expectsResponse ← (← j.field (bytes "expects_response")).getBool
  let timeout ← (← j.field (bytes "timeout_ms")).getInt64
  let syncToken ← decodeSyncToken j
  let params ← decodeParamsField j
  return { id, instrumentName, verb, params, expectsResponse, timeout, syncToken }

def deserializeCommand (N : JsonLibrary) (text : ByteString) : Except JsonError SerializedCommand := do
  decodeCommand (← N.parse text)

/-! ### Responses -/

/-- The name `return_type` carries for a value. -/
def returnTypeName : ParamValue → ByteString
  | .double _ => bytes "double"
  | .int64 _ => bytes "int64"
  | .string _ => bytes "string"
  | .boolean _ => bytes "bool"
  | .doubles _ => bytes "array"

/-- The fields of the object `serialize_response` dumps. -/
def responseFields (resp : CommandResponse) : List (ByteString × Json) :=
  let fields := set [] (bytes "command_id") (.string resp.commandId)
  let fields := set fields (bytes "instrument_name") (.string resp.instrumentName)
  let fields := set fields (bytes "success") (.boolean resp.success)
  let fields := set fields (bytes "error_code") (.integer resp.errorCode.toInt64)
  let fields := set fields (bytes "error_message") (.string resp.errorMessage)
  let fields := set fields (bytes "text_response") (.string resp.textResponse)
  let fields := match resp.returnValue with
    | some value =>
        set (set fields (bytes "return_value") (paramJson value)) (bytes "return_type") (.string (returnTypeName value))
    | none => fields
  let fields := set fields (bytes "has_large_data") (.boolean resp.hasLargeData)
  if resp.hasLargeData then
    let fields := set fields (bytes "buffer_id") (.string resp.bufferId)
    let fields := set fields (bytes "element_count") (.unsigned resp.elementCount)
    set fields (bytes "data_type") (.string resp.dataType)
  else fields

def serializeResponse (N : JsonLibrary) (resp : CommandResponse) : Except JsonError ByteString :=
  N.dump (.object (responseFields resp))

/-- `j["return_value"]` read at the type named by `return_type`; an unknown name leaves the value out. -/
def decodeReturnValue (typeName : ByteString) (value : Json) : Except JsonError (Option ParamValue) :=
  if typeName = bytes "double" then do return some (.double (← value.getDouble))
  else if typeName = bytes "int64" then do return some (.int64 (← value.getInt64))
  else if typeName = bytes "string" then do return some (.string (← value.getString))
  else if typeName = bytes "bool" then do return some (.boolean (← value.getBool))
  else if typeName = bytes "array" then do return some (.doubles (← value.getDoubles))
  else .ok none

def decodeReturn (j : Json) : Except JsonError (Option ParamValue) :=
  if j.contains (bytes "return_value") && j.contains (bytes "return_type") then do
    decodeReturnValue (← (← j.field (bytes "return_type")).getString) (← j.field (bytes "return_value"))
  else .ok none

/-- The large data fields, read only when `has_large_data` is set. -/
def decodeLargeData (j : Json) (resp : CommandResponse) : Except JsonError CommandResponse :=
  if j.contains (bytes "has_large_data") then do
    if ← (← j.field (bytes "has_large_data")).getBool then
      let bufferId ← (← j.field (bytes "buffer_id")).getString
      let elementCount ← (← j.field (bytes "element_count")).getUInt64
      let dataType ← (← j.field (bytes "data_type")).getString
      return { resp with hasLargeData := true, bufferId, elementCount, dataType }
    else return resp
  else .ok resp

def decodeResponse (j : Json) : Except JsonError CommandResponse := do
  let commandId ← (← j.field (bytes "command_id")).getString
  let instrumentName ← (← j.field (bytes "instrument_name")).getString
  let success ← (← j.field (bytes "success")).getBool
  let errorCode ← (← j.field (bytes "error_code")).getInt32
  let errorMessage ← (← j.field (bytes "error_message")).getString
  let textResponse ← (← j.field (bytes "text_response")).getString
  let returnValue ← decodeReturn j
  decodeLargeData j { commandId, instrumentName, success, errorCode, errorMessage, textResponse, returnValue }

def deserializeResponse (N : JsonLibrary) (text : ByteString) : Except JsonError CommandResponse := do
  decodeResponse (← N.parse text)

end Ipc

end InstrumentServer
