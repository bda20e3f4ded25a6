import InstrumentServer.Ipc.Codec
import Mathlib.Data.List.TakeWhile

/-!
# The plugin interface

What a plugin hands back to the worker: a C record whose strings are NUL-terminated arrays of fixed size. Of its fields, the binary reply is not read by the worker and is left out. `fromPluginResponse` copies the rest into a `CommandResponse`.
-/

namespace InstrumentServer

/-- A NUL-terminated string in an array of `size` bytes. -/
structure CharArray (size : Nat) where
  text : ByteString
  terminated : text.length < size
  noNul : 0 ∉ text
deriving DecidableEq

def pluginMaxStringLen : Nat := 128

def pluginMaxPayload : Nat := 4096

theorem pluginMaxStringLen_pos : 0 < pluginMaxStringLen := Nat.succ_pos _

theorem pluginMaxPayload_pos : 0 < pluginMaxPayload := Nat.succ_pos _

/-- `strncpy(array, text, size - 1)` into a zeroed array: what comes before the first NUL, as far as it fits. -/
def CharArray.copy (size : Nat) (hsize : 0 < size) (text : ByteString) : CharArray size where
  text := (text.takeWhile (· ≠ 0)).take (size - 1)
  terminated := by
    have hle := List.length_take_le (size - 1) (text.takeWhile (· ≠ 0))
    omega
  noNul hmem := by
    have hne := List.mem_takeWhile_imp (List.mem_of_mem_take hmem)
    simp at hne

/-- The type tag of a value together with the member of the union it selects. -/
inductive PluginParamValue where
  | none
  | int32 (value : Int32)
  | int64 (value : Int64)
  | uint32 (value : UInt32)
  | uint64 (value : UInt64)
  | float (bits : UInt32)
  | double (value : Double)
  | bool (value : Bool)
  | string (value : CharArray pluginMaxStringLen)
  | binary (data : ByteString)
  | arrayDouble (data : List Double)
  | arrayInt32 (data : List Int32)
deriving DecidableEq

structure PluginResponse where
  commandId : CharArray pluginMaxStringLen
  instrumentName : CharArray pluginMaxStringLen
  success : Bool
  returnValue : PluginParamValue
  textResponse : CharArray pluginMaxPayload
  errorCode : Int32
  errorMessage : CharArray pluginMaxStringLen
  hasLargeData : Bool
  dataBufferId : CharArray pluginMaxStringLen
  dataElementCount : UInt64
  dataType : UInt8
deriving DecidableEq

namespace PluginResponse

/-- The zeroed record the worker passes to the plugin. -/
def zero : PluginResponse where
  commandId := .copy _ pluginMaxStringLen_pos []
  instrumentName := .copy _ pluginMaxStringLen_pos []
  success := false
  returnValue := .none
  textResponse := .copy _ pluginMaxPayload_pos []
  errorCode := 0
  errorMessage := .copy _ pluginMaxStringLen_pos []
  hasLargeData := false
  dataBufferId := .copy _ pluginMaxStringLen_pos []
  dataElementCount := 0
  dataType := 0

end PluginResponse

/-- Only four of the type tags are converted; the others leave the return value out. -/
def PluginParamValue.toParamValue : PluginParamValue → Option ParamValue
  | .double value => some (.double value)
  | .int64 value => some (.int64 value)
  | .string value => some (.string value.text)
  | .bool value => some (.boolean value)
  | _ => Option.none

def dataTypeName (dataType : UInt8) : ByteString :=
  if dataType = 0 then bytes "float32"
  else if dataType = 1 then bytes "float64"
  else if dataType = 2 then bytes "int32"
  else if dataType = 3 then bytes "int64"
  else bytes "unknown"

def fromPluginResponse (presp : PluginResponse) : CommandResponse where
  commandId := presp.commandId.text
  instrumentName := presp.instrumentName.text
  success := presp.success
  errorCode := presp.errorCode
  errorMessage := presp.errorMessage.text
  textResponse := presp.textResponse.text
  returnValue := if presp.success then presp.returnValue.toParamValue else none
  hasLargeData := presp.hasLargeData
  bufferId := if presp.hasLargeData then presp.dataBufferId.text else []
  elementCount := if presp.hasLargeData then presp.dataElementCount else 0
  dataType := if presp.hasLargeData then dataTypeName presp.dataType else []

/-! ### Texts of a reply -/

/-- The strings that reach the encoder are valid UTF-8. -/
def PluginResponse.ValidText (presp : PluginResponse) : Prop :=
  ByteString.ValidUtf8 presp.commandId.text ∧ ByteString.ValidUtf8 presp.instrumentName.text ∧
    ByteString.ValidUtf8 presp.errorMessage.text ∧ ByteString.ValidUtf8 presp.textResponse.text ∧
    (presp.success = true → ∀ s, presp.returnValue = .string s → ByteString.ValidUtf8 s.text) ∧
    (presp.hasLargeData = true → ByteString.ValidUtf8 presp.dataBufferId.text)

theorem validUtf8_dataTypeName (dataType : UInt8) : ByteString.ValidUtf8 (dataTypeName dataType) := by
  rw [dataTypeName]
  repeat' split
  all_goals exact ByteString.validUtf8_bytes _

theorem validText_fromPluginResponse (presp : PluginResponse) :
    (fromPluginResponse presp).ValidText ↔ presp.ValidText := by
  have hreturn : (∀ value, (fromPluginResponse presp).returnValue = some value → value.ValidText) ↔
      (presp.success = true → ∀ s, presp.returnValue = .string s → ByteString.ValidUtf8 s.text) := by
    rw [fromPluginResponse]
    cases presp.success <;> cases presp.returnValue <;>
      simp [PluginParamValue.toParamValue, ParamValue.ValidText]
  have hlarge : ((fromPluginResponse presp).hasLargeData = true →
      ByteString.ValidUtf8 (fromPluginResponse presp).bufferId ∧
        ByteString.ValidUtf8 (fromPluginResponse presp).dataType) ↔
      (presp.hasLargeData = true → ByteString.ValidUtf8 presp.dataBufferId.text) := by
    rw [fromPluginResponse]
    cases presp.hasLargeData <;> simp [validUtf8_dataTypeName]
  rw [CommandResponse.ValidText, hreturn, hlarge]
  rfl

end InstrumentServer
