import InstrumentServer.Worker.PluginInterface

/-!
# What a worker hands to its plugin

The C records of the plugin interface on the way in: the configuration for `plugin_initialize` and the command for `plugin_execute_command`. Their strings are cut to the size of their arrays, and there is room for sixteen parameters.
-/

namespace InstrumentServer

structure PluginConfig where
  instrumentName : CharArray pluginMaxStringLen
  connectionJson : CharArray pluginMaxPayload
  apiDefinitionJson : CharArray pluginMaxPayload

structure PluginParam where
  name : CharArray pluginMaxStringLen
  value : PluginParamValue

def pluginMaxParams : Nat := 16

/-- The timeout is never set and is left out. -/
structure PluginCommand where
  id : CharArray pluginMaxStringLen
  instrumentName : CharArray pluginMaxStringLen
  verb : CharArray pluginMaxStringLen
  params : List PluginParam
  paramCount : params.length ≤ pluginMaxParams
  expectsResponse : Bool

/-- An array of doubles has no branch and leaves the zeroed value. -/
def ParamValue.toPluginParamValue : ParamValue → PluginParamValue
  | .double value => .double value
  | .int64 value => .int64 value
  | .string value => .string (.copy _ pluginMaxStringLen_pos value)
  | .boolean value => .bool value
  | .doubles _ => .none

/-- The parameters come in the order of the map. -/
def toPluginCommand (cmd : SerializedCommand) : PluginCommand where
  id := .copy _ pluginMaxStringLen_pos cmd.id
  instrumentName := .copy _ pluginMaxStringLen_pos cmd.instrumentName
  verb := .copy _ pluginMaxStringLen_pos cmd.verb
  params := (cmd.params.entries.take pluginMaxParams).map fun entry =>
    ⟨.copy _ pluginMaxStringLen_pos entry.1, entry.2.toPluginParamValue⟩
  paramCount := by
    rw [List.length_map]
    exact List.length_take_le _ _
  expectsResponse := cmd.expectsResponse

end InstrumentServer
