import InstrumentServer.Worker.Instrument
import InstrumentServer.Worker.PluginCommand

/-!
# Which parameters reach a plugin

A command crosses the process boundary as JSON, and `to_plugin_command` then copies its parameters into a record with sixteen places. The map it walks has no order of its own, so which sixteen of more parameters it takes is open. Names and strings are cut to the size of their arrays.

Of the values, an array has no branch in `to_plugin_command`, and a number that is not finite becomes null on the way; nothing is said here about commands that have such a parameter.
-/

namespace InstrumentServer

open Ipc

/-! ### The record -/

/-- What an array of the interface keeps of a text: the bytes before the first NUL, as far as they fit. -/
def cut (text : ByteString) : ByteString := (text.takeWhile (· ≠ 0)).take (pluginMaxStringLen - 1)

/-- The text fits an array as it is. -/
def FitsArray (text : ByteString) : Prop := text.length < pluginMaxStringLen ∧ 0 ∉ text

instance (text : ByteString) : Decidable (FitsArray text) := inferInstanceAs (Decidable (_ ∧ _))

def ParamValue.FitsArray : ParamValue → Prop
  | .string value => InstrumentServer.FitsArray value
  | _ => True

/-- A finite number, an integer, a string or a boolean. -/
def ParamValue.Plain : ParamValue → Prop
  | .double value => value.isFinite = true
  | .doubles _ => False
  | _ => True

/-- `to_plugin_command` when the map is walked in the order of `entries`. -/
def toPluginCommandIn (cmd : SerializedCommand) (entries : List (ByteString × ParamValue)) : PluginCommand :=
  { toPluginCommand cmd with
    params := (entries.take pluginMaxParams).map fun entry =>
      ⟨.copy _ pluginMaxStringLen_pos entry.1, entry.2.toPluginParamValue⟩
    paramCount := by
      rw [List.length_map]
      exact List.length_take_le _ _ }

theorem toPluginCommandIn_entries (cmd : SerializedCommand) : toPluginCommandIn cmd cmd.params.entries = toPluginCommand cmd :=
  rfl

/-- The value has the tag of its alternative, and of a string what fits. -/
def PluginParamValue.IsCutOf (value : PluginParamValue) : ParamValue → Prop
  | .double d => value = .double d
  | .int64 i => value = .int64 i
  | .string s => ∃ array, value = .string array ∧ array.text = cut s
  | .boolean b => value = .bool b
  | .doubles _ => False

def PluginParam.IsCutOf (param : PluginParam) (entry : ByteString × ParamValue) : Prop :=
  param.name.text = cut entry.1 ∧ param.value.IsCutOf entry.2

/-- The plugin gets the parameter with its name, its type and its value. -/
def PluginCommand.HasParam (pcmd : PluginCommand) (entry : ByteString × ParamValue) : Prop :=
  ∃ param ∈ pcmd.params, param.name.text = entry.1 ∧ param.value.toParamValue = some entry.2

/-- What becomes of the parameters of a command: as many as there is room for arrive, each made from another parameter, and those that fit arrive unchanged if there are no more than sixteen. -/
structure CarriesParams (cmd : SerializedCommand) (pcmd : PluginCommand) : Prop where
  count : pcmd.params.length = min pluginMaxParams cmd.params.entries.length
  made : ∃ kept : List (ByteString × ParamValue), kept.Nodup ∧ kept ⊆ cmd.params.entries ∧
    List.Forall₂ PluginParam.IsCutOf pcmd.params kept
  intact : cmd.params.entries.length ≤ pluginMaxParams → ∀ entry ∈ cmd.params.entries, FitsArray entry.1 →
    entry.2.FitsArray → pcmd.HasParam entry

/-! ### What is kept -/

theorem cut_of_fitsArray {text : ByteString} (hfits : FitsArray text) : cut text = text := by
  have hall : text.takeWhile (· ≠ 0) = text := Lists.takeWhile_ne_self hfits.2
  have hle : text.length ≤ pluginMaxStringLen - 1 := Nat.le_sub_one_of_lt hfits.1
  rw [cut, hall, List.take_of_length_le hle]

theorem ParamValue.Plain.finite {value : ParamValue} (h : value.Plain) : value.Finite := by
  cases value with
  | double d => exact h
  | doubles values => contradiction
  | int64 i | string s | boolean b => trivial

theorem isCutOf_toPluginParamValue {value : ParamValue} (h : value.Plain) : value.toPluginParamValue.IsCutOf value := by
  cases value with
  | double d | int64 i | boolean b => rfl
  | string s => exact ⟨_, rfl, rfl⟩
  | doubles values => contradiction

theorem toParamValue_toPluginParamValue {value : ParamValue} (h : value.Plain) (hfits : value.FitsArray) :
    value.toPluginParamValue.toParamValue = some value := by
  cases value with
  | double d | int64 i | boolean b => rfl
  | string s => exact congrArg (fun text => some (ParamValue.string text)) (cut_of_fitsArray hfits)
  | doubles values => contradiction

theorem nodup_entries (params : ParamMap) : params.entries.Nodup :=
  params.sorted.imp fun hlt heq => absurd (heq ▸ hlt) (lt_irrefl _)

/-- Whatever the order of the map is, the record carries its parameters. -/
theorem carriesParams_toPluginCommandIn {cmd : SerializedCommand} (hplain : ∀ entry ∈ cmd.params.entries, entry.2.Plain)
    (cmd' : SerializedCommand) {entries : List (ByteString × ParamValue)} (horder : entries.Perm cmd.params.entries) :
    CarriesParams cmd (toPluginCommandIn cmd' entries) := by
  have hsubset : entries.take pluginMaxParams ⊆ cmd.params.entries :=
    fun entry hentry => horder.mem_iff.mp (List.mem_of_mem_take hentry)
  refine ⟨?_, ⟨entries.take pluginMaxParams, ?_, hsubset, ?_⟩, fun hroom entry hentry hname hvalue => ?_⟩
  · rw [toPluginCommandIn, List.length_map, List.length_take, horder.length_eq]
  · exact (horder.nodup_iff.mpr (nodup_entries cmd.params)).sublist (List.take_sublist _ _)
  · rw [toPluginCommandIn, List.forall₂_map_left_iff]
    refine List.forall₂_same.mpr fun entry hentry => ?_
    exact ⟨rfl, isCutOf_toPluginParamValue (hplain entry (hsubset hentry))⟩
  · have hall : entries.take pluginMaxParams = entries := List.take_of_length_le (horder.length_eq ▸ hroom)
    refine ⟨⟨.copy _ pluginMaxStringLen_pos entry.1, entry.2.toPluginParamValue⟩, ?_, cut_of_fitsArray hname,
      toParamValue_toPluginParamValue (hplain entry hentry) hvalue⟩
    show _ ∈ (entries.take pluginMaxParams).map _
    rw [hall]
    exact List.mem_map.mpr ⟨entry, horder.mem_iff.mpr hentry, rfl⟩

/-- A command with plain parameters whose text fits a frame is decoded, and its parameters reach the plugin as far as there is room for them. -/
theorem plugin_gets_parameters (N : JsonLibrary) {cmd : SerializedCommand} {text : ByteString}
    (htext : serializeCommand N cmd = .ok text) (hfits : text.length ≤ maxPayload)
    (hplain : ∀ entry ∈ cmd.params.entries, entry.2.Plain) (id : Nat) (syncToken : SyncToken) :
    ∃ cmd', Instrument.deserializeCommandFromMsg N (.frame .command id syncToken text) = .ok cmd' ∧
      ∀ entries, entries.Perm cmd'.params.entries → CarriesParams cmd (toPluginCommandIn cmd' entries) := by
  have hfinite : ∀ entry ∈ cmd.params.entries, entry.2.Finite := fun entry hentry => (hplain entry hentry).finite
  refine ⟨decodedCommand cmd, ?_, fun entries horder => ?_⟩
  · show deserializeCommand N (text.take maxPayload) = _
    rw [List.take_of_length_le hfits]
    exact deserializeCommand_of_serialize N htext fun entry hentry => (hfinite entry hentry).arrayFinite
  · rw [decodedCommand, decodedParams_of_finite hfinite] at horder
    exact carriesParams_toPluginCommandIn hplain _ horder

/-- A voltage and a ramp rate. -/
def rampCommand : SerializedCommand where
  instrumentName := bytes "DAC"
  verb := bytes "RAMP"
  params := (ParamMap.empty.insert (bytes "voltage") (.double .one)).insert (bytes "unit") (.string (bytes "V/s"))

theorem plugin_gets_parameters_rampCommand :
    ∃ text, serializeCommand .compact rampCommand = .ok text ∧
      ∃ cmd', Instrument.deserializeCommandFromMsg .compact (.frame .command 1 0 text) = .ok cmd' ∧
        ∀ entries, entries.Perm cmd'.params.entries → CarriesParams rampCommand (toPluginCommandIn cmd' entries) := by
  have hlength : (serializeCommand .compact rampCommand).toOption.map List.length = some 128 := by decide +kernel
  obtain ⟨text, htext, hlength⟩ := Except.map_toOption_eq_some_iff.mp hlength
  refine ⟨text, htext, plugin_gets_parameters .compact htext (by rw [hlength]; decide) ?_ 1 0⟩
  have hentries : rampCommand.params.entries = [(bytes "unit", .string (bytes "V/s")), (bytes "voltage", .double .one)] := by
    decide +kernel
  intro entry hentry
  rw [hentries] at hentry
  rcases List.mem_pair.mp hentry with rfl | rfl
  · trivial
  · exact (by decide : Double.one.isFinite = true)

/-- One parameter more than there is room for. -/
def seventeenCommand : SerializedCommand where
  instrumentName := bytes "DAC"
  verb := bytes "SET_ALL"
  params := ⟨(List.range 17).map fun i => ([UInt8.ofNat (97 + i)], .int64 (Int64.ofNat i)), by decide +kernel⟩

/-- The command is decoded and the caller gets whatever the plugin replies, but in every order of the map a parameter is missing. -/
theorem parameter_missing_seventeenCommand :
    ∃ text cmd', serializeCommand .compact seventeenCommand = .ok text ∧ text.length ≤ maxPayload ∧
      Instrument.deserializeCommandFromMsg .compact (.frame .command 1 0 text) = .ok cmd' ∧
      (∀ plugin, Instrument.commandOutcome cmd' plugin = plugin) ∧
      ∀ entries, entries.Perm cmd'.params.entries →
        ¬ ∀ entry ∈ seventeenCommand.params.entries, (toPluginCommandIn cmd' entries).HasParam entry := by
  have hlength : (serializeCommand .compact seventeenCommand).toOption.map List.length = some 213 := by decide +kernel
  obtain ⟨text, htext, hlength⟩ := Except.map_toOption_eq_some_iff.mp hlength
  have hfits : text.length ≤ maxPayload := by
    rw [hlength]
    decide
  have hfinite : ∀ entry ∈ seventeenCommand.params.entries, entry.2.ArrayFinite := by
    intro entry hentry
    obtain ⟨i, -, rfl⟩ := List.mem_map.mp hentry
    trivial
  refine ⟨text, decodedCommand seventeenCommand, htext, hfits, ?_, fun plugin => ?_, fun entries _ hall => ?_⟩
  · show deserializeCommand .compact (text.take maxPayload) = _
    rw [List.take_of_length_le hfits]
    exact deserializeCommand_of_serialize .compact htext hfinite
  · rw [Instrument.commandOutcome, if_neg (by decide)]
  · have hnames : (seventeenCommand.params.entries.map Prod.fst).Nodup := by decide +kernel
    have hsubset : seventeenCommand.params.entries.map Prod.fst ⊆
        (toPluginCommandIn (decodedCommand seventeenCommand) entries).params.map fun param => param.name.text := by
      intro name hname
      obtain ⟨entry, hentry, rfl⟩ := List.mem_map.mp hname
      obtain ⟨param, hparam, hname, -⟩ := hall entry hentry
      exact List.mem_map.mpr ⟨param, hparam, hname⟩
    have hle := (List.subperm_of_subset hnames hsubset).length_le
    have hroom := (toPluginCommandIn (decodedCommand seventeenCommand) entries).paramCount
    have hcount : (seventeenCommand.params.entries.map Prod.fst).length = 17 := by decide +kernel
    rw [hcount, List.length_map] at hle
    exact absurd (hle.trans hroom) (by decide)

end InstrumentServer
