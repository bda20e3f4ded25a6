import InstrumentServer.Server.ResponseType
import InstrumentServer.Server.ResultOrder
import InstrumentServer.Server.ScriptArguments
import InstrumentServer.Worker.PlaceholderNames
import InstrumentServer.Worker.PluginParameters

/-!
# The placeholder of a channel group

The template of a command with a channel group must have a placeholder named like the group, and a call that addresses a channel is to fill it with the number of the channel. The context passes the number as a parameter named `channel`, whatever the group is called.

`ChannelCall` is a call `I:n.V` of such a command in an accepted API, with all declared parameters. Its command goes to the worker as JSON, where numbers that are not finite get lost, and from there to the plugin. `channel_filled_iff` says when the template is filled.
-/

namespace InstrumentServer

open ByteString Ipc YamlNode VisaPlugin

/-! ### The accepted command -/

/-- The names of the parameters of a command, as the validator reads them. -/
def declaredParameters (cmd : YamlNode) : Except YamlError (List ByteString) := do
  let parameters ← cmd.get (bytes "parameters")
  let names ← ((items parameters).filterMap id).mapM parameterName
  return names.filterMap id

/-- The template of an accepted command uses the declared parameters and the channel group, and the channel group must occur. -/
theorem placeholders_of_accepts {commands : List (YamlNode × YamlNode)} {cmdName template group : ByteString}
    {cmd : YamlNode} (haccepts : (validateCommand (.map commands) cmdName cmd).Accepts ())
    (hcmd : YamlNode.find? cmdName commands = some cmd) (hgroup : cmd.get (bytes "channel_group") = .ok (some (.scalar group)))
    (htemplate : cmd.get (bytes "template") = .ok (some (.scalar template))) :
    ∃ names, declaredParameters cmd = .ok names ∧ (∀ name ∈ templatePlaceholders template, name ∈ names ++ [group]) ∧
      (group ≠ [] → group ∈ templatePlaceholders template) := by
  rw [validateCommand] at haccepts
  obtain ⟨-, haccepts⟩ := Validator.accepts_then.mp haccepts
  obtain ⟨parameters, hparameters, haccepts⟩ := Validator.accepts_bind.mp haccepts
  obtain ⟨outputs, -, haccepts⟩ := Validator.accepts_bind.mp haccepts
  split at haccepts
  · exact absurd haccepts accepts_addError
  split at haccepts
  · exact absurd haccepts accepts_addError
  split at haccepts
  · obtain ⟨group?, -, haccepts⟩ := Validator.accepts_bind.mp haccepts
    split at haccepts <;> exact absurd haccepts accepts_addError
  obtain ⟨template?, hread, haccepts⟩ := Validator.accepts_bind.mp haccepts
  obtain rfl := Except.ok.inj (htemplate.symm.trans (Validator.accepts_lift.mp hread))
  obtain ⟨names, hnames, haccepts⟩ := Validator.accepts_bind.mp haccepts
  obtain ⟨fresh, hfresh, haccepts⟩ := Validator.accepts_bind.mp haccepts
  obtain rfl := Except.ok.inj ((congrArg Except.ok hcmd.symm).trans (Validator.accepts_lift.mp hfresh))
  obtain ⟨group?, hread, haccepts⟩ := Validator.accepts_bind.mp haccepts
  obtain rfl := Except.ok.inj (hgroup.symm.trans (Validator.accepts_lift.mp hread))
  refine ⟨names.filterMap id, ?_, accepts_validateTemplate.mp haccepts⟩
  exact Lists.bind_eq_ok_iff.mpr ⟨parameters, Validator.accepts_lift.mp hparameters,
    Lists.bind_eq_ok_iff.mpr ⟨names, Validator.accepts_lift.mp hnames, rfl⟩⟩

/-! ### The call -/

/-- A call `I:n.V` of a command with a channel group and a scalar template: all declared parameters are supplied, and the texts and the number of the parameters are within the limits of the plugin interface. -/
structure ChannelCall (Y : YamlLibrary) where
  what : YamlError → ByteString
  api : YamlNode
  commands : List (YamlNode × YamlNode)
  command : YamlNode
  group : ByteString
  template : ByteString
  call : ScriptCall
  name : CallName
  channel : Int
  accepted : (validateInstrumentApi Y what (.ok api)).valid = true
  commands_eq : api.get (bytes "commands") = .ok (some (.map commands))
  command_eq : YamlNode.find? name.verb commands = some command
  group_eq : command.get (bytes "channel_group") = .ok (some (.scalar group))
  template_eq : command.get (bytes "template") = .ok (some (.scalar template))
  name_eq : parseFuncName call.funcName = some name
  channel_eq : name.channel = some channel
  supplied : ∀ declared, declaredParameters command = .ok declared → ∀ key ∈ declared,
    ((callParams name call.args).find? key).isSome
  template_fits : FitsArray template
  names_fit : ∀ entry ∈ (callParams name call.args).entries, FitsArray entry.1
  params_fit : (callParams name call.args).entries.length ≤ pluginMaxParams

/-- The records that the worker may make of the command of the call, whose id and token are those of a single call, an enqueued one or a parallel block. A frame has room for `maxPayload` bytes, and the worker walks the parameters in any order. -/
def ChannelCall.Arrives {Y : YamlLibrary} (c : ChannelCall Y) (N : JsonLibrary) (pcmd : PluginCommand) : Prop :=
  ∃ cmd text cmd' entries, cmd.params = callParams c.name c.call.args ∧ serializeCommand N cmd = .ok text ∧
    deserializeCommand N (text.take maxPayload) = .ok cmd' ∧ entries.Perm cmd'.params.entries ∧ pcmd = toPluginCommandIn cmd' entries

/-- The template is substituted as it should be, the channel group by the number of the channel, and no name in braces is left. -/
structure FillsChannel (template : ByteString) (params : List PluginParam) (group : ByteString) (channel : Int) : Prop where
  substituted : SubstitutesCorrectly template params
  addressed : group ∈ placeholders template → placeholderText params group = decimalInt channel
  resolved : ∀ name ∈ placeholders template, name ≠ [] →
    (params.find? fun param => param.name.text = name).isSome

/-- The channel group is called `channel`, or the call has an argument of its name that is written like the number, or it has an empty name that does not occur. -/
def PassesChannel (args : LuaArgs) (template group : ByteString) (channel : Int) : Prop :=
  group = bytes "channel" ∨
    (∃ value, args.params.find? group = some value ∧ valueText value.toPluginParamValue = decimalInt channel) ∨
      group = [] ∧ [] ∉ placeholders template

/-- No placeholder stands for an infinite number or a NaN. -/
def FiniteArguments (params : ParamMap) (template : ByteString) : Prop :=
  ∀ name ∈ placeholders template, name ≠ [] → ∀ value, params.find? name = some (.double value) →
    value.isFinite = true

/-- No placeholder stands for a string that fills its array. -/
def ShortArguments (params : ParamMap) (template : ByteString) : Prop :=
  ∀ name ∈ placeholders template, ∀ value, params.find? name = some (.string value) →
    (value.takeWhile (· ≠ 0)).length < pluginMaxStringLen - 1

/-! ### The parameters that arrive -/

/-- Of the written parameters, those that can be read back are found. -/
theorem find?_decodedParams (params : ParamMap) {entries : List (ByteString × ParamValue)}
    (hsorted : SortedAssoc.Sorted entries) (key : ByteString) :
    (decodedParams params entries).find? key =
      ((SortedAssoc.find? key entries).bind decodedParam).or (params.find? key) := by
  induction entries generalizing params with
  | nil => rfl
  | cons entry entries ih =>
      obtain ⟨first, value⟩ := entry
      obtain ⟨hfirst, hrest⟩ := List.pairwise_cons.mp hsorted
      rw [decodedParams, SortedAssoc.find?]
      by_cases hkey : key = first
      · subst hkey
        have hnone : SortedAssoc.find? key entries = none := by
          cases hfind : SortedAssoc.find? key entries with
          | none => rfl
          | some value => exact absurd (hfirst _ (SortedAssoc.mem_of_find? hfind)) (lt_irrefl _)
        rw [if_pos rfl, Option.bind_some]
        cases hparam : decodedParam value with
        | none => simp [ih params hrest, hnone]
        | some param => simp [ih _ hrest, hnone, ParamMap.find?_insert]
      · rw [if_neg hkey]
        cases hparam : decodedParam value with
        | none => exact ih params hrest
        | some param =>
            have hother := ih (params.insert first param) hrest
            rwa [ParamMap.find?_insert, if_neg hkey] at hother

theorem find?_decodedCommand (cmd : SerializedCommand) (key : ByteString) :
    (decodedCommand cmd).params.find? key = (cmd.params.find? key).bind decodedParam := by
  rw [decodedCommand, find?_decodedParams _ cmd.params.sorted]
  exact Option.or_none

/-- When all names fit, a parameter of the record is found under its name. -/
theorem find?_toPluginCommandIn {cmd : SerializedCommand} {entries : List (ByteString × ParamValue)}
    (horder : entries.Perm cmd.params.entries) (hnames : ∀ entry ∈ cmd.params.entries, FitsArray entry.1)
    (hroom : cmd.params.entries.length ≤ pluginMaxParams) (key : ByteString) :
    (((toPluginCommandIn cmd entries).params.find? fun param => param.name.text = key).map PluginParam.value) =
      (cmd.params.find? key).map ParamValue.toPluginParamValue := by
  have hall : entries.take pluginMaxParams = entries := List.take_of_length_le (horder.length_eq ▸ hroom)
  have hname : ∀ entry ∈ entries, (CharArray.copy pluginMaxStringLen pluginMaxStringLen_pos entry.1).text = entry.1 :=
    fun entry hentry => cut_of_fitsArray (hnames entry (horder.mem_iff.mp hentry))
  rw [toPluginCommandIn]
  simp only
  rw [hall]
  cases hfound : (entries.map fun entry => (⟨.copy _ pluginMaxStringLen_pos entry.1, entry.2.toPluginParamValue⟩ : PluginParam)).find?
      fun param => param.name.text = key with
  | none =>
      cases hvalue : cmd.params.find? key with
      | none => rfl
      | some value =>
          have hentry : (key, value) ∈ entries := horder.mem_iff.mpr (SortedAssoc.mem_of_find? hvalue)
          have hnot := List.find?_eq_none.mp hfound _ (List.mem_map_of_mem hentry)
          exact absurd (hname _ hentry) (by simpa using hnot)
  | some param =>
      obtain ⟨entry, hentry, rfl⟩ := List.mem_map.mp (List.mem_of_find?_eq_some hfound)
      have hkey : entry.1 = key := by
        rw [← hname entry hentry]
        simpa using List.find?_some hfound
      have hvalue : cmd.params.find? key = some entry.2 :=
        SortedAssoc.find?_of_mem cmd.params.sorted (hkey ▸ horder.mem_iff.mp hentry)
      rw [hvalue]
      rfl

/-- The value of a parameter of the record: what the call has under this name, if it gets through. -/
theorem find?_of_arrives {Y : YamlLibrary} {c : ChannelCall Y} {N : JsonLibrary} {pcmd : PluginCommand}
    (harrives : c.Arrives N pcmd) (key : ByteString) :
    ((pcmd.params.find? fun param => param.name.text = key).map PluginParam.value) =
      (((callParams c.name c.call.args).find? key).bind decodedParam).map ParamValue.toPluginParamValue := by
  obtain ⟨cmd, text, cmd', entries, hparams, htext, hread, horder, rfl⟩ := harrives
  obtain ⟨hfits, hfinite⟩ := (deserializeCommand_take N maxPayload htext).mp ⟨cmd', hread⟩
  rw [List.take_of_length_le hfits, deserializeCommand_of_serialize N htext hfinite] at hread
  obtain rfl := Except.ok.inj hread
  have hkeys : ∀ entry ∈ (decodedCommand cmd).params.entries, ∃ value, (entry.1, value) ∈ cmd.params.entries := by
    intro entry hentry
    have hfind := find?_decodedCommand cmd entry.1
    rw [show (decodedCommand cmd).params.find? entry.1 = some entry.2 from
      SortedAssoc.find?_of_mem (decodedCommand cmd).params.sorted hentry] at hfind
    obtain ⟨value, hvalue, -⟩ := Option.bind_eq_some_iff.mp hfind.symm
    exact ⟨value, SortedAssoc.mem_of_find? hvalue⟩
  have hnames : ∀ entry ∈ (decodedCommand cmd).params.entries, FitsArray entry.1 := by
    intro entry hentry
    obtain ⟨value, hmem⟩ := hkeys entry hentry
    exact c.names_fit (entry.1, value) (hparams ▸ hmem)
  have hroom : (decodedCommand cmd).params.entries.length ≤ pluginMaxParams := by
    have hsubset : (decodedCommand cmd).params.entries.map Prod.fst ⊆ cmd.params.entries.map Prod.fst := by
      intro key hkey
      obtain ⟨entry, hentry, rfl⟩ := List.mem_map.mp hkey
      obtain ⟨value, hmem⟩ := hkeys entry hentry
      exact List.mem_map.mpr ⟨_, hmem, rfl⟩
    have hnodup : ((decodedCommand cmd).params.entries.map Prod.fst).Nodup :=
      List.pairwise_map.mpr ((decodedCommand cmd).params.sorted.imp fun hlt => ne_of_lt hlt)
    have hle := (List.subperm_of_subset hnodup hsubset).length_le
    rw [List.length_map, List.length_map, hparams] at hle
    exact hle.trans c.params_fit
  rw [find?_toPluginCommandIn horder hnames hroom, find?_decodedCommand, hparams]

/-! ### When the channel is filled in -/

section

variable {Y : YamlLibrary} {c : ChannelCall Y} {N : JsonLibrary} {pcmd : PluginCommand}

/-- What the acceptance of the API says about the template of the call. -/
theorem ChannelCall.template_names (c : ChannelCall Y) :
    ∃ names, declaredParameters c.command = .ok names ∧
      (∀ name ∈ templatePlaceholders c.template, name ∈ names ++ [c.group]) ∧
      (c.group ≠ [] → c.group ∈ templatePlaceholders c.template) := by
  have haccepts := valid_validationResult.mp c.accepted
  obtain ⟨doc, hdoc, haccepts⟩ := Validator.accepts_bind.mp haccepts
  obtain rfl := Except.ok.inj (Validator.accepts_lift.mp hdoc)
  rw [checkInstrumentApi, Validator.accepts_then, Validator.accepts_then, Validator.accepts_then] at haccepts
  obtain ⟨commands?, hcommands, haccepts⟩ := Validator.accepts_bind.mp haccepts.2.2.2
  obtain rfl := Except.ok.inj (c.commands_eq.symm.trans (Validator.accepts_lift.mp hcommands))
  have hround := Validator.accepts_forEach.mp haccepts _ (mem_of_find? c.command_eq)
  obtain ⟨cmdName, hcmdName, hround⟩ := Validator.accepts_bind.mp hround
  obtain rfl := Except.ok.inj (Validator.accepts_lift.mp hcmdName)
  exact placeholders_of_accepts hround c.command_eq c.group_eq c.template_eq

theorem mem_placeholders_iff {template name : ByteString} (hname : name ≠ []) :
    name ∈ placeholders template ↔ name ∈ templatePlaceholders template := by
  rw [templatePlaceholders_eq_names, placeholders, List.mem_filter, and_iff_left (by simpa using hname)]

theorem isSome_of_arrives (harrives : c.Arrives N pcmd) (key : ByteString) :
    (pcmd.params.find? fun param => param.name.text = key).isSome =
      (((callParams c.name c.call.args).find? key).bind decodedParam).isSome := by
  rw [← Option.isSome_map (f := PluginParam.value), find?_of_arrives harrives, Option.isSome_map]

theorem placeholderText_of_arrives (harrives : c.Arrives N pcmd) (key : ByteString) :
    placeholderText pcmd.params key =
      match ((callParams c.name c.call.args).find? key).bind decodedParam with
      | some value => valueText value.toPluginParamValue
      | none => bytes "\x7b" ++ key ++ bytes "\x7d" := by
  have hfind := find?_of_arrives harrives key
  rw [placeholderText]
  cases hparam : pcmd.params.find? fun param => param.name.text = key with
  | none =>
      rw [hparam, Option.map_none] at hfind
      rw [Option.map_eq_none_iff.mp hfind.symm]
  | some param =>
      rw [hparam, Option.map_some] at hfind
      obtain ⟨value, hvalue, heq⟩ := Option.map_eq_some_iff.mp hfind.symm
      rw [hvalue]
      exact congrArg valueText heq.symm

theorem isSome_decodedParam_iff (value : ParamValue) :
    (decodedParam value).isSome ↔ ∀ d, value = .double d → d.isFinite = true := by
  cases value with
  | double d =>
      rw [decodedParam]
      cases hfinite : d.isFinite <;> simp [hfinite]
  | _ => simp [decodedParam]

theorem eq_of_decodedParam {value value' : ParamValue} (hread : decodedParam value = some value') : value' = value := by
  cases value with
  | double d => exact (Option.some.inj (Option.ite_none_right_eq_some.mp hread).2).symm
  | int64 i | string s | boolean b | doubles ds => exact (Option.some.inj hread).symm

/-- A number that gets lost is not written like an integer. -/
theorem valueText_ne_decimalInt {value : ParamValue} (hlost : decodedParam value = none) (n : Int) :
    valueText value.toPluginParamValue ≠ decimalInt n := by
  cases value with
  | double d =>
      have htop : d.exponent = 2047 := by
        rw [decodedParam, ite_eq_right_iff] at hlost
        by_contra hexponent
        exact Option.some_ne_none _ (hlost (bne_iff_ne.mpr hexponent))
      have hletter : 110 ∈ valueText (PluginParamValue.double d) := by
        rw [valueText, doubleText, floatText, if_pos htop]
        by_cases hinfinite : d.fraction = 0
        · rw [if_pos hinfinite]
          cases d.isNegative <;> decide
        · rw [if_neg hinfinite]
          cases d.isNegative <;> decide
      intro heq
      rw [ParamValue.toPluginParamValue] at heq
      have hdigit := isDigit_or_minus_of_mem_decimalInt (heq ▸ hletter)
      exact absurd hdigit (by decide)
  | int64 i | string s | boolean b | doubles ds => contradiction

theorem braces_ne_decimalInt (name : ByteString) (n : Int) : bytes "\x7b" ++ name ++ bytes "\x7d" ≠ decimalInt n := by
  intro heq
  have hbrace : 123 ∈ bytes "\x7b" ++ name ++ bytes "\x7d" := List.mem_append_left _ (List.mem_append_left _ (by decide))
  exact absurd (isDigit_or_minus_of_mem_decimalInt (heq ▸ hbrace)) (by decide)

/-- What stands for the channel group is the number of the channel. -/
theorem placeholderText_group_iff (harrives : c.Arrives N pcmd) :
    placeholderText pcmd.params c.group = decimalInt c.channel ↔
      c.group = bytes "channel" ∨
        ∃ value, c.call.args.params.find? c.group = some value ∧ valueText value.toPluginParamValue = decimalInt c.channel := by
  rw [placeholderText_of_arrives harrives, find?_callParams]
  by_cases hgroup : c.group = bytes "channel"
  · obtain ⟨hlow, hhigh⟩ := (parsed_of_parseFuncName c.name_eq).range c.channel c.channel_eq
    have hnumber : (Int64.ofInt c.channel).toInt = c.channel := Int64.toInt_ofInt_of_le (by omega) (by omega)
    rw [if_pos ⟨by rw [c.channel_eq]; rfl, hgroup⟩, c.channel_eq]
    refine iff_of_true ?_ (Or.inl hgroup)
    show decimalInt (Int64.ofInt c.channel).toInt = decimalInt c.channel
    rw [hnumber]
  · rw [if_neg fun h => hgroup h.2, or_iff_right hgroup]
    cases hvalue : c.call.args.params.find? c.group with
    | none => exact iff_of_false (braces_ne_decimalInt _ _) (by rintro ⟨value, hsome, -⟩; contradiction)
    | some value =>
        rw [Option.bind_some]
        simp only [Option.some.injEq, exists_eq_left']
        cases hparam : decodedParam value with
        | none => exact iff_of_false (braces_ne_decimalInt _ _) (valueText_ne_decimalInt hparam _)
        | some value' => rw [eq_of_decodedParam hparam]

theorem addressed_iff (harrives : c.Arrives N pcmd) :
    (c.group ∈ placeholders c.template → placeholderText pcmd.params c.group = decimalInt c.channel) ↔
      PassesChannel c.call.args c.template c.group c.channel := by
  rw [placeholderText_group_iff harrives, PassesChannel, ← or_assoc]
  constructor
  · intro haddressed
    by_cases hmem : c.group ∈ placeholders c.template
    · exact Or.inl (haddressed hmem)
    · have hempty : c.group = [] := by
        by_contra hgroup
        obtain ⟨names, -, -, hrequired⟩ := c.template_names
        exact hmem ((mem_placeholders_iff hgroup).mpr (hrequired hgroup))
      exact Or.inr ⟨hempty, hempty ▸ hmem⟩
  · rintro (hpasses | ⟨hempty, hnot⟩) hmem
    · exact hpasses
    · exact absurd (hempty ▸ hmem) hnot

theorem isFullString_iff (harrives : c.Arrives N pcmd) (name : ByteString) :
    IsFullString pcmd.params name ↔
      ∃ value, (callParams c.name c.call.args).find? name = some (.string value) ∧
        pluginMaxStringLen - 1 ≤ (value.takeWhile (· ≠ 0)).length := by
  have hfind := find?_of_arrives harrives name
  have hlength : ∀ value : ByteString, (CharArray.copy _ pluginMaxStringLen_pos value).text.length =
      min (pluginMaxStringLen - 1) (value.takeWhile (· ≠ 0)).length := fun value => List.length_take
  constructor
  · rintro ⟨param, s, hparam, hvalue, hfull⟩
    rw [hparam, Option.map_some, hvalue] at hfind
    obtain ⟨value, hread, hstring⟩ := Option.map_eq_some_iff.mp hfind.symm
    obtain ⟨value', hcall, hdecoded⟩ := Option.bind_eq_some_iff.mp hread
    obtain rfl := eq_of_decodedParam hdecoded
    cases value with
    | string text =>
        obtain rfl := PluginParamValue.string.inj hstring
        rw [hlength] at hfull
        exact ⟨text, hcall, by omega⟩
    | double d | int64 i | boolean b | doubles ds => contradiction
  · rintro ⟨value, hcall, hle⟩
    rw [hcall] at hfind
    obtain ⟨param, hparam, hvalue⟩ := Option.map_eq_some_iff.mp hfind
    refine ⟨param, _, hparam, hvalue, ?_⟩
    rw [hlength]
    omega

theorem resolved_iff (harrives : c.Arrives N pcmd)
    (haddressed : c.group ∈ placeholders c.template → placeholderText pcmd.params c.group = decimalInt c.channel) :
    (∀ name ∈ placeholders c.template, name ≠ [] → (pcmd.params.find? fun param => param.name.text = name).isSome) ↔
      FiniteArguments (callParams c.name c.call.args) c.template := by
  refine forall₃_congr fun name hname hnonempty => ?_
  rw [isSome_of_arrives harrives]
  constructor
  · intro hsome value hvalue
    rw [hvalue, Option.bind_some, isSome_decodedParam_iff] at hsome
    exact hsome value rfl
  · intro hfinite
    cases hparam : (callParams c.name c.call.args).find? name with
    | some value =>
        rw [Option.bind_some, isSome_decodedParam_iff]
        rintro d rfl
        exact hfinite d hparam
    | none =>
        obtain ⟨names, hdeclared, hallowed, -⟩ := c.template_names
        rcases List.mem_append.mp (hallowed name ((mem_placeholders_iff hnonempty).mp hname)) with hmem | hmem
        · have hsupplied := c.supplied names hdeclared name hmem
          rw [hparam] at hsupplied
          contradiction
        · obtain rfl := List.mem_singleton.mp hmem
          have htext := haddressed hname
          rw [placeholderText_of_arrives harrives, hparam] at htext
          exact absurd htext (braces_ne_decimalInt _ _)

/-- The template is filled exactly if the channel group is called like the parameter of the channel or passed with the same text, no placeholder stands for a string of 127 bytes or more, and none for a number that is not finite. -/
theorem channel_filled_iff (c : ChannelCall Y) (N : JsonLibrary) {pcmd : PluginCommand} (harrives : c.Arrives N pcmd) :
    FillsChannel c.template pcmd.params c.group c.channel ↔
      PassesChannel c.call.args c.template c.group c.channel ∧
        ShortArguments (callParams c.name c.call.args) c.template ∧
        FiniteArguments (callParams c.name c.call.args) c.template := by
  have hshort : (∀ name ∈ placeholders c.template, ¬ IsFullString pcmd.params name) ↔
      ShortArguments (callParams c.name c.call.args) c.template := by
    refine forall₂_congr fun name _ => ?_
    rw [isFullString_iff harrives]
    push Not
    rfl
  rw [← hshort]
  constructor
  · intro hfills
    exact ⟨(addressed_iff harrives).mp hfills.addressed,
      fun _ hname => not_isFullString_of_substitutesCorrectly c.template_fits.2 hfills.substituted hname,
      (resolved_iff harrives hfills.addressed).mp hfills.resolved⟩
  · rintro ⟨hpasses, hshort, hfinite⟩
    have haddressed := (addressed_iff harrives).mpr hpasses
    exact ⟨substitutesCorrectly_of_short c.template_fits.2 hshort, haddressed, (resolved_iff harrives haddressed).mpr hfinite⟩

theorem arrives_of_serialize (c : ChannelCall Y) (N : JsonLibrary) {cmd : SerializedCommand} {text : ByteString}
    (hparams : cmd.params = callParams c.name c.call.args) (htext : serializeCommand N cmd = .ok text)
    (hfits : text.length ≤ maxPayload) (hfinite : ∀ entry ∈ cmd.params.entries, entry.2.ArrayFinite) :
    c.Arrives N (toPluginCommand (decodedCommand cmd)) := by
  refine ⟨cmd, text, decodedCommand cmd, _, hparams, htext, ?_, .refl _, (toPluginCommandIn_entries _).symm⟩
  rw [List.take_of_length_le hfits]
  exact deserializeCommand_of_serialize N htext hfinite

end

/-! ### Two groups -/

/-- The template of a command that sets the range of a channel. -/
def channelRangeTemplate (group : ByteString) : ByteString := bytes "CHAN\x7b" ++ group ++ bytes "\x7d:RANG \x7bvalue\x7d"

def setRangeCommand (group : ByteString) : YamlNode :=
  .map [(.scalar (bytes "template"), .scalar (channelRangeTemplate group)),
    (.scalar (bytes "parameters"), .sequence [textMap [(bytes "name", bytes "value"), (bytes "type", bytes "float")]]),
    (.scalar (bytes "channel_group"), .scalar group), (.scalar (bytes "outputs"), .sequence [])]

def channelRangeCommands (group : ByteString) : List (YamlNode × YamlNode) :=
  [(.scalar (bytes "SET_RANGE"), setRangeCommand group)]

/-- An oscilloscope with one group of channels. -/
def oscilloscopeApi (group : ByteString) : YamlNode :=
  .map [(.scalar (bytes "api_version"), .scalar (bytes "1.0.0")),
    (.scalar (bytes "instrument"), textMap [(bytes "identifier", bytes "Scope1")]),
    (.scalar (bytes "protocol"), textMap [(bytes "type", bytes "VISA")]),
    (.scalar (bytes "io"), .sequence [dataIo (group ++ bytes "1_data") (bytes "float")]),
    (.scalar (bytes "channel_groups"), .sequence [dataGroup group (bytes "float")]),
    (.scalar (bytes "commands"), .map (channelRangeCommands group))]

def setRangeName : CallName where
  spec := bytes "Scope1:1"
  instrument := bytes "Scope1"
  channel := some 1
  verb := bytes "SET_RANGE"

def setRangeArgs : LuaArgs := .table [(bytes "value", .string (bytes "0.5"))]

def setRangeCall (group : ByteString)
    (haccepted : (validateInstrumentApi .decimals (fun _ => []) (.ok (oscilloscopeApi group))).valid = true)
    (hfits : FitsArray (channelRangeTemplate group)) : ChannelCall .decimals where
  what _ := []
  api := oscilloscopeApi group
  commands := channelRangeCommands group
  command := setRangeCommand group
  group := group
  template := channelRangeTemplate group
  call := ⟨bytes "Scope1:1.SET_RANGE", setRangeArgs⟩
  name := setRangeName
  channel := 1
  accepted := haccepted
  commands_eq := rfl
  command_eq := rfl
  group_eq := rfl
  template_eq := rfl
  name_eq := by decide +kernel
  channel_eq := rfl
  supplied := by
    intro declared hdeclared key hkey
    have hnames : declaredParameters (setRangeCommand group) = .ok [bytes "value"] := rfl
    obtain rfl := Except.ok.inj (hnames.symm.trans hdeclared)
    obtain rfl := List.mem_singleton.mp hkey
    decide +kernel
  template_fits := hfits
  names_fit := by decide +kernel
  params_fit := by decide +kernel

theorem setRangeCall_arrives {group : ByteString}
    (haccepted : (validateInstrumentApi .decimals (fun _ => []) (.ok (oscilloscopeApi group))).valid = true)
    (hfits : FitsArray (channelRangeTemplate group)) :
    (setRangeCall group haccepted hfits).Arrives .compact
      (toPluginCommand (decodedCommand (callCommand (fun _ _ => false) setRangeName setRangeArgs))) := by
  have hlength : (serializeCommand .compact (callCommand (fun _ _ => false) setRangeName setRangeArgs)).toOption.map
      List.length = some 135 := by decide +kernel
  obtain ⟨text, htext, hlength⟩ := Except.map_toOption_eq_some_iff.mp hlength
  refine arrives_of_serialize _ _ rfl htext (by rw [hlength]; decide) ?_
  have hentries : (callParams setRangeName setRangeArgs).entries =
      [(bytes "channel", .int64 1), (bytes "value", .string (bytes "0.5"))] := by decide +kernel
  show ∀ entry ∈ (callParams setRangeName setRangeArgs).entries, _
  rw [hentries]
  intro entry hentry
  rcases List.mem_pair.mp hentry with rfl | rfl <;> trivial

/-- The group is called like the parameter. -/
theorem channel_filled_iff_setRange :
    ∃ haccepted hfits pcmd, (setRangeCall (bytes "channel") haccepted hfits).Arrives .compact pcmd ∧
      FillsChannel (channelRangeTemplate (bytes "channel")) pcmd.params (bytes "channel") 1 := by
  have haccepted : (validateInstrumentApi .decimals (fun _ => []) (.ok (oscilloscopeApi (bytes "channel")))).valid = true := by
    decide +kernel
  have hfits : FitsArray (channelRangeTemplate (bytes "channel")) := by decide +kernel
  have harrives := setRangeCall_arrives haccepted hfits
  have hnames : placeholders (channelRangeTemplate (bytes "channel")) = [bytes "channel", bytes "value"] := by
    decide +kernel
  have hchannel : (callParams setRangeName setRangeArgs).find? (bytes "channel") = some (.int64 1) := by decide +kernel
  have hvalue : (callParams setRangeName setRangeArgs).find? (bytes "value") = some (.string (bytes "0.5")) := by
    decide +kernel
  refine ⟨haccepted, hfits, _, harrives,
    (channel_filled_iff (setRangeCall (bytes "channel") haccepted hfits) .compact harrives).mpr ⟨Or.inl rfl, ?_, ?_⟩⟩
  · intro name hname text htext
    rcases List.mem_pair.mp (hnames ▸ hname) with rfl | rfl
    · exact absurd (hchannel.symm.trans htext) (by simp)
    · obtain rfl := ParamValue.string.inj (Option.some.inj (hvalue.symm.trans htext))
      decide
  · intro name hname _ d hd
    rcases List.mem_pair.mp (hnames ▸ hname) with rfl | rfl
    · exact absurd (hchannel.symm.trans hd) (by simp)
    · exact absurd (hvalue.symm.trans hd) (by simp)

/-- The group of the examples that come with the server. -/
theorem not_fillsChannel_analogRange :
    ∃ haccepted hfits pcmd, (setRangeCall (bytes "analog") haccepted hfits).Arrives .compact pcmd ∧
      ¬ FillsChannel (channelRangeTemplate (bytes "analog")) pcmd.params (bytes "analog") 1 := by
  have haccepted : (validateInstrumentApi .decimals (fun _ => []) (.ok (oscilloscopeApi (bytes "analog")))).valid = true := by
    decide +kernel
  have hfits : FitsArray (channelRangeTemplate (bytes "analog")) := by decide +kernel
  have harrives := setRangeCall_arrives haccepted hfits
  refine ⟨haccepted, hfits, _, harrives, fun hfills => ?_⟩
  have htext := (placeholderText_group_iff harrives).mp (hfills.addressed (by decide +kernel))
  rcases htext with hname | ⟨value, hvalue, -⟩
  · exact absurd hname (by decide : bytes "analog" ≠ bytes "channel")
  · have hnone : setRangeArgs.params.find? (bytes "analog") = none := by decide +kernel
    exact absurd (hnone.symm.trans hvalue) (Option.some_ne_none value).symm

end InstrumentServer
