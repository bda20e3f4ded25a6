import InstrumentServer.Server.RuntimeContext
import Mathlib.Data.List.Nodup

/-!
# The arguments of a script call

`call` turns every argument into an entry of the parameter map: a positional one under its number, an entry of a table under its key. The test for a float comes first and also holds of integers, so the branch behind it that stores an `int64_t` is never reached. Only the channel of the call, which does not go through these tests, is stored as an integer.
-/

namespace InstrumentServer

open ByteString

/-- The alternative of `ParamValue` that fits a Lua value. -/
def LuaValue.alternative : LuaValue → Option ParamValue
  | .integer value => some (.int64 value)
  | .number value => some (.double value)
  | .string value => some (.string value)
  | .boolean value => some (.boolean value)
  | .nil | .other => none

def LuaValue.IsInteger : LuaValue → Prop
  | .integer _ => True
  | _ => False

instance : DecidablePred LuaValue.IsInteger
  | .integer _ => isTrue trivial
  | .nil | .boolean _ | .number _ | .string _ | .other => isFalse id

namespace LuaArgs

/-- The arguments under the names `call` gives them. -/
def named : LuaArgs → List (ByteString × LuaValue)
  | .table entries => entries
  | .positional args => args.zipIdx.map fun arg => (bytes "arg" ++ decimal arg.2, arg.1)

/-- A Lua table has one value for each key. -/
def DistinctKeys : LuaArgs → Prop
  | .table entries => (entries.map Prod.fst).Nodup
  | .positional _ => True

/-- Integers, floats, strings and booleans only. -/
def Scalars (args : LuaArgs) : Prop := ∀ arg ∈ args.named, arg.2.alternative.isSome

end LuaArgs

/-- What a call is to find in its parameter map: each argument in the alternative that fits it, the channel if one is addressed, and nothing else. -/
structure KeepsArguments (name : CallName) (args : LuaArgs) : Prop where
  argument : ∀ arg ∈ args.named, (callParams name args).find? arg.1 = arg.2.alternative
  channel : ∀ channel, name.channel = some channel →
    (callParams name args).find? (bytes "channel") = some (.int64 (Int64.ofInt channel))
  named : ∀ key, ((callParams name args).find? key).isSome →
    key ∈ args.named.map Prod.fst ∨ (key = bytes "channel" ∧ name.channel.isSome)

/-- No argument is an integer, save one that repeats the channel of the call. -/
def IntegerOnlyAsChannel (name : CallName) (args : LuaArgs) : Prop :=
  ∀ arg ∈ args.named,
    if name.channel.isSome ∧ arg.1 = bytes "channel" then
      arg.2.alternative = name.channel.map fun channel => .int64 (Int64.ofInt channel)
    else ¬ arg.2.IsInteger

instance (name : CallName) (args : LuaArgs) : Decidable (IntegerOnlyAsChannel name args) :=
  inferInstanceAs (Decidable (∀ arg ∈ args.named, _))

/-! ### The conversion -/

theorem toParam_eq_alternative_iff (value : LuaValue) : value.toParam = value.alternative ↔ ¬ value.IsInteger := by
  cases value <;> simp [LuaValue.toParam, LuaValue.alternative, LuaValue.IsInteger]

theorem isSome_toParam (value : LuaValue) : value.toParam.isSome = value.alternative.isSome := by
  cases value <;> rfl

theorem ParamMap.find?_insert (params : ParamMap) (key key' : ByteString) (value : ParamValue) :
    (params.insert key' value).find? key = if key = key' then some value else params.find? key := by
  rw [find?, insert, SortedAssoc.find?_insert]
  congr

theorem find?_insertParam (params : ParamMap) (key key' : ByteString) (value : LuaValue) :
    (insertParam params key' value).find? key =
      if key = key' then value.toParam.or (params.find? key) else params.find? key := by
  rw [insertParam]
  cases value.toParam with
  | some param => simp [ParamMap.find?_insert]
  | none => simp

/-- Both kinds of arguments go into the map the same way. -/
theorem LuaArgs.params_eq (args : LuaArgs) :
    args.params = args.named.foldl (fun params arg => insertParam params arg.1 arg.2) .empty := by
  cases args with
  | table entries => rfl
  | positional args => rw [LuaArgs.params, named, List.foldl_map]

theorem LuaArgs.nodup_named {args : LuaArgs} (hkeys : args.DistinctKeys) : (args.named.map Prod.fst).Nodup := by
  cases args with
  | table entries => exact hkeys
  | positional args =>
      have hnames : (args.zipIdx.map fun arg => (bytes "arg" ++ decimal arg.2, arg.1)).map Prod.fst =
          (List.range' 0 args.length).map fun i => bytes "arg" ++ decimal i := by
        rw [← List.zipIdx_map_snd, List.map_map, List.map_map]
        rfl
      rw [named, hnames]
      apply List.Nodup.map _ List.nodup_range'
      exact fun i j hij => decimal_injective (List.append_cancel_left hij)

section Fold

variable {entries : List (ByteString × LuaValue)} {params : ParamMap}

theorem find?_foldl_of_notMem {key : ByteString} (hkey : key ∉ entries.map Prod.fst) :
    (entries.foldl (fun params arg => insertParam params arg.1 arg.2) params).find? key = params.find? key := by
  induction entries generalizing params with
  | nil => rfl
  | cons entry rest ih =>
      obtain ⟨hne, hrest⟩ := not_or.mp (mt List.mem_cons.mpr hkey)
      rw [List.foldl_cons, ih hrest, find?_insertParam, if_neg hne]

theorem find?_foldl_of_mem (hnodup : (entries.map Prod.fst).Nodup) {arg : ByteString × LuaValue} (harg : arg ∈ entries)
    (hscalar : arg.2.toParam.isSome) :
    (entries.foldl (fun params arg => insertParam params arg.1 arg.2) params).find? arg.1 = arg.2.toParam := by
  induction entries generalizing params with
  | nil => contradiction
  | cons entry rest ih =>
      obtain ⟨hfresh, hnodup⟩ := List.nodup_cons.mp hnodup
      rw [List.foldl_cons]
      rcases List.mem_cons.mp harg with rfl | harg
      · obtain ⟨param, hparam⟩ := Option.isSome_iff_exists.mp hscalar
        rw [find?_foldl_of_notMem hfresh, find?_insertParam, if_pos rfl, hparam, Option.some_or]
      · exact ih hnodup harg

end Fold

variable {name : CallName} {args : LuaArgs}

theorem find?_callParams (key : ByteString) :
    (callParams name args).find? key =
      if name.channel.isSome ∧ key = bytes "channel" then name.channel.map fun channel => .int64 (Int64.ofInt channel)
      else args.params.find? key := by
  rw [callParams]
  cases name.channel with
  | none => simp
  | some channel => simp [ParamMap.find?_insert]

theorem find?_params (hkeys : args.DistinctKeys) (hscalars : args.Scalars) {arg : ByteString × LuaValue}
    (harg : arg ∈ args.named) : args.params.find? arg.1 = arg.2.toParam := by
  rw [LuaArgs.params_eq]
  apply find?_foldl_of_mem (LuaArgs.nodup_named hkeys) harg
  rw [isSome_toParam]
  exact hscalars arg harg

/-! ### When the values keep their types -/

/-- The parameter map holds every argument in its own alternative exactly when no argument is an integer, save one that repeats the channel of the call. -/
theorem keepsArguments_iff (hkeys : args.DistinctKeys) (hscalars : args.Scalars) :
    KeepsArguments name args ↔ IntegerOnlyAsChannel name args := by
  have hentry : ∀ arg ∈ args.named, (callParams name args).find? arg.1 = arg.2.alternative ↔
      if name.channel.isSome ∧ arg.1 = bytes "channel" then
        arg.2.alternative = name.channel.map fun channel => .int64 (Int64.ofInt channel)
      else ¬ arg.2.IsInteger := by
    intro arg harg
    rw [find?_callParams]
    split
    · exact eq_comm
    · rw [find?_params hkeys hscalars harg, toParam_eq_alternative_iff]
  constructor
  · intro h arg harg
    exact (hentry arg harg).mp (h.argument arg harg)
  · intro h
    refine ⟨fun arg harg => (hentry arg harg).mpr (h arg harg), fun channel hchannel => ?_, fun key hkey => ?_⟩
    · simp [find?_callParams, hchannel]
    · by_cases haddressed : name.channel.isSome ∧ key = bytes "channel"
      · exact Or.inr haddressed.symm
      · refine Or.inl (Decidable.byContradiction fun hnew => ?_)
        rw [find?_callParams, if_neg haddressed, LuaArgs.params_eq, find?_foldl_of_notMem hnew] at hkey
        contradiction

/-- `SetVoltage` on the second channel, by a table. -/
def addressedCall : CallName where
  spec := bytes "DAC:2"
  instrument := bytes "DAC"
  channel := some 2
  verb := bytes "SetVoltage"

def floatVoltage : LuaArgs := .table [(bytes "voltage", .number .one), (bytes "ramp", .boolean true)]

theorem keepsArguments_iff_floatVoltage :
    floatVoltage.DistinctKeys ∧ floatVoltage.Scalars ∧ KeepsArguments addressedCall floatVoltage := by
  have hkeys : floatVoltage.DistinctKeys := by
    rw [floatVoltage, LuaArgs.DistinctKeys]
    decide +kernel
  have hscalars : floatVoltage.Scalars := by simp [floatVoltage, LuaArgs.Scalars, LuaArgs.named, LuaValue.alternative]
  exact ⟨hkeys, hscalars, (keepsArguments_iff hkeys hscalars).mpr (by decide)⟩

/-- An integer voltage, in a call of a script. -/
def integerVoltage : ScriptCall where
  funcName := bytes "DAC:2.SetVoltage"
  args := .table [(bytes "voltage", .integer 1)]

/-- The integer arrives as a float, although the call is well formed. -/
theorem not_keepsArguments_integerVoltage :
    parseFuncName integerVoltage.funcName = some addressedCall ∧ integerVoltage.args.DistinctKeys ∧
      integerVoltage.args.Scalars ∧
      (callParams addressedCall integerVoltage.args).find? (bytes "voltage") = some (.double .one) ∧
      ¬ KeepsArguments addressedCall integerVoltage.args := by
  have hvalue : (callParams addressedCall integerVoltage.args).find? (bytes "voltage") = some (.double .one) := by
    decide +kernel
  refine ⟨by decide +kernel, ?_, ?_, hvalue, fun h => ?_⟩
  · simp [integerVoltage, LuaArgs.DistinctKeys]
  · simp [integerVoltage, LuaArgs.Scalars, LuaArgs.named, LuaValue.alternative]
  · have hkept := h.argument (bytes "voltage", .integer 1) (List.mem_singleton.mpr rfl)
    rw [hvalue] at hkept
    simp [LuaValue.alternative] at hkept

end InstrumentServer
