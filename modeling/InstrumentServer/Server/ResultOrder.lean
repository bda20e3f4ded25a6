import InstrumentServer.Lib.Lists
import InstrumentServer.Server.ResultBookkeeping
import Mathlib.Data.List.TakeWhile

/-!
# Results and the calls of a script

A script runs against a fixed registry and all its commands are sent: no `execute` throws, which would end the script. Its results are to list its calls one by one; a block though is sent instrument by instrument, and instruments without a command get one that waits. This module says exactly for which scripts the list of results is the list of calls.
-/

namespace InstrumentServer

open ByteString

/-- An operation of a script, the registry left open. -/
inductive ScriptOp where
  | call (call : ScriptCall)
  | parallel (calls : List ScriptCall)

namespace ScriptOp

def calls : ScriptOp → List ScriptCall
  | .call single => [single]
  | .parallel calls => calls

def on (registry : Registry) : ScriptOp → EnqueueOp
  | .call single => .call registry.names single
  | .parallel calls => .parallel registry.names calls

end ScriptOp

/-- The name and the arguments of a call, if the name can be parsed. -/
def ScriptCall.parse? (call : ScriptCall) : Option (CallName × LuaArgs) :=
  (parseFuncName call.funcName).map fun name => (name, call.args)

/-- What a result is to say about a call: the instrument as the script writes it, the verb and the parameters. -/
def listing (call : CallName × LuaArgs) : ByteString × ByteString × ParamMap :=
  (call.1.spec, call.1.verb, callParams call.1 call.2)

/-- The results of a script are its calls in order, each call once. Every command finds its worker and is sent; a send that raises is left out. -/
def ListsCalls {Future : Type} (expects : ByteString → ByteString → Bool) (registry : Registry) (future : Nat → Future)
    (answer : Future → Option CommandResponse) (script : List ScriptOp) : Prop :=
  ((RuntimeContext.runScript expects (fun k => .sent (future k)) (script.map (ScriptOp.on registry))).processTokensAndWait
      answer).collectedResults.map (fun cr => some cr.call) =
    (script.flatMap ScriptOp.calls).map fun call => call.parse?.map listing

/-! ### The condition -/

/-- The channel is written as `std::to_string` writes it. -/
def CallName.PlainChannel (name : CallName) : Prop :=
  ∀ channel ∈ name.channel, name.spec = name.instrument ++ bytes ":" ++ decimalInt channel

/-- The calls of a block use every instrument, in the order of their names. -/
structure BlockInOrder (registry : Registry) (calls : List (CallName × LuaArgs)) : Prop where
  covers : ∀ inst ∈ registry.names, ∃ call ∈ calls, call.1.instrument = inst
  sorted : calls.Pairwise fun left right => left.1.instrument ≤ right.1.instrument
  plain : ∀ call ∈ calls, call.1.PlainChannel

def ScriptOp.InOrder (registry : Registry) : ScriptOp → Prop
  | .call single => single.parse?.isSome
  | .parallel calls =>
      (∀ call ∈ calls, call.parse?.isSome) ∧ (calls = [] ∨ BlockInOrder registry (calls.filterMap ScriptCall.parse?))

/-! ### Names -/

theorem splitFirst_eq_some {b : UInt8} {s before after : ByteString} (h : splitFirst b s = some (before, after)) :
    before = s.takeWhile (· ≠ b) := by
  rw [splitFirst] at h
  split at h
  · exact (Prod.mk.inj (Option.some.inj h)).1.symm
  · contradiction

/-- What the parser guarantees of a name. -/
structure CallName.Parsed (name : CallName) : Prop where
  instrument : name.instrument = name.spec.takeWhile (· ≠ 58)
  noChannel : name.channel = none → name.spec = name.instrument
  range : ∀ channel ∈ name.channel, -2 ^ 31 ≤ channel ∧ channel < 2 ^ 31

theorem parsed_of_parseFuncName {funcName : ByteString} {name : CallName} (h : parseFuncName funcName = some name) :
    name.Parsed := by
  rw [parseFuncName] at h
  split at h
  · contradiction
  · rename_i spec verb _
    split at h
    · rename_i hcolon
      obtain rfl := Option.some.inj h
      have hnone : (58 : UInt8) ∉ spec := by
        intro hmem
        rw [splitFirst, if_pos hmem] at hcolon
        contradiction
      exact ⟨(Lists.takeWhile_ne_self hnone).symm, fun _ => rfl, by simp⟩
    · rename_i instrument text hcolon
      obtain ⟨channel, hchannel, rfl⟩ := Option.map_eq_some_iff.mp h
      refine ⟨splitFirst_eq_some hcolon, by simp, fun channel' hmem => ?_⟩
      rw [← Option.some.inj hmem]
      exact stoi_range hchannel

theorem ScriptCall.parsed_of_parse? {call : ScriptCall} {parsed : CallName × LuaArgs} (h : call.parse? = some parsed) :
    parsed.1.Parsed := by
  obtain ⟨name, hname, rfl⟩ := Option.map_eq_some_iff.mp h
  exact parsed_of_parseFuncName hname

/-! ### Labels -/

/-- No argument of a script is sent as an integer. -/
theorem find?_params_ne_int64 (args : LuaArgs) (key : ByteString) (value : Int64) :
    args.params.find? key ≠ some (.int64 value) := by
  have hinsert : ∀ (params : ParamMap) (key' : ByteString) (v : LuaValue), params.find? key ≠ some (.int64 value) →
      (insertParam params key' v).find? key ≠ some (.int64 value) := by
    intro params key' v h
    rw [insertParam]
    split
    · rename_i param hparam
      rw [ParamMap.find?, ParamMap.insert, SortedAssoc.find?_insert]
      split
      · rintro heq
        obtain rfl := Option.some.inj heq
        cases v <;> simp [LuaValue.toParam] at hparam
      · exact h
    · exact h
  have hempty : ParamMap.empty.find? key ≠ some (.int64 value) := by simp [ParamMap.find?, ParamMap.empty]
  cases args with
  | table entries =>
      exact List.foldlRecOn (motive := fun params : ParamMap => params.find? key ≠ some (.int64 value)) entries _ hempty
        fun params h _ _ => hinsert params _ _ h
  | positional args =>
      exact List.foldlRecOn (motive := fun params : ParamMap => params.find? key ≠ some (.int64 value)) args.zipIdx _
        hempty fun params h _ _ => hinsert params _ _ h

theorem displayName_callCommand (expects : ByteString → ByteString → Bool) {name : CallName} (hname : name.Parsed)
    (args : LuaArgs) : displayName (callCommand expects name args) =
      match name.channel with
      | some channel => name.instrument ++ bytes ":" ++ decimalInt channel
      | none => name.instrument := by
  cases hchannel : name.channel with
  | none =>
      have hparams : (callCommand expects name args).params = args.params := by simp [callCommand, callParams, hchannel]
      rw [displayName, hparams]
      split
      · rename_i value hvalue
        exact absurd hvalue (find?_params_ne_int64 args _ value)
      · rfl
  | some channel =>
      obtain ⟨hlow, hhigh⟩ := hname.range channel hchannel
      have hfind : (callCommand expects name args).params.find? (bytes "channel") = some (.int64 (Int64.ofInt channel)) := by
        simp [callCommand, callParams, hchannel, ParamMap.find?, ParamMap.insert]
      rw [displayName, hfind]
      show name.instrument ++ bytes ":" ++ decimalInt (Int64.ofInt channel).toInt = _
      rw [Int64.toInt_ofInt_of_le (by omega) (by omega)]

theorem displayName_eq_spec_iff (expects : ByteString → ByteString → Bool) {name : CallName} (hname : name.Parsed)
    (args : LuaArgs) : displayName (callCommand expects name args) = name.spec ↔ name.PlainChannel := by
  rw [displayName_callCommand expects hname]
  cases hchannel : name.channel with
  | none => simp [CallName.PlainChannel, hchannel, hname.noChannel hchannel]
  | some channel => simp [CallName.PlainChannel, hchannel, eq_comm]

/-- The label determines the instrument. -/
theorem takeWhile_displayName (expects : ByteString → ByteString → Bool) {name : CallName} (hname : name.Parsed)
    (args : LuaArgs) : (displayName (callCommand expects name args)).takeWhile (· ≠ 58) = name.instrument := by
  have hfree : 58 ∉ name.instrument := by
    rw [hname.instrument]
    exact fun hb => by simpa using List.mem_takeWhile_imp hb
  rw [displayName_callCommand expects hname]
  cases hchannel : name.channel with
  | none => exact Lists.takeWhile_ne_self hfree
  | some channel =>
      show (name.instrument ++ bytes ":" ++ decimalInt channel).takeWhile (· ≠ 58) = name.instrument
      rw [List.append_assoc, Lists.takeWhile_ne_append hfree]
      show name.instrument ++ [] = name.instrument
      rw [List.append_nil]

/-! ### What a block lists -/

/-- What the result of a buffered command says. -/
def commandListing (cmd : SerializedCommand) : ByteString × ByteString × ParamMap := (displayName cmd, cmd.verb, cmd.params)

/-- What the results for one instrument of a block say. -/
def instrumentListing (buffer : List SerializedCommand) (inst : ByteString) : List (ByteString × ByteString × ParamMap) :=
  match buffer.filter fun cmd => cmd.instrumentName = inst with
  | [] => [(inst, barrierNop, .empty)]
  | cmds => cmds.map commandListing

theorem call_instrumentEntries (token : SyncToken) (cmds : List SerializedCommand) :
    (instrumentEntries token cmds).map (fun entry => entry.result.call) = cmds.map commandListing := by
  calc (instrumentEntries token cmds).map (fun entry => entry.result.call)
      = cmds.zipIdx.map (commandListing ∘ Prod.fst) := by
        rw [instrumentEntries, List.map_map]
        rfl
    _ = cmds.map commandListing := by rw [← List.map_map, List.zipIdx_map_fst]

theorem call_blockEntries (token : SyncToken) (allInstruments : List ByteString) (buffer : List SerializedCommand) :
    (blockEntries token allInstruments buffer).map (fun entry => entry.result.call) =
      allInstruments.flatMap (instrumentListing buffer) := by
  rw [blockEntries, List.map_flatMap]
  refine List.flatMap_congr fun inst _ => ?_
  rw [instrumentListing]
  cases buffer.filter fun cmd => cmd.instrumentName = inst with
  | nil => rfl
  | cons cmd cmds => exact call_instrumentEntries token (cmd :: cmds)

theorem instrumentListing_of_ne_nil {buffer : List SerializedCommand} {inst : ByteString}
    (h : buffer.filter (fun cmd => cmd.instrumentName = inst) ≠ []) :
    instrumentListing buffer inst = (buffer.filter fun cmd => cmd.instrumentName = inst).map commandListing := by
  rw [instrumentListing]
  split
  · contradiction
  · rfl

theorem length_le_instrumentListing (buffer : List SerializedCommand) (inst : ByteString) :
    (buffer.filter fun cmd => cmd.instrumentName = inst).length ≤ (instrumentListing buffer inst).length := by
  by_cases h : buffer.filter (fun cmd => cmd.instrumentName = inst) = []
  · simp [h]
  · rw [instrumentListing_of_ne_nil h, List.length_map]

theorem filter_ne_nil_of_length {buffer : List SerializedCommand} {inst : ByteString}
    (h : (instrumentListing buffer inst).length = (buffer.filter fun cmd => cmd.instrumentName = inst).length) :
    buffer.filter (fun cmd => cmd.instrumentName = inst) ≠ [] := by
  intro hnil
  rw [instrumentListing, hnil] at h
  contradiction

section Block

variable {expects : ByteString → ByteString → Bool} {registry : Registry} {calls : List (CallName × LuaArgs)}

/-- The commands of parsed calls. -/
def commands (expects : ByteString → ByteString → Bool) (calls : List (CallName × LuaArgs)) : List SerializedCommand :=
  calls.map fun call => callCommand expects call.1 call.2

theorem length_group_commands (hregistered : ∀ call ∈ calls, call.1.instrument ∈ registry.names) :
    (registry.names.map fun inst =>
      ((commands expects calls).filter fun cmd => cmd.instrumentName = inst).length).sum = calls.length := by
  have hmem : ∀ cmd ∈ commands expects calls, cmd.instrumentName ∈ registry.names := by
    intro cmd hcmd
    obtain ⟨call, hcall, rfl⟩ := List.mem_map.mp hcmd
    exact hregistered call hcall
  have hnodup : registry.names.Nodup := registry.sorted.imp fun hlt => hlt.ne
  have hgroup := Lists.length_group hnodup hmem
  rwa [Lists.group, List.length_flatMap, commands, List.length_map] at hgroup

theorem length_le_block (hregistered : ∀ call ∈ calls, call.1.instrument ∈ registry.names) :
    calls.length ≤ (registry.names.flatMap (instrumentListing (commands expects calls))).length := by
  rw [← @length_group_commands expects registry calls hregistered, List.length_flatMap]
  exact List.sum_le_sum fun inst _ => length_le_instrumentListing _ inst

theorem flatMap_instrumentListing
    (hcovers : ∀ inst ∈ registry.names, (commands expects calls).filter (fun cmd => cmd.instrumentName = inst) ≠ []) :
    registry.names.flatMap (instrumentListing (commands expects calls)) =
      (Lists.group SerializedCommand.instrumentName registry.names (commands expects calls)).map commandListing := by
  rw [Lists.group, List.map_flatMap]
  exact List.flatMap_congr fun inst hinst => instrumentListing_of_ne_nil (hcovers inst hinst)

theorem commandListing_commands_iff (hparsed : ∀ call ∈ calls, call.1.Parsed) :
    (commands expects calls).map commandListing = calls.map listing ↔ ∀ call ∈ calls, call.1.PlainChannel := by
  rw [commands, List.map_map, List.map_inj_left]
  refine forall₂_congr fun call hcall => ?_
  rw [← displayName_eq_spec_iff expects (hparsed call hcall) call.2]
  exact ⟨fun h => congrArg Prod.fst h, fun h => Prod.ext h rfl⟩

theorem covers_iff : (∀ inst ∈ registry.names, (commands expects calls).filter (fun cmd => cmd.instrumentName = inst) ≠ []) ↔
    ∀ inst ∈ registry.names, ∃ call ∈ calls, call.1.instrument = inst := by
  refine forall₂_congr fun inst _ => ?_
  rw [ne_eq, List.filter_eq_nil_iff]
  simp [commands, callCommand]

/-- The results of a block list its calls if and only if the calls are in order. -/
theorem block_lists_iff (hparsed : ∀ call ∈ calls, call.1.Parsed)
    (hregistered : ∀ call ∈ calls, call.1.instrument ∈ registry.names) :
    registry.names.flatMap (instrumentListing (commands expects calls)) = calls.map listing ↔
      BlockInOrder registry calls := by
  have hmem : ∀ cmd ∈ commands expects calls, cmd.instrumentName ∈ registry.names := by
    intro cmd hcmd
    obtain ⟨call, hcall, rfl⟩ := List.mem_map.mp hcmd
    exact hregistered call hcall
  have hsorted : ((commands expects calls).Pairwise fun a b => a.instrumentName ≤ b.instrumentName) ↔
      calls.Pairwise fun left right => left.1.instrument ≤ right.1.instrument := List.pairwise_map
  constructor
  · intro heq
    -- no instrument adds an entry of its own
    have hcovers : ∀ inst ∈ registry.names, (commands expects calls).filter (fun cmd => cmd.instrumentName = inst) ≠ [] := by
      have hlength := Lists.eq_of_sum_le (l := registry.names)
        (fun inst _ => length_le_instrumentListing (commands expects calls) inst) (by
          rw [← List.length_flatMap, heq, List.length_map, length_group_commands hregistered])
      exact fun inst hinst => filter_ne_nil_of_length (hlength inst hinst)
    rw [flatMap_instrumentListing hcovers] at heq
    -- the labels give the instruments back, so the calls are grouped already
    have hinstruments : (Lists.group SerializedCommand.instrumentName registry.names (commands expects calls)).map
        SerializedCommand.instrumentName = calls.map fun call => call.1.instrument := by
      have hlabels := congrArg (List.map fun triple => triple.1.takeWhile (· ≠ (58 : UInt8))) heq
      rw [List.map_map, List.map_map] at hlabels
      refine Eq.trans (List.map_congr_left fun cmd hcmd => ?_) (hlabels.trans (List.map_congr_left fun call hcall => ?_))
      · obtain ⟨inst, -, hcmd⟩ := List.mem_flatMap.mp hcmd
        obtain ⟨call, hcall, rfl⟩ := List.mem_map.mp (List.mem_filter.mp hcmd).1
        exact (takeWhile_displayName expects (hparsed call hcall) call.2).symm
      · exact (hparsed call hcall).instrument.symm
    have hordered : calls.Pairwise fun left right => left.1.instrument ≤ right.1.instrument := by
      have hgrouped : (Lists.group SerializedCommand.instrumentName registry.names (commands expects calls)).Pairwise
          fun a b => a.instrumentName ≤ b.instrumentName := Lists.sorted_group registry.sorted _
      rw [← List.pairwise_map, hinstruments, List.pairwise_map] at hgrouped
      exact hgrouped
    rw [Lists.group_of_sorted registry.sorted (hsorted.mpr hordered) hmem] at heq
    exact ⟨covers_iff.mp hcovers, hordered, (commandListing_commands_iff hparsed).mp heq⟩
  · intro h
    rw [flatMap_instrumentListing (covers_iff.mpr h.covers),
      Lists.group_of_sorted registry.sorted (hsorted.mpr h.sorted) hmem]
    exact (commandListing_commands_iff hparsed).mpr h.plain

end Block

/-! ### What a script lists -/

section Script

variable {Future : Type} {expects : ByteString → ByteString → Bool} {registry : Registry} {future : Nat → Future}

/-- What the results of an operation say. -/
def ScriptOp.results (expects : ByteString → ByteString → Bool) (registry : Registry) (op : ScriptOp) :
    List (ByteString × ByteString × ParamMap) :=
  match op with
  | .call single => single.parse?.toList.map listing
  | .parallel calls =>
      if bufferedCommands expects calls = [] then []
      else registry.names.flatMap (instrumentListing (bufferedCommands expects calls))

theorem dispatchCount_sent (start n : Nat) : RuntimeContext.dispatchCount (fun k => .sent (future k)) start n = n :=
  eq_of_forall_lt_iff fun j => by simp [RuntimeContext.lt_dispatchCount_iff]

theorem call_runOp (ctx : RuntimeContext Future) (op : ScriptOp) :
    (ctx.runOp expects (fun k => .sent (future k)) (op.on registry)).collectedResults.map CallResult.call =
      ctx.collectedResults.map CallResult.call ++ op.results expects registry := by
  cases op with
  | call single =>
      rw [ScriptOp.on, RuntimeContext.runOp, ScriptOp.results, ScriptCall.parse?]
      cases parseFuncName single.funcName with
      | none => simp
      | some name =>
          simp only [RuntimeContext.enqueueCall, RuntimeContext.collectedResults_dispatch, List.map_append]
          rfl
  | parallel calls =>
      rw [ScriptOp.on, RuntimeContext.runOp, RuntimeContext.enqueueBlock, ScriptOp.results]
      split
      · simp
      · rw [RuntimeContext.dispatchBlock_collectedResults, dispatchCount_sent, List.take_length, List.map_append,
          List.map_map]
        exact congrArg (ctx.collectedResults.map CallResult.call ++ ·) (call_blockEntries _ _ _)

theorem call_runScript (future : Nat → Future) (script : List ScriptOp) :
    (RuntimeContext.runScript expects (fun k => .sent (future k)) (script.map (ScriptOp.on registry))).collectedResults.map
      CallResult.call = script.flatMap (ScriptOp.results expects registry) := by
  have hfold : ∀ (script : List ScriptOp) (ctx : RuntimeContext Future),
      ((script.map (ScriptOp.on registry)).foldl (RuntimeContext.runOp expects fun k => .sent (future k)) ctx).collectedResults.map
        CallResult.call = ctx.collectedResults.map CallResult.call ++ script.flatMap (ScriptOp.results expects registry) := by
    intro script
    induction script with
    | nil => simp
    | cons op script ih =>
        intro ctx
        rw [List.map_cons, List.foldl_cons, ih, call_runOp, List.flatMap_cons, List.append_assoc]
  exact hfold script {}

theorem listsCalls_iff (answer : Future → Option CommandResponse) (script : List ScriptOp) :
    ListsCalls expects registry future answer script ↔
      (script.flatMap (ScriptOp.results expects registry)).map some =
        (script.flatMap ScriptOp.calls).map fun call => call.parse?.map listing := by
  have hbooks := RuntimeContext.Books.runScript expects (fun k => .sent (future k)) (script.map (ScriptOp.on registry))
  rw [ListsCalls, ← call_runScript future, ← hbooks.map_processTokensAndWait CallResult.call_populate answer, List.map_map]
  rfl

theorem bufferedCommands_eq (calls : List ScriptCall) :
    bufferedCommands expects calls = commands expects (calls.filterMap ScriptCall.parse?) := by
  rw [bufferedCommands, commands, List.map_filterMap]
  refine List.filterMap_congr fun call _ => ?_
  rw [ScriptCall.command?, ScriptCall.parse?, Option.map_map]
  rfl

theorem map_parse?_eq {calls : List ScriptCall} (hparse : ∀ call ∈ calls, call.parse?.isSome) :
    (calls.map fun call => call.parse?.map listing) = ((calls.filterMap ScriptCall.parse?).map listing).map some := by
  induction calls with
  | nil => rfl
  | cons call calls ih =>
      obtain ⟨parsed, hparsed⟩ := Option.isSome_iff_exists.mp (hparse call List.mem_cons_self)
      rw [List.map_cons, ih fun other hother => hparse other (List.mem_cons_of_mem call hother), List.filterMap_cons, hparsed]
      rfl

/-- Every call of the script that names an instrument names a registered one. -/
def Registered (registry : Registry) (calls : List ScriptCall) : Prop :=
  ∀ call ∈ calls, ∀ name, parseFuncName call.funcName = some name → name.instrument ∈ registry.names

theorem Registered.parsed {calls : List ScriptCall} (h : Registered registry calls) :
    ∀ parsed ∈ calls.filterMap ScriptCall.parse?, parsed.1.instrument ∈ registry.names := by
  intro parsed hmem
  obtain ⟨call, hcall, hparse⟩ := List.mem_filterMap.mp hmem
  obtain ⟨name, hname, rfl⟩ := Option.map_eq_some_iff.mp hparse
  exact h call hcall name hname

theorem parsed_of_mem_filterMap {calls : List ScriptCall} :
    ∀ parsed ∈ calls.filterMap ScriptCall.parse?, parsed.1.Parsed := by
  intro parsed hmem
  obtain ⟨call, _, hparse⟩ := List.mem_filterMap.mp hmem
  exact ScriptCall.parsed_of_parse? hparse

theorem results_parallel {calls : List ScriptCall} (hparse : ∀ call ∈ calls, call.parse?.isSome) (hne : calls ≠ []) :
    (ScriptOp.parallel calls).results expects registry =
      registry.names.flatMap (instrumentListing (commands expects (calls.filterMap ScriptCall.parse?))) := by
  have hbuffer : bufferedCommands expects calls ≠ [] := by
    obtain ⟨call, hcall⟩ := List.exists_mem_of_ne_nil calls hne
    obtain ⟨parsed, hparsed⟩ := Option.isSome_iff_exists.mp (hparse call hcall)
    rw [bufferedCommands_eq]
    exact List.ne_nil_of_mem (List.mem_map_of_mem (List.mem_filterMap.mpr ⟨call, hcall, hparsed⟩))
  rw [ScriptOp.results, if_neg hbuffer, bufferedCommands_eq]

theorem results_eq_iff {op : ScriptOp} (hparse : ∀ call ∈ op.calls, call.parse?.isSome)
    (hregistered : Registered registry op.calls) :
    op.results expects registry = (op.calls.filterMap ScriptCall.parse?).map listing ↔ op.InOrder registry := by
  cases op with
  | call single =>
      have hsome : single.parse?.isSome := hparse single List.mem_cons_self
      have hlist : single.parse?.toList = [single].filterMap ScriptCall.parse? := by
        cases hcall : single.parse? <;> simp [hcall]
      exact iff_of_true (congrArg (List.map listing) hlist) hsome
  | parallel calls =>
      by_cases hne : calls = []
      · subst hne
        exact iff_of_true rfl ⟨hparse, Or.inl rfl⟩
      · change Registered registry calls at hregistered
        rw [@results_parallel _ _ calls hparse hne, ScriptOp.calls,
          block_lists_iff parsed_of_mem_filterMap hregistered.parsed, ScriptOp.InOrder]
        simp only [hne, false_or]
        exact (and_iff_right hparse).symm

theorem length_le_results {op : ScriptOp} (hparse : ∀ call ∈ op.calls, call.parse?.isSome)
    (hregistered : Registered registry op.calls) :
    ((op.calls.filterMap ScriptCall.parse?).map listing).length ≤ (op.results expects registry).length := by
  cases op with
  | call single =>
      rw [(results_eq_iff hparse hregistered).mpr (hparse single List.mem_cons_self)]
  | parallel calls =>
      by_cases hne : calls = []
      · subst hne
        exact Nat.zero_le _
      · rw [@results_parallel _ _ calls hparse hne, List.length_map]
        exact length_le_block hregistered.parsed

theorem parse_of_inOrder {op : ScriptOp} (h : op.InOrder registry) : ∀ call ∈ op.calls, call.parse?.isSome := by
  cases op with
  | call single =>
      intro call hcall
      rw [List.mem_singleton.mp hcall]
      exact h
  | parallel calls => exact h.1

/-- Where every operation lists at least its calls, the operations list the calls of a script exactly when each of them lists its own. -/
theorem entries_list_calls_iff {entries : ScriptOp → List (ByteString × ByteString × ParamMap)} {Good : ScriptOp → Prop}
    {script : List ScriptOp} (hgood : ∀ op ∈ script, Good op → ∀ call ∈ op.calls, call.parse?.isSome)
    (hlength : ∀ op ∈ script, (∀ call ∈ op.calls, call.parse?.isSome) →
      ((op.calls.filterMap ScriptCall.parse?).map listing).length ≤ (entries op).length)
    (hentries : ∀ op ∈ script, (∀ call ∈ op.calls, call.parse?.isSome) →
      (entries op = (op.calls.filterMap ScriptCall.parse?).map listing ↔ Good op)) :
    ((script.flatMap entries).map some = (script.flatMap ScriptOp.calls).map fun call => call.parse?.map listing) ↔
      ∀ op ∈ script, Good op := by
  have hsplit : (∀ op ∈ script, ∀ call ∈ op.calls, call.parse?.isSome) →
      (((script.flatMap entries).map some = (script.flatMap ScriptOp.calls).map fun call => call.parse?.map listing) ↔
        ∀ op ∈ script, Good op) := by
    intro hparse
    have hexpected : (script.flatMap ScriptOp.calls).map (fun call => call.parse?.map listing) =
        (script.flatMap fun op => (op.calls.filterMap ScriptCall.parse?).map listing).map some := by
      rw [List.map_flatMap, List.map_flatMap]
      exact List.flatMap_congr fun op hop => map_parse?_eq (hparse op hop)
    rw [hexpected, (List.map_injective_iff.mpr fun _ _ => Option.some.inj).eq_iff,
      Lists.flatMap_eq_flatMap_iff fun op hop => hlength op hop (hparse op hop)]
    exact forall₂_congr fun op hop => hentries op hop (hparse op hop)
  constructor
  · intro heq
    refine (hsplit fun op hop call hcall => ?_).mp heq
    -- every entry says something, so every call can be parsed
    have hmem : call.parse?.map listing ∈ (script.flatMap entries).map some := by
      rw [heq]
      exact List.mem_map_of_mem (List.mem_flatMap.mpr ⟨op, hop, hcall⟩)
    obtain ⟨triple, -, htriple⟩ := List.mem_map.mp hmem
    cases hparse : call.parse? with
    | none =>
        rw [hparse] at htriple
        contradiction
    | some parsed => rfl
  · intro h
    exact (hsplit fun op hop => hgood op hop (h op hop)).mpr h

/-- The results of a script are its calls in order if and only if every name can be parsed and every block uses every instrument, in the order of their names and with the channels written plainly. -/
theorem script_lists_calls_iff (expects : ByteString → ByteString → Bool) (registry : Registry) (future : Nat → Future)
    (answer : Future → Option CommandResponse) (script : List ScriptOp)
    (hregistered : ∀ op ∈ script, Registered registry op.calls) :
    ListsCalls expects registry future answer script ↔ ∀ op ∈ script, op.InOrder registry := by
  rw [listsCalls_iff]
  refine entries_list_calls_iff (fun op _ => parse_of_inOrder) (fun op hop hparse => ?_) fun op hop hparse => ?_
  · exact length_le_results hparse (hregistered op hop)
  · exact results_eq_iff hparse (hregistered op hop)

end Script

/-! ### Two scripts -/

/-- A call, then a block that uses both instruments. -/
def fullBlock : List ScriptOp :=
  [.call ⟨bytes "Scope:2.READ", .positional []⟩,
    .parallel [⟨bytes "DMM.MEASURE", .positional [.integer 3]⟩, ⟨bytes "Scope:1.READ", .positional []⟩]]

instance (registry : Registry) (calls : List ScriptCall) : Decidable (Registered registry calls) :=
  decidable_of_iff (∀ call ∈ calls, ∀ name ∈ parseFuncName call.funcName, name.instrument ∈ registry.names) Iff.rfl

theorem script_lists_calls_iff_fullBlock :
    ListsCalls (fun _ _ => true) dmmAndScope id (fun _ => some { success := true }) fullBlock ∧
      ∀ op ∈ fullBlock, op.InOrder dmmAndScope := by
  have hlists : ListsCalls (fun _ _ => true) dmmAndScope id (fun _ => some { success := true }) fullBlock := by
    rw [ListsCalls]
    decide +kernel
  exact ⟨hlists, (script_lists_calls_iff _ _ _ _ fullBlock (by decide +kernel)).mp hlists⟩

/-- A block that uses one of two instruments lists a call that the script does not make. -/
theorem script_not_listed_halfBlock :
    Registered dmmAndScope [⟨bytes "Scope.READ", .positional []⟩] ∧
      ¬ ListsCalls (fun _ _ => true) dmmAndScope id (fun _ => some { success := true })
        [.parallel [⟨bytes "Scope.READ", .positional []⟩]] := by
  rw [ListsCalls]
  decide +kernel

end InstrumentServer
