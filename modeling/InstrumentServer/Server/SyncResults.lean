import InstrumentServer.Server.ResultOrder
import InstrumentServer.Server.Measurement

/-!
# Results of a synchronous script

A context that is not in enqueue mode sends a command and waits for it before the script goes on. A call outside a block records the response together with the instrument, the verb and the parameters of the call. `execute_parallel_buffer` hands the commands of a block over to the proxies and records the responses alone: its entries say nothing about their calls. This module says for which scripts the results still list the calls.

What becomes of the `k`-th command is a parameter. Which worker is there is decided by the registry, which stays as it is during the script.
-/

namespace InstrumentServer

open ByteString

/-- What becomes of a command that was handed to a proxy. -/
inductive SyncOutcome where
  | answered (resp : CommandResponse)
  /-- the future threw -/
  | lost
  /-- `execute` threw -/
  | raised
deriving DecidableEq

def SyncOutcome.response? : SyncOutcome → Option CommandResponse
  | .answered resp => some resp
  | .lost | .raised => none

/-- The context of a script and the number of commands it has come to so far. -/
structure SyncScript (Future : Type) where
  ctx : RuntimeContext Future := {}
  commands : Nat := 0

namespace SyncScript

variable {Future : Type} (expects : ByteString → ByteString → Bool) (registry : Registry) (outcome : Nat → SyncOutcome)

/-- `send_command`: without a worker there is a response that says so, and an exception leaves `call`. -/
def sendCommand (k : Nat) (name : CallName) : Option CommandResponse :=
  if name.instrument ∈ registry.names then (outcome k).response? else some (ServerState.notFound name)

/-- `call` outside a block. -/
def call (s : SyncScript Future) (name : CallName) (args : LuaArgs) : SyncScript Future where
  commands := s.commands + 1
  ctx :=
    match sendCommand registry outcome s.commands name with
    | some resp =>
        s.ctx.record
          { CallResult.populate {} resp with
            instrumentName := name.spec
            verb := name.verb
            params := callParams name args }
    | none => s.ctx

/-- The responses of a block in the order of its commands. A command without a worker is skipped, a future that throws leaves nothing behind, and an exception of `execute` leaves the block before any response is waited for. -/
def blockResponses (k : Nat) (buffer : List SerializedCommand) : List CommandResponse :=
  let sent := (buffer.zipIdx k).filter fun cmd => cmd.1.instrumentName ∈ registry.names
  if sent.any fun cmd => outcome cmd.2 = .raised then [] else sent.filterMap fun cmd => (outcome cmd.2).response?

/-- `execute_parallel_buffer` -/
def executeParallelBuffer (s : SyncScript Future) (buffer : List SerializedCommand) : SyncScript Future :=
  if buffer = [] then s
  else
    { commands := s.commands + buffer.length
      ctx :=
        (blockResponses registry outcome s.commands buffer).foldl (fun ctx resp => ctx.record (CallResult.populate {} resp))
          { s.ctx with nextSyncToken := s.ctx.nextSyncToken + 1 } }

def runOp (s : SyncScript Future) : ScriptOp → SyncScript Future
  | .call single =>
      match parseFuncName single.funcName with
      | none => s
      | some name => s.call registry outcome name single.args
  | .parallel calls => s.executeParallelBuffer registry outcome (bufferedCommands expects calls)

/-- The context after a script. -/
def run (script : List ScriptOp) : SyncScript Future := script.foldl (runOp expects registry outcome) {}

end SyncScript

/-- The results of a synchronous script are its calls in order, each call once. -/
def TracesCalls (Future : Type) (expects : ByteString → ByteString → Bool) (registry : Registry)
    (answer : Nat → CommandResponse) (script : List ScriptOp) : Prop :=
  (SyncScript.run expects registry (fun k => .answered (answer k)) script : SyncScript Future).ctx.collectedResults.map
      (fun cr => some cr.call) =
    (script.flatMap ScriptOp.calls).map fun call => call.parse?.map listing

/-- What an entry without instrument, verb and parameters says. -/
def blankListing : ByteString × ByteString × ParamMap := ([], [], .empty)

/-- The name of a call outside a block can be parsed, and a call inside a block names nothing and has no parameters. -/
def ScriptOp.Traced : ScriptOp → Prop
  | .call single => single.parse?.isSome
  | .parallel calls => ∀ call ∈ calls, call.parse?.map listing = some blankListing

/-! ### What one operation records -/

section Records

variable {Future : Type} {expects : ByteString → ByteString → Bool} {registry : Registry} {answer : Nat → CommandResponse}

/-- What the results of an operation say about its calls. -/
def ScriptOp.traces : ScriptOp → List (ByteString × ByteString × ParamMap)
  | .call single => (single.parse?.map listing).toList
  | .parallel calls => (calls.filterMap ScriptCall.parse?).map fun _ => blankListing

theorem collectedResults_recordAll (ctx : RuntimeContext Future) (responses : List CommandResponse) :
    (responses.foldl (fun ctx resp => ctx.record (CallResult.populate {} resp)) ctx).collectedResults =
      ctx.collectedResults ++ responses.map fun resp => CallResult.populate {} resp := by
  induction responses generalizing ctx with
  | nil => simp
  | cons resp responses ih =>
      rw [List.foldl_cons, ih]
      simp [RuntimeContext.record]

/-- When every instrument is there and every command answered, a block has a response for each of its commands. -/
theorem length_blockResponses {buffer : List SerializedCommand} (hnames : ∀ cmd ∈ buffer, cmd.instrumentName ∈ registry.names)
    (k : Nat) :
    (SyncScript.blockResponses registry (fun k => .answered (answer k)) k buffer).length = buffer.length := by
  have hall : ((buffer.zipIdx k).filter fun cmd => cmd.1.instrumentName ∈ registry.names) = buffer.zipIdx k := by
    refine List.filter_eq_self.mpr fun cmd hcmd => decide_eq_true (hnames cmd.1 ?_)
    exact List.fst_mem_of_mem_zipIdx hcmd
  rw [SyncScript.blockResponses, hall]
  simp [SyncOutcome.response?]

theorem instrumentName_bufferedCommands {calls : List ScriptCall} (hregistered : Registered registry calls) :
    ∀ cmd ∈ bufferedCommands expects calls, cmd.instrumentName ∈ registry.names := by
  intro cmd hcmd
  obtain ⟨call, hcall, hcommand⟩ := List.mem_filterMap.mp hcmd
  obtain ⟨name, hname, rfl⟩ := Option.map_eq_some_iff.mp hcommand
  exact hregistered call hcall name hname

theorem call_populate_blank (responses : List CommandResponse) :
    (responses.map fun resp => (CallResult.populate {} resp).call) = List.replicate responses.length blankListing := by
  refine List.eq_replicate_iff.mpr ⟨by simp, fun triple htriple => ?_⟩
  obtain ⟨resp, -, rfl⟩ := List.mem_map.mp htriple
  rw [CallResult.call_populate]
  rfl

/-- An operation appends one entry for each of its commands. -/
theorem traces_runOp (s : SyncScript Future) {op : ScriptOp} (hregistered : Registered registry op.calls) :
    (s.runOp expects registry (fun k => .answered (answer k)) op).ctx.collectedResults.map CallResult.call =
      s.ctx.collectedResults.map CallResult.call ++ op.traces := by
  cases op with
  | call single =>
      rw [SyncScript.runOp, ScriptOp.traces, ScriptCall.parse?]
      cases hname : parseFuncName single.funcName with
      | none => simp
      | some name =>
          have hfound : name.instrument ∈ registry.names := hregistered single List.mem_cons_self name hname
          simp [SyncScript.call, SyncScript.sendCommand, hfound, SyncOutcome.response?, RuntimeContext.record,
            CallResult.call, listing]
  | parallel calls =>
      rw [SyncScript.runOp, SyncScript.executeParallelBuffer, ScriptOp.traces]
      have hlength : (bufferedCommands expects calls).length = (calls.filterMap ScriptCall.parse?).length := by
        rw [bufferedCommands_eq, commands, List.length_map]
      split
      · rename_i hempty
        rw [hempty] at hlength
        rw [List.length_eq_zero_iff.mp hlength.symm]
        simp
      · rw [collectedResults_recordAll, List.map_append, List.map_map]
        have hnames : ∀ cmd ∈ bufferedCommands expects calls, cmd.instrumentName ∈ registry.names :=
          instrumentName_bufferedCommands hregistered
        have hblank := call_populate_blank
          (SyncScript.blockResponses registry (fun k => .answered (answer k)) s.commands (bufferedCommands expects calls))
        rw [length_blockResponses hnames, hlength] at hblank
        rw [List.map_const']
        exact congrArg _ hblank

theorem traces_run {script : List ScriptOp} (hregistered : ∀ op ∈ script, Registered registry op.calls) :
    (SyncScript.run expects registry (fun k => .answered (answer k)) script : SyncScript Future).ctx.collectedResults.map
      CallResult.call = script.flatMap ScriptOp.traces := by
  induction script using List.reverseRecOn with
  | nil => rfl
  | append_singleton script op ih =>
      rw [SyncScript.run, List.foldl_append, List.foldl_cons, List.foldl_nil,
        traces_runOp _ (hregistered op (by simp)), List.flatMap_append, List.flatMap_singleton]
      exact congrArg (· ++ op.traces) (ih fun other hother => hregistered other (by simp [hother]))

end Records

/-! ### The condition -/

theorem ScriptOp.Traced.parse {op : ScriptOp} (h : op.Traced) : ∀ call ∈ op.calls, call.parse?.isSome := by
  cases op with
  | call single =>
      intro call hcall
      rw [List.mem_singleton.mp hcall]
      exact h
  | parallel calls =>
      intro call hcall
      have hblank := h call hcall
      cases hparse : call.parse? with
      | none =>
          rw [hparse] at hblank
          contradiction
      | some parsed => rfl

theorem traces_eq_iff {op : ScriptOp} (hparse : ∀ call ∈ op.calls, call.parse?.isSome) :
    op.traces = (op.calls.filterMap ScriptCall.parse?).map listing ↔ op.Traced := by
  cases op with
  | call single =>
      have hsome := hparse single List.mem_cons_self
      obtain ⟨parsed, hparsed⟩ := Option.isSome_iff_exists.mp hsome
      exact iff_of_true (by simp [ScriptOp.traces, ScriptOp.calls, hparsed]) hsome
  | parallel calls =>
      rw [ScriptOp.traces, ScriptOp.calls, List.map_inj_left, ScriptOp.Traced]
      constructor
      · intro h call hcall
        obtain ⟨parsed, hparsed⟩ := Option.isSome_iff_exists.mp (hparse call hcall)
        rw [hparsed, h parsed (List.mem_filterMap.mpr ⟨call, hcall, hparsed⟩)]
        rfl
      · intro h parsed hmem
        obtain ⟨call, hcall, hparsed⟩ := List.mem_filterMap.mp hmem
        have hblank := h call hcall
        rw [hparsed] at hblank
        exact (Option.some.inj hblank).symm

theorem length_traces (op : ScriptOp) : op.traces.length = ((op.calls.filterMap ScriptCall.parse?).map listing).length := by
  cases op with
  | call single => cases hparse : single.parse? <;> simp [ScriptOp.traces, ScriptOp.calls, hparse]
  | parallel calls => simp [ScriptOp.traces, ScriptOp.calls]

/-- The results of a synchronous script are its calls in order if and only if every name can be parsed and the calls inside blocks name nothing and have no parameters. -/
theorem script_traced_iff (Future : Type) (expects : ByteString → ByteString → Bool) (registry : Registry)
    (answer : Nat → CommandResponse) (script : List ScriptOp)
    (hregistered : ∀ op ∈ script, Registered registry op.calls) :
    TracesCalls Future expects registry answer script ↔ ∀ op ∈ script, op.Traced := by
  have hentries : ∀ crs : List CallResult,
      (crs.map fun cr => some cr.call) = (crs.map CallResult.call).map some := fun crs => by
    rw [List.map_map]
    rfl
  rw [TracesCalls, hentries, traces_run hregistered]
  exact entries_list_calls_iff (fun op _ htraced => htraced.parse) (fun op _ _ => (length_traces op).ge)
    fun op _ hparse => traces_eq_iff hparse

/-- A call with a channel and an argument, and a block without calls. -/
def tracedScript : List ScriptOp :=
  [.call ⟨bytes "Scope:2.READ", .positional [.integer 3]⟩, .parallel [], .call ⟨bytes "DMM.MEASURE", .positional []⟩]

theorem script_traced_iff_tracedScript :
    TracesCalls Unit (fun _ _ => true) dmmAndScope (fun _ => { success := true }) tracedScript ∧
      ∀ op ∈ tracedScript, op.Traced := by
  have htraces : TracesCalls Unit (fun _ _ => true) dmmAndScope (fun _ => { success := true }) tracedScript := by
    rw [TracesCalls]
    decide +kernel
  exact ⟨htraces, (script_traced_iff _ _ _ _ tracedScript (by decide +kernel)).mp htraces⟩

/-- The results of a block have no instrument, no verb and no parameters. -/
theorem script_not_traced_fullBlock :
    (∀ op ∈ fullBlock, Registered dmmAndScope op.calls) ∧
      (SyncScript.run (fun _ _ => true) dmmAndScope (fun _ => .answered { success := true }) fullBlock :
        SyncScript Unit).ctx.collectedResults.map CallResult.call =
        [(bytes "Scope:2", bytes "READ", ParamMap.empty.insert (bytes "channel") (.int64 2)), blankListing, blankListing] ∧
      ¬ TracesCalls Unit (fun _ _ => true) dmmAndScope (fun _ => { success := true }) fullBlock := by
  rw [TracesCalls]
  decide +kernel

end InstrumentServer
