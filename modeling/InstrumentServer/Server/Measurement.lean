import InstrumentServer.Server.RuntimeContext
import InstrumentServer.Server.SyncCoordinator
import InstrumentServer.Server.WorkerLink
import Mathlib.Logic.Relation

/-!
# Measurement runs

Everything that takes part in a measurement: any number of runs (the script of a `measure` request or of a measure job with its monitor), the links to the workers, and the coordinator of the registry. A run has a context and a coordinator of its own; the proxies report to the coordinator of the registry.

The thread of a run is at its script, or it works off the actions of the operation the script just asked for, one access to shared state after the other; when the script of a job has ended, the monitor works off the actions of `process_tokens_and_wait`. The script is arbitrary: a label says which operation comes next. What the registry answers to a lookup is part of the label too, so instruments may come and go; the name of a removed instrument is not used again.

Each run also keeps which commands it dispatched and which barriers it registered and cleared, and the state keeps the answers of `handle_ack`. Nothing reads these records.
-/

namespace InstrumentServer

open Ipc InstrumentWorkerProxy

/-- A future: the proxy that made it and its promise there. -/
abbrev FutureRef : Type := ByteString × PromiseId

inductive RunAction where
  /-- enqueue mode: record a placeholder and send the command; `held` if the worker was looked up before -/
  | dispatch (token : SyncToken) (entry : BlockEntry) (held : Bool)
  /-- `process_tokens_and_wait` waits for a future -/
  | await (token : SyncToken) (i : Nat) (future : FutureRef)
  | release (token : SyncToken) (inst : ByteString)
  | clear (token : SyncToken)
  /-- synchronous mode: send the command and keep its future -/
  | send (cmd : SerializedCommand)
  /-- `call` waits for its future -/
  | awaitCall (name : CallName) (params : ParamMap)
  /-- `execute_parallel_buffer` waits for its futures -/
  | awaitBlock

inductive RunPhase where
  | script
  | monitor
  | done
  | failed
deriving DecidableEq

/-- A command of a run, with its promise if a worker was found. -/
structure Dispatched where
  token : SyncToken
  entry : BlockEntry
  promise : Option PromiseId

def Dispatched.inst (d : Dispatched) : ByteString := d.entry.cmd.instrumentName

structure MeasurementRun where
  ctx : RuntimeContext FutureRef := {}
  coordinator : SyncCoordinator := .empty
  phase : RunPhase := .script
  todo : List RunAction := []
  /-- the call of `execute` the thread is in -/
  inCall : Option FutureRef := none
  /-- the futures of the synchronous path -/
  futures : List FutureRef := []
  dispatched : List Dispatched := []
  registered : List (SyncToken × List ByteString) := []
  cleared : List SyncToken := []

namespace MeasurementRun

/-! ### The operations of a script -/

def registerBarrier (run : MeasurementRun) (token : SyncToken) (instruments : List ByteString) : MeasurementRun :=
  { run with
    coordinator := run.coordinator.registerBarrier token instruments
    registered := run.registered ++ [(token, instruments)] }

def clearBarrier (run : MeasurementRun) (token : SyncToken) : MeasurementRun :=
  { run with coordinator := run.coordinator.clearBarrier token, cleared := run.cleared ++ [token] }

/-- The command of a call outside a block and its placeholder. -/
def callEntry (expects : ByteString → ByteString → Bool) (token : SyncToken) (name : CallName) (args : LuaArgs) :
    BlockEntry where
  cmd := { callCommand expects name args with syncToken := some token, isSyncBarrier := true }
  result := { instrumentName := name.spec, verb := name.verb, params := callParams name args }

/-- Draw the next token, register it for all instruments and go on with the actions. -/
def openToken (run : MeasurementRun) (allInstruments : List ByteString) (todo : List RunAction) : MeasurementRun :=
  { run.registerBarrier run.ctx.nextSyncToken allInstruments with ctx := run.ctx.drawToken allInstruments, todo }

/-- `call` and `parallel` in enqueue mode; `found` is whether the worker of a call is there. -/
def beginEnqueue (expects : ByteString → ByteString → Bool) (run : MeasurementRun) (found : Bool) :
    EnqueueOp → MeasurementRun
  | .call allInstruments call =>
      match parseFuncName call.funcName with
      | none => run
      | some name =>
          if found then
            run.openToken allInstruments
              [.dispatch run.ctx.nextSyncToken (callEntry expects run.ctx.nextSyncToken name call.args) true]
          else run
  | .parallel allInstruments calls =>
      if bufferedCommands expects calls = [] then run
      else
        run.openToken allInstruments
          ((blockEntries run.ctx.nextSyncToken allInstruments (bufferedCommands expects calls)).map fun entry =>
            .dispatch run.ctx.nextSyncToken entry false)

/-- The instruments of a buffer, each at its first command. -/
def participants (buffer : List SerializedCommand) : List ByteString :=
  buffer.foldl (fun insts cmd => if cmd.instrumentName ∈ insts then insts else insts ++ [cmd.instrumentName]) []

/-- `call` and `execute_parallel_buffer` in synchronous mode. -/
def beginSync (expects : ByteString → ByteString → Bool) (run : MeasurementRun) : EnqueueOp → MeasurementRun
  | .call _ call =>
      match parseFuncName call.funcName with
      | none => run
      | some name =>
          { run with
            todo := [.send (callCommand expects name call.args), .awaitCall name (callParams name call.args)] }
  | .parallel _ calls =>
      let buffer := bufferedCommands expects calls
      if buffer = [] then run
      else
        let token := run.ctx.nextSyncToken
        { run.registerBarrier token (participants buffer) with
          ctx := { run.ctx with nextSyncToken := token + 1 }
          todo := (buffer.map fun cmd => .send { cmd with syncToken := some token }) ++ [.awaitBlock] ++
            (participants buffer).map (.release token) ++ [.clear token] }

end MeasurementRun

/-- The instruments of the barrier an operation registers, if it registers one. -/
def EnqueueOp.opened? (expects : ByteString → ByteString → Bool) (enqueueMode found : Bool) :
    EnqueueOp → Option (List ByteString)
  | .call allInstruments single =>
      if enqueueMode && found && (parseFuncName single.funcName).isSome then some allInstruments else none
  | .parallel allInstruments calls =>
      if bufferedCommands expects calls = [] then none
      else if enqueueMode then some allInstruments
      else some (MeasurementRun.participants (bufferedCommands expects calls))

namespace MeasurementRun

/-- The thread is between two operations of the script. -/
def AtScript (run : MeasurementRun) : Prop := run.phase = .script ∧ run.todo.isEmpty ∧ run.inCall = none

instance (run : MeasurementRun) : Decidable run.AtScript :=
  inferInstanceAs (Decidable (run.phase = .script ∧ run.todo.isEmpty ∧ run.inCall = none))

def begin (expects : ByteString → ByteString → Bool) (enqueueMode : Bool) (run : MeasurementRun) (op : EnqueueOp)
    (found : Bool) : Option MeasurementRun :=
  if run.AtScript then
    some (if enqueueMode then run.beginEnqueue expects found op else run.beginSync expects op)
  else none

/-- What `process_tokens_and_wait` does for one token. -/
def tokenActions (ctx : RuntimeContext FutureRef) (token : SyncToken) : List RunAction :=
  ((ctx.tokenFutures token).zipIdx.map fun future => .await token future.2 future.1) ++
    (ctx.tokenInstruments token).map (.release token) ++ [.clear token]

/-- The script ends; only in enqueue mode is there something to wait for. -/
def endScript (enqueueMode : Bool) (run : MeasurementRun) : Option MeasurementRun :=
  if run.AtScript then
    some (if enqueueMode then
      { run with phase := .monitor, todo := run.ctx.tokenOrder.flatMap (tokenActions run.ctx) }
    else { run with phase := .done })
  else none

/-- The script fails; nothing is waited for. -/
def fail (run : MeasurementRun) : Option MeasurementRun :=
  if run.AtScript then some { run with phase := .failed } else none

/-! ### The end of `execute` -/

/-- `execute` returned a future to the action at hand. -/
def sent (run : MeasurementRun) (future : FutureRef) : MeasurementRun :=
  match run.todo with
  | .dispatch token entry _ :: todo =>
      { run with inCall := none, todo, ctx := run.ctx.dispatch token entry.result (.sent future) }
  | .send _ :: todo => { run with inCall := none, todo, futures := run.futures ++ [future] }
  | _ => run

/-- `execute` threw, and the exception leaves the operation. -/
def raised (run : MeasurementRun) : MeasurementRun :=
  match run.todo with
  | .dispatch token entry _ :: _ =>
      { run with inCall := none, todo := [], ctx := run.ctx.dispatch token entry.result .raised }
  | _ => { run with inCall := none, todo := [], futures := [] }

/-- What `call` records in synchronous mode. -/
def recordCall (run : MeasurementRun) (name : CallName) (params : ParamMap) (resp : CommandResponse) : MeasurementRun :=
  { run with
    futures := []
    ctx := run.ctx.record
      { CallResult.populate {} resp with instrumentName := name.spec, verb := name.verb, params } }

/-! ### What an operation does to a run -/

theorem instrumentName_blockEntries {token : SyncToken} {allInstruments : List ByteString} {buffer : List SerializedCommand}
    {entry : BlockEntry} (hentry : entry ∈ blockEntries token allInstruments buffer) :
    entry.cmd.instrumentName ∈ allInstruments := by
  rcases mem_blockEntries hentry with ⟨inst, hinst, rfl⟩ | ⟨last, cmd, -, hinst, rfl⟩
  · exact hinst
  · exact hinst

variable {expects : ByteString → ByteString → Bool} {run : MeasurementRun}

/-- An operation of a job does nothing, or it opens a token and dispatches commands under it. -/
theorem beginEnqueue_cases (found : Bool) (op : EnqueueOp) :
    run.beginEnqueue expects found op = run ∨
      ∃ todo, run.beginEnqueue expects found op = run.openToken op.allInstruments todo ∧
        ∀ action ∈ todo, ∃ entry held, action = .dispatch run.ctx.nextSyncToken entry held ∧
          (held = true ∨ entry.cmd.instrumentName ∈ op.allInstruments) := by
  cases op with
  | call allInstruments single =>
      rw [beginEnqueue]
      split
      · exact Or.inl rfl
      · split
        · refine Or.inr ⟨_, rfl, fun action haction => ?_⟩
          exact ⟨_, true, List.mem_singleton.mp haction, Or.inl rfl⟩
        · exact Or.inl rfl
  | parallel allInstruments calls =>
      rw [beginEnqueue]
      split
      · exact Or.inl rfl
      · refine Or.inr ⟨_, rfl, fun action haction => ?_⟩
        obtain ⟨entry, hentry, rfl⟩ := List.mem_map.mp haction
        exact ⟨entry, false, rfl, Or.inr (instrumentName_blockEntries hentry)⟩

/-- A synchronous operation does nothing, only sends, or registers a barrier and sends. -/
theorem beginSync_cases (op : EnqueueOp) :
    run.beginSync expects op = run ∨
      ∃ todo, (∀ token entry held, .dispatch token entry held ∉ todo) ∧
        (run.beginSync expects op = { run with todo } ∨
          ∃ instruments, run.beginSync expects op =
            { run.registerBarrier run.ctx.nextSyncToken instruments with
              ctx := { run.ctx with nextSyncToken := run.ctx.nextSyncToken + 1 }
              todo }) := by
  cases op with
  | call allInstruments single =>
      rw [beginSync]
      split
      · exact Or.inl rfl
      · exact Or.inr ⟨_, by simp, Or.inl rfl⟩
  | parallel allInstruments calls =>
      simp only [beginSync]
      split
      · exact Or.inl rfl
      · exact Or.inr ⟨_, by simp, Or.inr ⟨_, rfl⟩⟩

theorem dispatched_beginEnqueue (found : Bool) (op : EnqueueOp) :
    (run.beginEnqueue expects found op).dispatched = run.dispatched := by
  rcases run.beginEnqueue_cases found op with heq | ⟨todo, heq, -⟩
  · rw [heq]
  · rw [heq]
    rfl

theorem dispatched_beginSync (op : EnqueueOp) : (run.beginSync expects op).dispatched = run.dispatched := by
  rcases run.beginSync_cases op with heq | ⟨todo, -, heq | ⟨instruments, heq⟩⟩
  · rw [heq]
  · rw [heq]
  · rw [heq]
    rfl

theorem dispatched_sent (future : FutureRef) : (run.sent future).dispatched = run.dispatched := by
  rw [sent]
  split <;> rfl

theorem phase_sent (future : FutureRef) : (run.sent future).phase = run.phase := by
  rw [sent]
  split <;> rfl

theorem dispatched_raised : run.raised.dispatched = run.dispatched := by
  rw [raised]
  split <;> rfl

theorem phase_raised : run.raised.phase = run.phase := by
  rw [raised]
  split <;> rfl

end MeasurementRun

/-! ### The server -/

/-- An acknowledgement that a proxy passed on, and what the coordinator replied. -/
structure AckReply where
  token : SyncToken
  inst : ByteString
  complete : Bool

structure ServerState where
  runs : Nat → MeasurementRun := fun _ => {}
  links : ByteString → WorkerLink
  /-- of the registry, handed to the proxies -/
  coordinator : SyncCoordinator := .empty
  acks : List AckReply := []

inductive ServerLabel where
  | begin (c : Nat) (op : EnqueueOp) (found : Bool)
  | endScript (c : Nat)
  | fail (c : Nat)
  /-- the next action of a run; `found` is whether a worker is there and takes the message -/
  | act (c : Nat) (found : Bool)
  | endCall (c : Nat)
  | timeout (c : Nat)
  | advance (inst : ByteString) (p : PromiseId) (sent : Bool)
  | listen (inst : ByteString)
  | workerReceive (inst : ByteString)
  | workerFinish (inst : ByteString) (plugin : PluginResponse) (delivered : Bool)
  | workerAck (inst : ByteString) (delivered : Bool)
  | stop (inst : ByteString)

namespace ServerState

def setRun (s : ServerState) (c : Nat) (run : MeasurementRun) : ServerState :=
  { s with runs := Function.update s.runs c run }

def setLink (s : ServerState) (inst : ByteString) (l : WorkerLink) : ServerState :=
  { s with links := Function.update s.links inst l }

/-- The thread of a run enters `execute`. -/
def execute (s : ServerState) (c : Nat) (run : MeasurementRun) (cmd : SerializedCommand) : ServerState :=
  let inst := cmd.instrumentName
  (s.setLink inst ((s.links inst).execute cmd)).setRun c
    { run with inCall := some (inst, (s.links inst).proxy.promises) }

def notFound (name : CallName) : CommandResponse where
  success := false
  errorMessage := bytes "Instrument not found: " ++ name.instrument

/-- The command was moved from when `execute_sync` reads its id. -/
def timeoutResponse (inst : ByteString) : CommandResponse where
  instrumentName := inst
  success := false
  errorMessage := bytes "Command timeout"

def act (s : ServerState) (c : Nat) (found : Bool) : Option ServerState :=
  let run := s.runs c
  match run.inCall, run.todo with
  | some _, _ => none
  | none, [] =>
      if run.phase = .monitor then some (s.setRun c { run with phase := .done, ctx := run.ctx.clearTokens }) else none
  | none, .dispatch token entry held :: todo =>
      if held || found then
        let promise := (s.links entry.cmd.instrumentName).proxy.promises
        some (s.execute c { run with dispatched := run.dispatched ++ [⟨token, entry, some promise⟩] } entry.cmd)
      else
        some (s.setRun c
          { run with
            todo
            ctx := run.ctx.dispatch token entry.result .noWorker
            dispatched := run.dispatched ++ [⟨token, entry, none⟩] })
  | none, .await token i future :: todo =>
      match (s.links future.1).proxy.values future.2 with
      | some resp => some (s.setRun c { run with todo, ctx := run.ctx.fill token i (some resp) })
      | none => none
  | none, .release token inst :: todo =>
      let s := s.setRun c { run with todo }
      some (if found then s.setLink inst ((s.links inst).sendSyncContinue token) else s)
  | none, .clear token :: todo => some (s.setRun c { run.clearBarrier token with todo })
  | none, .send cmd :: todo => some (if found then s.execute c run cmd else s.setRun c { run with todo })
  | none, .awaitCall name params :: todo =>
      match run.futures with
      | [] => some (s.setRun c { run.recordCall name params (notFound name) with todo })
      | future :: _ =>
          match (s.links future.1).proxy.values future.2 with
          | some resp => some (s.setRun c { run.recordCall name params resp with todo })
          | none => none
  | none, .awaitBlock :: todo =>
      match run.futures with
      | [] => some (s.setRun c { run with todo })
      | future :: futures =>
          match (s.links future.1).proxy.values future.2 with
          | some resp => some (s.setRun c { run with futures, ctx := run.ctx.record (CallResult.populate {} resp) })
          | none => none

/-- The thread of a run leaves `execute`. -/
def endCall (s : ServerState) (c : Nat) : Option ServerState :=
  match (s.runs c).inCall with
  | none => none
  | some future =>
      match (s.links future.1).proxy.point future.2 with
      | some .returned => some (s.setRun c ((s.runs c).sent future))
      | some .raised => some (s.setRun c (s.runs c).raised)
      | _ => none

/-- `execute_sync` gives up. -/
def timeout (s : ServerState) (c : Nat) : Option ServerState :=
  match (s.runs c).inCall, (s.runs c).todo, (s.runs c).futures with
  | none, .awaitCall name params :: todo, future :: _ =>
      ((s.links future.1).waitTimeout future.2).map fun l =>
        (s.setLink future.1 l).setRun c { (s.runs c).recordCall name params (timeoutResponse future.1) with todo }
  | _, _, _ => none

/-- The listener of a proxy handles a message; a completed barrier is released at this proxy. -/
def listen (N : JsonLibrary) (s : ServerState) (inst : ByteString) : Option ServerState :=
  ((s.links inst).listen N).map fun next =>
    match next.2 with
    | none => s.setLink inst next.1
    | some token =>
        let reply := s.coordinator.handleAck token inst
        { s.setLink inst (if reply.2 then next.1.sendSyncContinue token else next.1) with
          coordinator := reply.1
          acks := s.acks ++ [⟨token, inst, reply.2⟩] }

def step (N : JsonLibrary) (expects : ByteString → ByteString → Bool) (enqueueMode : Nat → Bool) (s : ServerState) :
    ServerLabel → Option ServerState
  | .begin c op found => ((s.runs c).begin expects (enqueueMode c) op found).map (s.setRun c)
  | .endScript c => ((s.runs c).endScript (enqueueMode c)).map (s.setRun c)
  | .fail c => (s.runs c).fail.map (s.setRun c)
  | .act c found => s.act c found
  | .endCall c => s.endCall c
  | .timeout c => s.timeout c
  | .advance inst p sent => ((s.links inst).advance N p sent).map (s.setLink inst)
  | .listen inst => s.listen N inst
  | .workerReceive inst => ((s.links inst).workerReceive N).map (s.setLink inst)
  | .workerFinish inst plugin delivered => ((s.links inst).workerFinish N plugin delivered).map (s.setLink inst)
  | .workerAck inst delivered => ((s.links inst).workerAck delivered).map (s.setLink inst)
  | .stop inst => (s.links inst).stop.map (s.setLink inst)

/-- Every interleaving of the runs, the workers and the listeners; `enqueueMode` says which runs are jobs. -/
def system (N : JsonLibrary) (expects : ByteString → ByteString → Bool) (enqueueMode : Nat → Bool) :
    Transition.System ServerState ServerLabel where
  init := { links := fun instrumentName => { proxy := { instrumentName } } }
  step := step N expects enqueueMode

/-- The instrument the next action looks up to send it a command. -/
def nextLookup? : List RunAction → Option ByteString
  | .dispatch _ entry _ :: _ => some entry.cmd.instrumentName
  | .send cmd :: _ => some cmd.instrumentName
  | _ => none

/-- The registry holds these instruments throughout: every listing and every lookup says so, and no proxy is stopped. -/
def Steady (registry : Registry) (s : ServerState) : ServerLabel → Prop
  | .begin _ op found =>
      op.allInstruments = registry.names ∧ ∀ inst ∈ op.lookup?, found = decide (inst ∈ registry.names)
  | .act c found => ∀ inst ∈ nextLookup? (s.runs c).todo, found = decide (inst ∈ registry.names)
  | .stop _ => False
  | _ => True

instance (registry : Registry) (s : ServerState) (label : ServerLabel) : Decidable (Steady registry s label) :=
  match label with
  | .begin _ op found => inferInstanceAs (Decidable (op.allInstruments = registry.names ∧
      ∀ inst ∈ op.lookup?, found = decide (inst ∈ registry.names)))
  | .act c found => inferInstanceAs (Decidable (∀ inst ∈ nextLookup? (s.runs c).todo, found = decide (inst ∈ registry.names)))
  | .stop _ => inferInstanceAs (Decidable False)
  | .endScript _ | .fail _ | .endCall _ | .timeout _ | .advance _ _ _ | .listen _ | .workerReceive _
  | .workerFinish _ _ _ | .workerAck _ _ => inferInstanceAs (Decidable True)

theorem Steady.ne_stop {registry : Registry} {s : ServerState} {label : ServerLabel} (h : Steady registry s label)
    (inst : ByteString) : label ≠ .stop inst := by
  rintro rfl
  exact h

/-! ### What a step does to a run -/

/-- The ways a step can change run `c`, with what it found at the links. -/
inductive RunMove (expects : ByteString → ByteString → Bool) (enqueueMode : Bool) (s t : ServerState) (c : Nat)
    (run : MeasurementRun) : ServerLabel → MeasurementRun → Prop where
  | rest (label : ServerLabel) : RunMove expects enqueueMode s t c run label run
  | beginEnqueue (hmode : enqueueMode = true) (hscript : run.AtScript) (op : EnqueueOp) (found : Bool) :
      RunMove expects enqueueMode s t c run (.begin c op found) (run.beginEnqueue expects found op)
  | beginSync (hmode : enqueueMode = false) (hscript : run.AtScript) (op : EnqueueOp) (found : Bool) :
      RunMove expects enqueueMode s t c run (.begin c op found) (run.beginSync expects op)
  | monitor (hmode : enqueueMode = true) (hscript : run.AtScript) :
      RunMove expects enqueueMode s t c run (.endScript c)
        { run with phase := .monitor, todo := run.ctx.tokenOrder.flatMap (MeasurementRun.tokenActions run.ctx) }
  | done (hmode : enqueueMode = false) (hscript : run.AtScript) :
      RunMove expects enqueueMode s t c run (.endScript c) { run with phase := .done }
  | fail (hscript : run.AtScript) : RunMove expects enqueueMode s t c run (.fail c) { run with phase := .failed }
  | finish {found : Bool} (hcall : run.inCall = none) (htodo : run.todo = []) (hphase : run.phase = .monitor) :
      RunMove expects enqueueMode s t c run (.act c found) { run with phase := .done, ctx := run.ctx.clearTokens }
  | dispatch {token : SyncToken} {entry : BlockEntry} {held found : Bool} {todo : List RunAction}
      (hcall : run.inCall = none) (htodo : run.todo = .dispatch token entry held :: todo)
      (hlink : t.links entry.cmd.instrumentName = (s.links entry.cmd.instrumentName).execute entry.cmd) :
      RunMove expects enqueueMode s t c run (.act c found)
        { run with
          inCall := some (entry.cmd.instrumentName, (s.links entry.cmd.instrumentName).proxy.promises)
          dispatched := run.dispatched ++
            [⟨token, entry, some (s.links entry.cmd.instrumentName).proxy.promises⟩] }
  | noWorker {token : SyncToken} {entry : BlockEntry} {todo : List RunAction}
      (hcall : run.inCall = none) (htodo : run.todo = .dispatch token entry false :: todo) :
      RunMove expects enqueueMode s t c run (.act c false)
        { run with
          todo
          ctx := run.ctx.dispatch token entry.result .noWorker
          dispatched := run.dispatched ++ [⟨token, entry, none⟩] }
  | await {token : SyncToken} {i : Nat} {future : FutureRef} {todo : List RunAction} {resp : CommandResponse}
      {found : Bool} (hcall : run.inCall = none) (htodo : run.todo = .await token i future :: todo)
      (hvalue : (s.links future.1).proxy.values future.2 = some resp) :
      RunMove expects enqueueMode s t c run (.act c found) { run with todo, ctx := run.ctx.fill token i (some resp) }
  | release {token : SyncToken} {inst : ByteString} {todo : List RunAction} {found : Bool}
      (hcall : run.inCall = none) (htodo : run.todo = .release token inst :: todo) :
      RunMove expects enqueueMode s t c run (.act c found) { run with todo }
  | clear {token : SyncToken} {todo : List RunAction} {found : Bool}
      (hcall : run.inCall = none) (htodo : run.todo = .clear token :: todo) :
      RunMove expects enqueueMode s t c run (.act c found) { run.clearBarrier token with todo }
  | send {cmd : SerializedCommand} {todo : List RunAction} {found : Bool}
      (hcall : run.inCall = none) (htodo : run.todo = .send cmd :: todo) :
      RunMove expects enqueueMode s t c run (.act c found)
        { run with inCall := some (cmd.instrumentName, (s.links cmd.instrumentName).proxy.promises) }
  | skip {cmd : SerializedCommand} {todo : List RunAction} {found : Bool}
      (hcall : run.inCall = none) (htodo : run.todo = .send cmd :: todo) :
      RunMove expects enqueueMode s t c run (.act c found) { run with todo }
  | recordCall {name : CallName} {params : ParamMap} {todo : List RunAction} {label : ServerLabel}
      (hcall : run.inCall = none) (htodo : run.todo = .awaitCall name params :: todo) (resp : CommandResponse) :
      RunMove expects enqueueMode s t c run label { run.recordCall name params resp with todo }
  | recordBlock {future : FutureRef} {futures : List FutureRef} {todo : List RunAction} {found : Bool}
      (hcall : run.inCall = none) (htodo : run.todo = .awaitBlock :: todo) (hfutures : run.futures = future :: futures)
      (resp : CommandResponse) :
      RunMove expects enqueueMode s t c run (.act c found)
        { run with futures, ctx := run.ctx.record (CallResult.populate {} resp) }
  | endBlock {todo : List RunAction} {found : Bool} (hcall : run.inCall = none) (htodo : run.todo = .awaitBlock :: todo) :
      RunMove expects enqueueMode s t c run (.act c found) { run with todo }
  | sent {future : FutureRef} (hcall : run.inCall = some future)
      (hpoint : (s.links future.1).proxy.point future.2 = some .returned) :
      RunMove expects enqueueMode s t c run (.endCall c) (run.sent future)
  | raised {future : FutureRef} (hcall : run.inCall = some future)
      (hpoint : (s.links future.1).proxy.point future.2 = some .raised) :
      RunMove expects enqueueMode s t c run (.endCall c) run.raised

section Moves

variable {N : JsonLibrary} {expects : ByteString → ByteString → Bool} {enqueueMode : Nat → Bool} {s t : ServerState}

/-- A step of run `c'` leaves the other runs alone. -/
theorem runMove_setRun {c c' : Nat} {run : MeasurementRun} {label : ServerLabel} (hruns : t.runs = Function.update s.runs c' run)
    (hmove : c = c' → RunMove expects (enqueueMode c) s t c (s.runs c) label run) :
    RunMove expects (enqueueMode c) s t c (s.runs c) label (t.runs c) := by
  rw [hruns]
  by_cases hc : c = c'
  · subst hc
    rw [Function.update_self]
    exact hmove rfl
  · rw [Function.update_of_ne hc]
    exact .rest label

theorem timeout_cases {c : Nat} (hnext : s.timeout c = some t) :
    ∃ name params todo, ∃ future : FutureRef, ∃ l, (s.runs c).inCall = none ∧
      (s.runs c).todo = .awaitCall name params :: todo ∧
      (s.links future.1).waitTimeout future.2 = some l ∧
      t = (s.setLink future.1 l).setRun c
        { (s.runs c).recordCall name params (timeoutResponse future.1) with todo } := by
  rw [timeout] at hnext
  split at hnext
  · rename_i name params todo future _ hcall htodo _
    obtain ⟨l, hl, rfl⟩ := Option.map_eq_some_iff.mp hnext
    exact ⟨name, params, todo, future, l, hcall, htodo, hl, rfl⟩
  · contradiction

theorem endCall_cases {c : Nat} (hnext : s.endCall c = some t) :
    ∃ future, (s.runs c).inCall = some future ∧
      ((s.links future.1).proxy.point future.2 = some .returned ∧ t = s.setRun c ((s.runs c).sent future) ∨
        (s.links future.1).proxy.point future.2 = some .raised ∧ t = s.setRun c (s.runs c).raised) := by
  rw [endCall] at hnext
  split at hnext
  · contradiction
  · rename_i future hcall
    refine ⟨future, hcall, ?_⟩
    split at hnext
    · rename_i hpoint
      exact Or.inl ⟨hpoint, (Option.some.inj hnext).symm⟩
    · rename_i hpoint
      exact Or.inr ⟨hpoint, (Option.some.inj hnext).symm⟩
    · contradiction

theorem act_runMove {c' : Nat} {found : Bool} (hnext : s.act c' found = some t) (c : Nat) :
    RunMove expects (enqueueMode c) s t c (s.runs c) (.act c' found) (t.runs c) := by
  rw [act] at hnext
  dsimp only at hnext
  split at hnext
  · contradiction
  · rename_i hcall htodo
    obtain ⟨hphase, heq⟩ := Option.ite_none_right_eq_some.mp hnext
    obtain rfl := Option.some.inj heq
    refine runMove_setRun rfl fun hc => ?_
    subst hc
    exact .finish hcall htodo hphase
  · rename_i token entry held todo hcall htodo
    split at hnext
    · obtain rfl := Option.some.inj hnext
      refine runMove_setRun rfl fun hc => ?_
      subst hc
      exact .dispatch hcall htodo (Function.update_self ..)
    · rename_i hfound
      obtain ⟨rfl, rfl⟩ : held = false ∧ found = false := by simpa using hfound
      obtain rfl := Option.some.inj hnext
      refine runMove_setRun rfl fun hc => ?_
      subst hc
      exact .noWorker hcall htodo
  · rename_i token i future todo hcall htodo
    split at hnext
    · rename_i resp hvalue
      obtain rfl := Option.some.inj hnext
      refine runMove_setRun rfl fun hc => ?_
      subst hc
      exact .await hcall htodo hvalue
    · contradiction
  · rename_i token inst todo hcall htodo
    obtain rfl := Option.some.inj hnext
    refine @runMove_setRun _ _ s _ c c' { s.runs c' with todo } _ ?_ fun hc => ?_
    · split <;> rfl
    · subst hc
      exact .release hcall htodo
  · rename_i token todo hcall htodo
    obtain rfl := Option.some.inj hnext
    refine runMove_setRun rfl fun hc => ?_
    subst hc
    exact .clear hcall htodo
  · rename_i cmd todo hcall htodo
    obtain rfl := Option.some.inj hnext
    split
    · refine runMove_setRun rfl fun hc => ?_
      subst hc
      exact .send hcall htodo
    · refine runMove_setRun rfl fun hc => ?_
      subst hc
      exact .skip hcall htodo
  · rename_i name params todo hcall htodo
    split at hnext
    · obtain rfl := Option.some.inj hnext
      refine runMove_setRun rfl fun hc => ?_
      subst hc
      exact .recordCall hcall htodo _
    · split at hnext
      · obtain rfl := Option.some.inj hnext
        refine runMove_setRun rfl fun hc => ?_
        subst hc
        exact .recordCall hcall htodo _
      · contradiction
  · rename_i todo hcall htodo
    split at hnext
    · obtain rfl := Option.some.inj hnext
      refine runMove_setRun rfl fun hc => ?_
      subst hc
      exact .endBlock hcall htodo
    · rename_i future futures hfutures
      split at hnext
      · obtain rfl := Option.some.inj hnext
        refine runMove_setRun rfl fun hc => ?_
        subst hc
        exact .recordBlock hcall htodo hfutures _
      · contradiction

theorem step_runMove {label : ServerLabel} (hnext : s.step N expects enqueueMode label = some t) (c : Nat) :
    RunMove expects (enqueueMode c) s t c (s.runs c) label (t.runs c) := by
  cases label with
  | begin c' op found =>
      obtain ⟨run, hrun, rfl⟩ := Option.map_eq_some_iff.mp hnext
      refine runMove_setRun rfl fun hc => ?_
      subst hc
      obtain ⟨hscript, heq⟩ := Option.ite_none_right_eq_some.mp hrun
      obtain rfl := Option.some.inj heq
      split
      · rename_i hmode
        exact .beginEnqueue hmode hscript op found
      · rename_i hmode
        exact .beginSync (by simpa using hmode) hscript op found
  | endScript c' =>
      obtain ⟨run, hrun, rfl⟩ := Option.map_eq_some_iff.mp hnext
      refine runMove_setRun rfl fun hc => ?_
      subst hc
      obtain ⟨hscript, heq⟩ := Option.ite_none_right_eq_some.mp hrun
      obtain rfl := Option.some.inj heq
      split
      · rename_i hmode
        exact .monitor hmode hscript
      · rename_i hmode
        exact .done (by simpa using hmode) hscript
  | fail c' =>
      obtain ⟨run, hrun, rfl⟩ := Option.map_eq_some_iff.mp hnext
      refine runMove_setRun rfl fun hc => ?_
      subst hc
      obtain ⟨hscript, heq⟩ := Option.ite_none_right_eq_some.mp hrun
      obtain rfl := Option.some.inj heq
      exact .fail hscript
  | act c' found => exact act_runMove hnext c
  | endCall c' =>
      obtain ⟨future, hcall, ⟨hpoint, rfl⟩ | ⟨hpoint, rfl⟩⟩ := endCall_cases hnext
      · refine runMove_setRun rfl fun hc => ?_
        subst hc
        exact .sent hcall hpoint
      · refine runMove_setRun rfl fun hc => ?_
        subst hc
        exact .raised hcall hpoint
  | timeout c' =>
      obtain ⟨name, params, todo, future, l, hcall, htodo, -, rfl⟩ := timeout_cases hnext
      refine runMove_setRun rfl fun hc => ?_
      subst hc
      exact .recordCall hcall htodo _
  | advance inst p sent =>
      obtain ⟨l, -, rfl⟩ := Option.map_eq_some_iff.mp hnext
      exact .rest _
  | listen inst =>
      obtain ⟨next, -, rfl⟩ := Option.map_eq_some_iff.mp hnext
      split <;> exact .rest _
  | workerReceive inst =>
      obtain ⟨l, -, rfl⟩ := Option.map_eq_some_iff.mp hnext
      exact .rest _
  | workerFinish inst plugin delivered =>
      obtain ⟨l, -, rfl⟩ := Option.map_eq_some_iff.mp hnext
      exact .rest _
  | workerAck inst delivered =>
      obtain ⟨l, -, rfl⟩ := Option.map_eq_some_iff.mp hnext
      exact .rest _
  | stop inst =>
      obtain ⟨l, -, rfl⟩ := Option.map_eq_some_iff.mp hnext
      exact .rest _

/-! ### What a step does to the barriers of a run -/

/-- The ways a step can change the barriers of run `c`. -/
inductive BarrierMove (expects : ByteString → ByteString → Bool) (enqueueMode : Bool) (c : Nat) (run : MeasurementRun) :
    ServerLabel → MeasurementRun → Prop where
  | keep {label : ServerLabel} {run' : MeasurementRun} (hnext : run'.ctx.nextSyncToken = run.ctx.nextSyncToken)
      (hcoordinator : run'.coordinator = run.coordinator) (hregistered : run'.registered = run.registered)
      (hcleared : run'.cleared = run.cleared) : BarrierMove expects enqueueMode c run label run'
  | register {op : EnqueueOp} {found : Bool} {instruments : List ByteString} {run' : MeasurementRun}
      (hscript : run.AtScript) (hopened : op.opened? expects enqueueMode found = some instruments)
      (hnext : run'.ctx.nextSyncToken = run.ctx.nextSyncToken + 1)
      (hcoordinator : run'.coordinator = run.coordinator.registerBarrier run.ctx.nextSyncToken instruments)
      (hregistered : run'.registered = run.registered ++ [(run.ctx.nextSyncToken, instruments)])
      (hcleared : run'.cleared = run.cleared) : BarrierMove expects enqueueMode c run (.begin c op found) run'
  | clear {token : SyncToken} {found : Bool} {todo : List RunAction} (hcall : run.inCall = none)
      (htodo : run.todo = .clear token :: todo) :
      BarrierMove expects enqueueMode c run (.act c found) { run.clearBarrier token with todo }

theorem barrierMove_beginEnqueue {c : Nat} {run : MeasurementRun} (hscript : run.AtScript) (found : Bool) (op : EnqueueOp) :
    BarrierMove expects true c run (.begin c op found) (run.beginEnqueue expects found op) := by
  cases op with
  | call allInstruments single =>
      rw [MeasurementRun.beginEnqueue]
      split
      · exact .keep rfl rfl rfl rfl
      · rename_i name hname
        split
        · rename_i hfound
          exact .register hscript (by simp [EnqueueOp.opened?, hname, hfound]) rfl rfl rfl rfl
        · exact .keep rfl rfl rfl rfl
  | parallel allInstruments calls =>
      rw [MeasurementRun.beginEnqueue]
      split
      · exact .keep rfl rfl rfl rfl
      · rename_i hbuffer
        exact .register hscript (by simp [EnqueueOp.opened?, hbuffer]) rfl rfl rfl rfl

theorem barrierMove_beginSync {c : Nat} {run : MeasurementRun} (hscript : run.AtScript) (found : Bool) (op : EnqueueOp) :
    BarrierMove expects false c run (.begin c op found) (run.beginSync expects op) := by
  cases op with
  | call allInstruments single =>
      rw [MeasurementRun.beginSync]
      split <;> exact .keep rfl rfl rfl rfl
  | parallel allInstruments calls =>
      rw [MeasurementRun.beginSync]
      dsimp only
      split
      · exact .keep rfl rfl rfl rfl
      · rename_i hbuffer
        exact .register hscript (by simp [EnqueueOp.opened?, hbuffer]) rfl rfl rfl rfl

theorem RunMove.barrierMove {mode : Bool} {c : Nat} {run run' : MeasurementRun} {label : ServerLabel}
    (hmove : RunMove expects mode s t c run label run') : BarrierMove expects mode c run label run' := by
  cases hmove with
  | beginEnqueue hmode hscript op found =>
      rw [hmode]
      exact barrierMove_beginEnqueue hscript found op
  | beginSync hmode hscript op found =>
      rw [hmode]
      exact barrierMove_beginSync hscript found op
  | clear hcall htodo => exact .clear hcall htodo
  | sent hcall hpoint =>
      rw [MeasurementRun.sent]
      split
      · exact .keep (RuntimeContext.nextSyncToken_dispatch _ _ _ _) rfl rfl rfl
      · exact .keep rfl rfl rfl rfl
      · exact .keep rfl rfl rfl rfl
  | raised hcall hpoint =>
      rw [MeasurementRun.raised]
      split
      · exact .keep (RuntimeContext.nextSyncToken_dispatch _ _ _ _) rfl rfl rfl
      · exact .keep rfl rfl rfl rfl
  | noWorker hcall htodo => exact .keep (RuntimeContext.nextSyncToken_dispatch _ _ _ _) rfl rfl rfl
  | await hcall htodo hvalue => exact .keep (RuntimeContext.nextSyncToken_fill _ _ _ _) rfl rfl rfl
  | rest | monitor | done | fail | finish | dispatch | release | send | skip | recordCall | recordBlock | endBlock =>
      exact .keep rfl rfl rfl rfl

theorem step_barrierMove {label : ServerLabel} (hnext : s.step N expects enqueueMode label = some t) (c : Nat) :
    BarrierMove expects (enqueueMode c) c (s.runs c) label (t.runs c) :=
  (step_runMove hnext c).barrierMove

/-! ### What a step does to a link -/

/-- The steps of a link that one step of the system takes, `stop` apart. -/
abbrev LinkMove (N : JsonLibrary) : WorkerLink → WorkerLink → Prop := Relation.ReflTransGen (WorkerLink.Step N)

theorem linkMove_setLink {inst : ByteString} {l : WorkerLink} (hlinks : t.links = Function.update s.links inst l)
    (hmove : LinkMove N (s.links inst) l) (inst' : ByteString) : LinkMove N (s.links inst') (t.links inst') := by
  rw [hlinks]
  by_cases hinst : inst' = inst
  · subst hinst
    rwa [Function.update_self]
  · rw [Function.update_of_ne hinst]

/-- An action moves links and leaves the coordinator of the registry alone. -/
theorem act_effects {c : Nat} {found : Bool} (hnext : s.act c found = some t) :
    (t.coordinator = s.coordinator ∧ t.acks = s.acks) ∧ ∀ inst, LinkMove N (s.links inst) (t.links inst) := by
  have hkept : ∀ run, ((s.setRun c run).coordinator = s.coordinator ∧ (s.setRun c run).acks = s.acks) ∧
      ∀ inst, LinkMove N (s.links inst) ((s.setRun c run).links inst) := fun run => ⟨⟨rfl, rfl⟩, fun _ => .refl⟩
  have hexecute : ∀ run cmd, ((s.execute c run cmd).coordinator = s.coordinator ∧ (s.execute c run cmd).acks = s.acks) ∧
      ∀ inst, LinkMove N (s.links inst) ((s.execute c run cmd).links inst) :=
    fun run cmd => ⟨⟨rfl, rfl⟩, linkMove_setLink rfl (.single (.execute cmd))⟩
  rw [act] at hnext
  dsimp only at hnext
  split at hnext
  · contradiction
  · obtain ⟨-, heq⟩ := Option.ite_none_right_eq_some.mp hnext
    obtain rfl := Option.some.inj heq
    exact hkept _
  · split at hnext
    · obtain rfl := Option.some.inj hnext
      exact hexecute _ _
    · obtain rfl := Option.some.inj hnext
      exact hkept _
  · split at hnext
    · obtain rfl := Option.some.inj hnext
      exact hkept _
    · contradiction
  · obtain rfl := Option.some.inj hnext
    split
    · exact ⟨⟨rfl, rfl⟩, linkMove_setLink rfl (.single (.sendSyncContinue _))⟩
    · exact hkept _
  · obtain rfl := Option.some.inj hnext
    exact hkept _
  · obtain rfl := Option.some.inj hnext
    split
    · exact hexecute _ _
    · exact hkept _
  · split at hnext
    · obtain rfl := Option.some.inj hnext
      exact hkept _
    · split at hnext
      · obtain rfl := Option.some.inj hnext
        exact hkept _
      · contradiction
  · split at hnext
    · obtain rfl := Option.some.inj hnext
      exact hkept _
    · split at hnext
      · obtain rfl := Option.some.inj hnext
        exact hkept _
      · contradiction

theorem step_linkMove {label : ServerLabel} (hnext : s.step N expects enqueueMode label = some t)
    (hstop : ∀ inst, label ≠ .stop inst) (inst : ByteString) : LinkMove N (s.links inst) (t.links inst) := by
  cases label with
  | begin c op found =>
      obtain ⟨run, -, rfl⟩ := Option.map_eq_some_iff.mp hnext
      exact .refl
  | endScript c =>
      obtain ⟨run, -, rfl⟩ := Option.map_eq_some_iff.mp hnext
      exact .refl
  | fail c =>
      obtain ⟨run, -, rfl⟩ := Option.map_eq_some_iff.mp hnext
      exact .refl
  | act c found => exact (act_effects hnext).2 inst
  | endCall c =>
      obtain ⟨_, -, ⟨-, rfl⟩ | ⟨-, rfl⟩⟩ := endCall_cases hnext
      · exact .refl
      · exact .refl
  | timeout c =>
      obtain ⟨_, _, _, _, l, -, -, hl, rfl⟩ := timeout_cases hnext
      exact linkMove_setLink rfl (.single (.waitTimeout hl)) inst
  | advance inst' p sent =>
      obtain ⟨l, hl, rfl⟩ := Option.map_eq_some_iff.mp hnext
      exact linkMove_setLink rfl (.single (.advance hl)) inst
  | listen inst' =>
      obtain ⟨⟨l, token⟩, hl, rfl⟩ := Option.map_eq_some_iff.mp hnext
      have hlisten : LinkMove N (s.links inst') l := .single (.listen hl)
      cases token with
      | none => exact linkMove_setLink rfl hlisten inst
      | some token =>
          refine linkMove_setLink rfl ?_ inst
          split
          · exact hlisten.tail (.sendSyncContinue token)
          · exact hlisten
  | workerReceive inst' =>
      obtain ⟨l, hl, rfl⟩ := Option.map_eq_some_iff.mp hnext
      exact linkMove_setLink rfl (.single (.workerReceive hl)) inst
  | workerFinish inst' plugin delivered =>
      obtain ⟨l, hl, rfl⟩ := Option.map_eq_some_iff.mp hnext
      exact linkMove_setLink rfl (.single (.workerFinish hl)) inst
  | workerAck inst' delivered =>
      obtain ⟨l, hl, rfl⟩ := Option.map_eq_some_iff.mp hnext
      exact linkMove_setLink rfl (.single (.workerAck hl)) inst
  | stop inst' => exact absurd rfl (hstop inst')

theorem linkInv_of_move {l l' : WorkerLink} (h : LinkInv N l) (hmove : LinkMove N l l') : LinkInv N l' := by
  induction hmove with
  | refl => exact h
  | tail _ hstep ih => exact ih.step hstep

theorem grows_of_move {l l' : WorkerLink} (h : LinkInv N l) (hmove : LinkMove N l l') : l.Grows l' := by
  induction hmove with
  | refl => exact .refl l
  | tail hmove hstep ih => exact ih.trans ((linkInv_of_move h hmove).grows hstep)

/-- The records of every link are right, whatever the runs do. -/
theorem linkInv_of_reachable (hreach : Transition.Reachable (system N expects enqueueMode) s) (inst : ByteString) :
    LinkInv N (s.links inst) := by
  have hall : ∀ inst, LinkInv N (s.links inst) := by
    refine @Transition.Reachable.invariant _ _ _ (fun s => ∀ inst, LinkInv N (s.links inst))
      (fun inst => LinkInv.init N inst) (fun s t label h hnext inst => ?_) s hreach
    by_cases hstop : ∃ inst', label = .stop inst'
    · obtain ⟨inst', rfl⟩ := hstop
      obtain ⟨l, hl, rfl⟩ := Option.map_eq_some_iff.mp hnext
      show LinkInv N (Function.update s.links inst' l inst)
      by_cases hinst : inst = inst'
      · subst hinst
        rw [Function.update_self]
        exact (h inst).stop hl
      · rw [Function.update_of_ne hinst]
        exact h inst
    · exact linkInv_of_move (h inst) (step_linkMove hnext (fun inst' heq => hstop ⟨inst', heq⟩) inst)
  exact hall inst

end Moves

/-! ### Parts of runs -/

/-- One command of the run is executed and acknowledged. -/
def executedOn (inst : ByteString) : List ServerLabel :=
  [.workerReceive inst, .workerFinish inst { PluginResponse.zero with success := true } true, .workerAck inst true,
    .listen inst, .listen inst]

/-- A command on its way: `execute` is entered, runs through and returns. -/
def sentTo (c : Nat) (inst : ByteString) (p : PromiseId) : List ServerLabel :=
  [.act c true, .advance inst p true, .advance inst p true, .advance inst p true, .advance inst p true, .endCall c]

end ServerState

end InstrumentServer
