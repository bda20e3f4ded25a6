import InstrumentServer.Ipc.SerializedCommand
import InstrumentServer.Lib.Strings
import Mathlib.Algebra.Group.Int.Defs
import Mathlib.Logic.Function.Basic

/-!
# The runtime context of a script

`RuntimeContext` turns the calls of a Lua script into commands. In enqueue mode a call or a parallel block draws a token, records a placeholder for the result of every command it is about to send, and keeps the futures; `processTokensAndWait` then collects the futures token by token into the placeholders.

The bookkeeping is generic in the type of futures. What the outside world decides is a parameter: the instruments `list_instruments` returns, and for every entry of `collected_results_` whether the worker was found and whether `execute` returned a future or threw. Execution times are not modelled.
-/

namespace InstrumentServer

open ByteString

/-! ### The arguments of `context:call` -/

inductive LuaValue where
  | nil
  | boolean (value : Bool)
  | integer (value : Int64)
  | number (value : Double)
  | string (value : ByteString)
  /-- a table among other arguments, a function, a userdata or a thread -/
  | other
deriving DecidableEq

inductive LuaArgs where
  /-- one argument, a table with string keys -/
  | table (entries : List (ByteString × LuaValue))
  | positional (args : List LuaValue)
deriving DecidableEq

/-- One `context:call` of a script. -/
structure ScriptCall where
  funcName : ByteString
  args : LuaArgs
deriving DecidableEq

/-- Every Lua number passes `is<double>`, integers included, so the branch for `int` behind it is not reached. -/
def LuaValue.toParam : LuaValue → Option ParamValue
  | .number value => some (.double value)
  | .integer value => some (.double (Double.ofInt value.toInt))
  | .string value => some (.string value)
  | .boolean value => some (.boolean value)
  | .nil | .other => none

def insertParam (params : ParamMap) (key : ByteString) (value : LuaValue) : ParamMap :=
  match value.toParam with
  | some param => params.insert key param
  | none => params

def LuaArgs.params : LuaArgs → ParamMap
  | .table entries => entries.foldl (fun params entry => insertParam params entry.1 entry.2) .empty
  | .positional args =>
      args.zipIdx.foldl (fun params arg => insertParam params (bytes "arg" ++ decimal arg.2) arg.1) .empty

/-! ### The name of `context:call` -/

/-- What stands before and after the first occurrence of a byte. -/
def splitFirst (b : UInt8) (s : ByteString) : Option (ByteString × ByteString) :=
  if b ∈ s then some (s.takeWhile (· ≠ b), (s.dropWhile (· ≠ b)).tail) else none

structure CallName where
  spec : ByteString
  instrument : ByteString
  channel : Option Int
  verb : ByteString
deriving DecidableEq

/-- The instrument ends at the first dot, its channel stands behind the first colon. -/
def parseFuncName (funcName : ByteString) : Option CallName :=
  match splitFirst 46 funcName with
  | none => none
  | some (spec, verb) =>
      match splitFirst 58 spec with
      | none => some ⟨spec, spec, none, verb⟩
      | some (instrument, text) => (stoi text).map fun channel => ⟨spec, instrument, some channel, verb⟩

/-- The parameters of a call; the channel overwrites an argument of that name. -/
def callParams (name : CallName) (args : LuaArgs) : ParamMap :=
  match name.channel with
  | some channel => args.params.insert (bytes "channel") (.int64 (Int64.ofInt channel))
  | none => args.params

/-- `expects` is `command_expects_response` of the registry. -/
def callCommand (expects : ByteString → ByteString → Bool) (name : CallName) (args : LuaArgs) : SerializedCommand where
  instrumentName := name.instrument
  verb := name.verb
  params := callParams name args
  expectsResponse := expects name.instrument name.verb

/-! ### Results -/

structure CallResult where
  commandId : ByteString := []
  instrumentName : ByteString := []
  verb : ByteString := []
  params : ParamMap := .empty
  returnValue : Option ParamValue := none
  returnType : ByteString := []
  hasLargeData : Bool := false
  bufferId : ByteString := []
  elementCount : UInt64 := 0
  dataType : ByteString := []
  success : Bool := false
  errorMessage : ByteString := []
deriving DecidableEq

def CallResult.setReturn (cr : CallResult) : ParamValue → CallResult
  | .double value => { cr with returnValue := some (.double value), returnType := bytes "float" }
  | .int64 value => { cr with returnValue := some (.int64 value), returnType := bytes "integer" }
  | .string value => { cr with returnValue := some (.string value), returnType := bytes "string" }
  | .boolean value => { cr with returnValue := some (.boolean value), returnType := bytes "boolean" }
  | .doubles values =>
      { cr with
        returnValue := some (.doubles values)
        returnType := bytes "array"
        elementCount := UInt64.ofNat values.length
        dataType := bytes "float" }

/-- `populate_callresult_from_response` -/
def CallResult.populate (cr : CallResult) (resp : CommandResponse) : CallResult :=
  let cr := { cr with commandId := resp.commandId, success := resp.success, errorMessage := resp.errorMessage }
  if resp.hasLargeData then
    { cr with
      hasLargeData := true
      bufferId := resp.bufferId
      elementCount := resp.elementCount
      dataType := resp.dataType
      returnType := bytes "buffer" }
  else
    match resp.returnValue with
    | some value => cr.setReturn value
    | none => { cr with returnType := bytes "void" }

@[simp] theorem CallResult.success_setReturn (cr : CallResult) (value : ParamValue) :
    (cr.setReturn value).success = cr.success := by
  cases value <;> rfl

@[simp] theorem CallResult.success_populate (cr : CallResult) (resp : CommandResponse) :
    (cr.populate resp).success = resp.success := by
  rw [populate]
  split
  · rfl
  · split <;> simp

/-- What a result says about its call: the label of the instrument, the verb and the parameters. -/
def CallResult.call (cr : CallResult) : ByteString × ByteString × ParamMap := (cr.instrumentName, cr.verb, cr.params)

@[simp] theorem CallResult.call_setReturn (cr : CallResult) (value : ParamValue) : (cr.setReturn value).call = cr.call := by
  cases value <;> rfl

@[simp] theorem CallResult.call_populate (cr : CallResult) (resp : CommandResponse) : (cr.populate resp).call = cr.call := by
  rw [populate]
  split
  · rfl
  · split
    · rw [call_setReturn]
      rfl
    · rfl

/-! ### The commands of a parallel block -/

/-- A command to send and the placeholder of its result. -/
structure BlockEntry where
  cmd : SerializedCommand
  result : CallResult
deriving DecidableEq

/-- The instrument with its channel, taken from the parameter of that name. -/
def displayName (cmd : SerializedCommand) : ByteString :=
  match cmd.params.find? (bytes "channel") with
  | some (.int64 channel) => cmd.instrumentName ++ bytes ":" ++ decimalInt channel.toInt
  | _ => cmd.instrumentName

def nopEntry (syncToken : SyncToken) (inst : ByteString) : BlockEntry where
  cmd :=
    { instrumentName := inst
      verb := barrierNop
      params := .empty
      expectsResponse := true
      syncToken := some syncToken
      isSyncBarrier := true }
  result := { instrumentName := inst, verb := barrierNop }

def commandEntry (syncToken : SyncToken) (last : Bool) (cmd : SerializedCommand) : BlockEntry where
  cmd := { cmd with syncToken := some syncToken, isSyncBarrier := last }
  result := { instrumentName := displayName cmd, verb := cmd.verb, params := cmd.params }

/-- The commands for one instrument in order, the last one marked as barrier. -/
def instrumentEntries (syncToken : SyncToken) (cmds : List SerializedCommand) : List BlockEntry :=
  cmds.zipIdx.map fun cmd => commandEntry syncToken (decide (cmd.2 + 1 = cmds.length)) cmd.1

/-- What a block sends, instrument by instrument. -/
def blockEntries (syncToken : SyncToken) (allInstruments : List ByteString) (buffer : List SerializedCommand) :
    List BlockEntry :=
  allInstruments.flatMap fun inst =>
    match buffer.filter fun cmd => cmd.instrumentName = inst with
    | [] => [nopEntry syncToken inst]
    | cmds => instrumentEntries syncToken cmds

/-- A block sends a NOP to an instrument without commands, and every command of the buffer to an instrument with some. -/
theorem mem_blockEntries {syncToken : SyncToken} {allInstruments : List ByteString} {buffer : List SerializedCommand}
    {entry : BlockEntry} (hentry : entry ∈ blockEntries syncToken allInstruments buffer) :
    (∃ inst ∈ allInstruments, entry = nopEntry syncToken inst) ∨
      ∃ last, ∃ cmd ∈ buffer, cmd.instrumentName ∈ allInstruments ∧ entry = commandEntry syncToken last cmd := by
  obtain ⟨inst, hinst, hmem⟩ := List.mem_flatMap.mp hentry
  split at hmem
  · exact Or.inl ⟨inst, hinst, List.mem_singleton.mp hmem⟩
  · obtain ⟨⟨cmd, i⟩, hcmd, rfl⟩ := List.mem_map.mp hmem
    obtain ⟨hbuffer, hname⟩ := List.mem_filter.mp (List.fst_mem_of_mem_zipIdx hcmd)
    have hown : cmd.instrumentName ∈ allInstruments := by
      rw [of_decide_eq_true hname]
      exact hinst
    exact Or.inr ⟨_, cmd, hbuffer, hown, rfl⟩

/-! ### The context in enqueue mode -/

structure RuntimeContext (Future : Type) where
  nextSyncToken : SyncToken := 1
  collectedResults : List CallResult := []
  tokenOrder : List SyncToken := []
  tokenInstruments : SyncToken → List ByteString := fun _ => []
  tokenFutures : SyncToken → List Future := fun _ => []
  tokenResultIndices : SyncToken → List Nat := fun _ => []

/-- What becomes of a command once its placeholder is recorded. -/
inductive SendOutcome (Future : Type) where
  | noWorker
  | sent (future : Future)
  /-- `execute` threw -/
  | raised
deriving DecidableEq

namespace RuntimeContext

variable {Future : Type}

def drawToken (ctx : RuntimeContext Future) (allInstruments : List ByteString) : RuntimeContext Future :=
  { ctx with
    nextSyncToken := ctx.nextSyncToken + 1
    tokenOrder := ctx.tokenOrder ++ [ctx.nextSyncToken]
    tokenInstruments := Function.update ctx.tokenInstruments ctx.nextSyncToken allInstruments }

def pushResult (ctx : RuntimeContext Future) (token : SyncToken) (cr : CallResult) : RuntimeContext Future :=
  { ctx with
    collectedResults := ctx.collectedResults ++ [cr]
    tokenResultIndices := Function.update ctx.tokenResultIndices token
      (ctx.tokenResultIndices token ++ [ctx.collectedResults.length]) }

def pushFuture (ctx : RuntimeContext Future) (token : SyncToken) (future : Future) : RuntimeContext Future :=
  { ctx with
    tokenFutures := Function.update ctx.tokenFutures token (ctx.tokenFutures token ++ [future]) }

/-- Record the placeholder, then keep the future if there is one. -/
def dispatch (ctx : RuntimeContext Future) (token : SyncToken) (cr : CallResult) :
    SendOutcome Future → RuntimeContext Future
  | .sent future => (ctx.pushResult token cr).pushFuture token future
  | .noWorker | .raised => ctx.pushResult token cr

/-- The loop over the entries of a block; an exception leaves it. -/
def dispatchBlock (outcome : Nat → SendOutcome Future) (token : SyncToken) :
    RuntimeContext Future → List BlockEntry → RuntimeContext Future
  | ctx, [] => ctx
  | ctx, entry :: entries =>
      let result := outcome ctx.collectedResults.length
      let ctx := ctx.dispatch token entry.result result
      match result with
      | .raised => ctx
      | _ => dispatchBlock outcome token ctx entries

/-- `call` outside a block: without a worker it returns before it draws a token. -/
def enqueueCall (outcome : Nat → SendOutcome Future) (ctx : RuntimeContext Future) (allInstruments : List ByteString)
    (name : CallName) (params : ParamMap) : RuntimeContext Future :=
  match outcome ctx.collectedResults.length with
  | .noWorker => ctx
  | result =>
      (ctx.drawToken allInstruments).dispatch ctx.nextSyncToken
        { instrumentName := name.spec, verb := name.verb, params } result

/-- `parallel` behind the run of its block. -/
def enqueueBlock (outcome : Nat → SendOutcome Future) (ctx : RuntimeContext Future) (allInstruments : List ByteString)
    (buffer : List SerializedCommand) : RuntimeContext Future :=
  if buffer = [] then ctx
  else
    dispatchBlock outcome ctx.nextSyncToken (ctx.drawToken allInstruments)
      (blockEntries ctx.nextSyncToken allInstruments buffer)

/-! ### Collecting -/

/-- The future at position `i` of a token is ready with `answer`, or its `get` threw. -/
def fill (ctx : RuntimeContext Future) (token : SyncToken) (i : Nat) (answer : Option CommandResponse) :
    RuntimeContext Future :=
  match answer with
  | none => ctx
  | some resp =>
      match (ctx.tokenResultIndices token)[i]? with
      | some index => { ctx with collectedResults := ctx.collectedResults.modify index fun cr => cr.populate resp }
      | none => { ctx with collectedResults := ctx.collectedResults ++ [CallResult.populate {} resp] }

/-- The futures in the order they are waited for. -/
def pendingFutures (ctx : RuntimeContext Future) : List (SyncToken × Nat × Future) :=
  ctx.tokenOrder.flatMap fun token => (ctx.tokenFutures token).zipIdx.map fun future => (token, future.2, future.1)

def collect (answer : Future → Option CommandResponse) (ctx : RuntimeContext Future)
    (futures : List (SyncToken × Nat × Future)) : RuntimeContext Future :=
  futures.foldl (fun ctx future => ctx.fill future.1 future.2.1 (answer future.2.2)) ctx

/-- The end of `process_tokens_and_wait`: the results stay. -/
def clearTokens (ctx : RuntimeContext Future) : RuntimeContext Future :=
  { ctx with
    tokenOrder := []
    tokenInstruments := fun _ => []
    tokenFutures := fun _ => []
    tokenResultIndices := fun _ => [] }

/-- `process_tokens_and_wait`; what it sends and clears at the coordinator is not part of the bookkeeping. -/
def processTokensAndWait (answer : Future → Option CommandResponse) (ctx : RuntimeContext Future) :
    RuntimeContext Future :=
  (ctx.collect answer ctx.pendingFutures).clearTokens

/-- The synchronous path records a result when the response is there. -/
def record (ctx : RuntimeContext Future) (cr : CallResult) : RuntimeContext Future :=
  { ctx with collectedResults := ctx.collectedResults ++ [cr] }

theorem nextSyncToken_dispatch (ctx : RuntimeContext Future) (token : SyncToken) (cr : CallResult)
    (outcome : SendOutcome Future) : (ctx.dispatch token cr outcome).nextSyncToken = ctx.nextSyncToken := by
  cases outcome <;> rfl

theorem nextSyncToken_fill (ctx : RuntimeContext Future) (token : SyncToken) (i : Nat) (resp : CommandResponse) :
    (ctx.fill token i (some resp)).nextSyncToken = ctx.nextSyncToken := by
  rw [fill]
  split <;> rfl

end RuntimeContext

/-! ### Scripts -/

/-- What `list_instruments` returns: the keys of a `std::map`. -/
structure Registry where
  names : List ByteString
  sorted : names.Pairwise (· < ·)

/-- A registry with two instruments. -/
def dmmAndScope : Registry where
  names := [bytes "DMM", bytes "Scope"]
  sorted := by decide +kernel

/-- What a script does to its context, with what `list_instruments` returned at that moment. -/
inductive EnqueueOp where
  | call (allInstruments : List ByteString) (call : ScriptCall)
  | parallel (allInstruments : List ByteString) (calls : List ScriptCall)

def EnqueueOp.allInstruments : EnqueueOp → List ByteString
  | .call allInstruments _ | .parallel allInstruments _ => allInstruments

/-- The instrument an operation looks up before anything else. -/
def EnqueueOp.lookup? : EnqueueOp → Option ByteString
  | .call _ single => (parseFuncName single.funcName).map CallName.instrument
  | .parallel _ _ => none

/-- The command of a call, if its name can be parsed. -/
def ScriptCall.command? (expects : ByteString → ByteString → Bool) (call : ScriptCall) : Option SerializedCommand :=
  (parseFuncName call.funcName).map fun name => callCommand expects name call.args

/-- The commands a block buffers. -/
def bufferedCommands (expects : ByteString → ByteString → Bool) (calls : List ScriptCall) : List SerializedCommand :=
  calls.filterMap (ScriptCall.command? expects)

namespace RuntimeContext

variable {Future : Type}

def runOp (expects : ByteString → ByteString → Bool) (outcome : Nat → SendOutcome Future)
    (ctx : RuntimeContext Future) : EnqueueOp → RuntimeContext Future
  | .call allInstruments call =>
      match parseFuncName call.funcName with
      | none => ctx
      | some name => ctx.enqueueCall outcome allInstruments name (callParams name call.args)
  | .parallel allInstruments calls => ctx.enqueueBlock outcome allInstruments (bufferedCommands expects calls)

/-- The context after a script. -/
def runScript (expects : ByteString → ByteString → Bool) (outcome : Nat → SendOutcome Future)
    (script : List EnqueueOp) : RuntimeContext Future :=
  script.foldl (runOp expects outcome) {}

end RuntimeContext

end InstrumentServer
