import InstrumentServer.Server.ParallelDispatch
import InstrumentServer.Server.SyncResults

/-!
# Who is in a barrier and who is sent a command

`call`, `parallel` and `execute_parallel_buffer` each register a barrier for the token they draw and each send commands with that token. `ScriptRun` is a script together with a record of both for every token. A call in enqueue mode registers all instruments and sends a command to one of them; the two others send at least one command to every member, as long as the encoder does not throw in between.
-/

namespace InstrumentServer

open Ipc InstrumentWorkerProxy

/-- What a script did under one token. -/
structure TokenRecord where
  token : SyncToken
  /-- drawn in enqueue mode, so that `token_instruments_` has an entry for it -/
  enqueued : Bool
  /-- the instruments `register_barrier` was given -/
  registered : List ByteString
  /-- the commands for which `execute` returned a future -/
  sent : List SerializedCommand

/-- A script up to some operation. Of a synchronous script only the tokens are followed, and how many commands it has come to. -/
structure ScriptRun where
  ctx : RuntimeContext FutureRef := {}
  commands : Nat := 0
  records : List TokenRecord := []

/-- The commands for which `execute` returned a future. -/
def returned {Future : Type} (handed : List (Handed Future)) : List SerializedCommand :=
  handed.filterMap fun call => call.2.map fun _ => call.1

/-- Hand over commands one after the other, skipping those without a worker; an exception ends it. -/
def handOver {Future : Type} (send : Nat → SerializedCommand → SendOutcome Future) :
    Nat → List SerializedCommand → List (Handed Future)
  | _, [] => []
  | k, cmd :: cmds =>
      match send k cmd with
      | .raised => [(cmd, none)]
      | .noWorker => handOver send (k + 1) cmds
      | .sent future => (cmd, some future) :: handOver send (k + 1) cmds

namespace ScriptRun

variable (expects : ByteString → ByteString → Bool) (names : List ByteString)
  (send : Nat → SerializedCommand → SendOutcome FutureRef)

def record (run : ScriptRun) (ctx : RuntimeContext FutureRef) (enqueued : Bool) (registered : List ByteString)
    (handed : List (Handed FutureRef)) : ScriptRun where
  ctx
  commands := run.commands
  records := run.records ++ [⟨run.ctx.nextSyncToken, enqueued, registered, returned handed⟩]

/-- `call` in enqueue mode. -/
def enqueueCall (run : ScriptRun) (name : CallName) (args : LuaArgs) : ScriptRun :=
  let entry := MeasurementRun.callEntry expects run.ctx.nextSyncToken name args
  match send run.ctx.collectedResults.length entry.cmd with
  | .noWorker => run
  | result =>
      run.record ((run.ctx.drawToken names).dispatch run.ctx.nextSyncToken entry.result result) true names
        (handOver send run.ctx.collectedResults.length [entry.cmd])

/-- `parallel` in enqueue mode. -/
def enqueueBlock (run : ScriptRun) (buffer : List SerializedCommand) : ScriptRun :=
  if buffer = [] then run
  else
    run.record (run.ctx.sendBlock send names buffer).1 true names (run.ctx.sendBlock send names buffer).2

/-- `execute_parallel_buffer` -/
def syncBlock (run : ScriptRun) (buffer : List SerializedCommand) : ScriptRun :=
  if buffer = [] then run
  else
    { run.record { run.ctx with nextSyncToken := run.ctx.nextSyncToken + 1 } false (MeasurementRun.participants buffer)
        (handOver send run.commands (buffer.map fun cmd => { cmd with syncToken := some run.ctx.nextSyncToken })) with
      commands := run.commands + buffer.length }

/-- One operation of a script; a synchronous call outside a block draws no token. -/
def runOp (enqueueMode : Bool) (run : ScriptRun) : ScriptOp → ScriptRun
  | .call single =>
      match parseFuncName single.funcName with
      | some name => if enqueueMode then run.enqueueCall expects names send name single.args else run
      | none => run
  | .parallel calls =>
      if enqueueMode then run.enqueueBlock names send (bufferedCommands expects calls)
      else run.syncBlock send (bufferedCommands expects calls)

def runScript (enqueueMode : Bool) (script : List ScriptOp) : ScriptRun :=
  script.foldl (runOp expects names send enqueueMode) {}

end ScriptRun

/-- The instruments that were sent a command with the token of the record. -/
def TokenRecord.Recipient (r : TokenRecord) (inst : ByteString) : Prop :=
  ∃ cmd ∈ r.sent, cmd.instrumentName = inst ∧ cmd.syncToken = some r.token

/-- The members of the barrier, and in enqueue mode the instruments that are released later, are the recipients. -/
structure TokenRecord.Matches (ctx : RuntimeContext FutureRef) (r : TokenRecord) : Prop where
  registered : ∀ inst, inst ∈ r.registered ↔ r.Recipient inst
  released : r.enqueued = true → ∀ inst, inst ∈ ctx.tokenInstruments r.token ↔ r.Recipient inst

/-! ### When they match -/

/-- A command for the instrument can be encoded, and so can all commands in front of it. -/
def Reaches (inst : ByteString) : List SerializedCommand → Prop
  | [] => False
  | cmd :: cmds => cmd.Encodable ∧ (cmd.instrumentName = inst ∨ Reaches inst cmds)

/-- A call in enqueue mode is made with the called instrument as the only one, and no block stops at text that cannot be encoded before every member has a command. -/
def ScriptOp.MembersOnly (expects : ByteString → ByteString → Bool) (names : List ByteString) (enqueueMode : Bool) :
    ScriptOp → Prop
  | .call single => enqueueMode = true → ∀ name, parseFuncName single.funcName = some name → name.instrument ∈ names →
      names = [name.instrument] ∧ (callCommand expects name single.args).Encodable
  | .parallel calls =>
      if enqueueMode then
        bufferedCommands expects calls ≠ [] →
          ∀ inst ∈ names, Reaches inst (names.flatMap (ownCommands (bufferedCommands expects calls)))
      else ∀ cmd ∈ bufferedCommands expects calls, Reaches cmd.instrumentName (bufferedCommands expects calls)

/-- The instruments named in the blocks are registered. -/
def NamesRegistered (registry : Registry) (script : List ScriptOp) : Prop :=
  ∀ calls, .parallel calls ∈ script → Registered registry calls

/-! ### What is handed over -/

theorem snd_sendEntries {Future : Type} {send : Nat → SerializedCommand → SendOutcome Future} {token : SyncToken}
    (entries : List BlockEntry) (ctx : RuntimeContext Future) :
    (RuntimeContext.sendEntries send token ctx entries).2 =
      handOver send ctx.collectedResults.length (entries.map BlockEntry.cmd) := by
  induction entries generalizing ctx with
  | nil => rfl
  | cons entry entries ih =>
      have hnext : ∀ result, (ctx.dispatch token entry.result result).collectedResults.length =
          ctx.collectedResults.length + 1 := by
        intro result
        rw [RuntimeContext.collectedResults_dispatch, List.length_append, List.length_singleton]
      rw [RuntimeContext.sendEntries, List.map_cons, handOver]
      cases send ctx.collectedResults.length entry.cmd with
      | raised => rfl
      | noWorker =>
          rw [← hnext .noWorker]
          exact ih _
      | sent future =>
          rw [← hnext (.sent future)]
          exact congrArg ((entry.cmd, some future) :: ·) (ih _)

theorem mem_of_mem_returned_handOver {Future : Type} {send : Nat → SerializedCommand → SendOutcome Future} {k : Nat}
    {cmds : List SerializedCommand} {cmd : SerializedCommand} (hcmd : cmd ∈ returned (handOver send k cmds)) : cmd ∈ cmds := by
  induction cmds generalizing k with
  | nil => contradiction
  | cons first cmds ih =>
      rw [handOver] at hcmd
      split at hcmd
      · contradiction
      · exact List.mem_cons_of_mem first (ih hcmd)
      · rcases List.mem_cons.mp hcmd with rfl | hcmd
        · exact List.mem_cons_self
        · exact List.mem_cons_of_mem first (ih hcmd)

/-- An instrument is sent a command exactly when one of its commands is reached. -/
theorem returned_handOver_iff (w : FixedRegistry) (N : JsonLibrary) (taken : Nat → Bool) {cmds : List SerializedCommand}
    (hnames : ∀ cmd ∈ cmds, cmd.instrumentName ∈ w.registry.names) (k : Nat) (inst : ByteString) :
    (∃ cmd ∈ returned (handOver (w.send N taken) k cmds), cmd.instrumentName = inst) ↔ Reaches inst cmds := by
  induction cmds generalizing k with
  | nil => simp [handOver, returned, Reaches]
  | cons first cmds ih =>
      have hrest := ih (fun cmd hcmd => hnames cmd (List.mem_cons_of_mem first hcmd)) (k + 1)
      rcases w.send_of_registered N taken k (hnames first List.mem_cons_self) with ⟨hcan, future, hsend⟩ | ⟨hcannot, hsend⟩
      · have hhanded : returned (handOver (w.send N taken) k (first :: cmds)) =
            first :: returned (handOver (w.send N taken) (k + 1) cmds) := by
          rw [handOver, hsend]
          rfl
        rw [hhanded, List.exists_mem_cons_iff, hrest, Reaches]
        exact (and_iff_right hcan).symm
      · have hhanded : returned (handOver (w.send N taken) k (first :: cmds)) = [] := by
          rw [handOver, hsend]
          rfl
        rw [hhanded, Reaches]
        exact iff_of_false (by simp) fun h => hcannot h.1

/-! ### Tags do not matter -/

/-- What the encoder can fail on. -/
def untagged (cmd : SerializedCommand) : SerializedCommand := { cmd with syncToken := none, isSyncBarrier := false }

theorem reaches_untagged (inst : ByteString) (cmds : List SerializedCommand) :
    Reaches inst (cmds.map untagged) ↔ Reaches inst cmds := by
  induction cmds with
  | nil => exact Iff.rfl
  | cons cmd cmds ih =>
      rw [List.map_cons, Reaches, Reaches, ih]
      exact Iff.rfl

theorem reaches_congr {inst : ByteString} {cmds cmds' : List SerializedCommand}
    (h : cmds.map untagged = cmds'.map untagged) : Reaches inst cmds ↔ Reaches inst cmds' := by
  rw [← reaches_untagged, h, reaches_untagged]

theorem untagged_tagged (token : SyncToken) (cmds : List SerializedCommand) :
    (tagged token cmds).map untagged = cmds.map untagged := by
  calc (tagged token cmds).map untagged
      = cmds.zipIdx.map (untagged ∘ Prod.fst) := by
        rw [tagged, List.map_map]
        rfl
    _ = cmds.map untagged := by rw [← List.map_map, List.zipIdx_map_fst]

theorem Reaches.mem {inst : ByteString} {cmds : List SerializedCommand} (h : Reaches inst cmds) :
    ∃ cmd ∈ cmds, cmd.instrumentName = inst := by
  induction cmds with
  | nil => contradiction
  | cons cmd cmds ih =>
      rcases h.2 with hname | hrest
      · exact ⟨cmd, List.mem_cons_self, hname⟩
      · obtain ⟨other, hother, hname⟩ := ih hrest
        exact ⟨other, List.mem_cons_of_mem cmd hother, hname⟩

/-! ### The record of one operation -/

/-- The part of the property that does not depend on the context. -/
def TokenRecord.MembersSent (r : TokenRecord) : Prop := ∀ inst, inst ∈ r.registered ↔ r.Recipient inst

/-- A record made from commands that all carry the token. -/
theorem membersSent_iff (w : FixedRegistry) (N : JsonLibrary) (taken : Nat → Bool) {cmds : List SerializedCommand}
    (hnames : ∀ cmd ∈ cmds, cmd.instrumentName ∈ w.registry.names) {token : SyncToken}
    (htokens : ∀ cmd ∈ cmds, cmd.syncToken = some token) (k : Nat) (enqueued : Bool) (registered : List ByteString) :
    (TokenRecord.mk token enqueued registered (returned (handOver (w.send N taken) k cmds))).MembersSent ↔
      ∀ inst, inst ∈ registered ↔ Reaches inst cmds := by
  refine forall_congr' fun inst => ?_
  have hrecipient : (TokenRecord.mk token enqueued registered (returned (handOver (w.send N taken) k cmds))).Recipient inst ↔
      Reaches inst cmds := by
    rw [← returned_handOver_iff w N taken hnames k inst]
    constructor
    · rintro ⟨cmd, hcmd, hname, -⟩
      exact ⟨cmd, hcmd, hname⟩
    · rintro ⟨cmd, hcmd, hname⟩
      exact ⟨cmd, hcmd, hname, htokens cmd (mem_of_mem_returned_handOver hcmd)⟩
  rw [hrecipient]

theorem mem_participants {buffer : List SerializedCommand} {inst : ByteString} :
    inst ∈ MeasurementRun.participants buffer ↔ ∃ cmd ∈ buffer, cmd.instrumentName = inst := by
  have hfold : ∀ (buffer : List SerializedCommand) (insts : List ByteString),
      inst ∈ buffer.foldl (fun insts cmd => if cmd.instrumentName ∈ insts then insts else insts ++ [cmd.instrumentName]) insts ↔
        inst ∈ insts ∨ ∃ cmd ∈ buffer, cmd.instrumentName = inst := by
    intro buffer
    induction buffer with
    | nil => simp
    | cons cmd buffer ih =>
        intro insts
        rw [List.foldl_cons, ih, List.exists_mem_cons_iff, ← or_assoc]
        refine or_congr_left ?_
        split
        · rename_i hmem
          exact ⟨Or.inl, fun h => h.elim id fun heq => heq ▸ hmem⟩
        · rw [List.mem_append, List.mem_singleton, eq_comm]
  rw [MeasurementRun.participants, hfold]
  simp

section Operation

variable {N : JsonLibrary} {expects : ByteString → ByteString → Bool} {w : FixedRegistry} {taken : Nat → Bool} {run : ScriptRun}

/-- An operation adds at most one record, which is in order exactly when the operation is. -/
def Adds (run run' : ScriptRun) (ok : Prop) : Prop :=
  ∃ new, run'.records = run.records ++ new ∧ ((∀ r ∈ new, r.MembersSent) ↔ ok)

theorem Adds.same {ok : Prop} (hok : ok) : Adds run run ok := ⟨[], by simp, by simp [hok]⟩

theorem Adds.record {run' : ScriptRun} {r : TokenRecord} {ok : Prop} (hrecords : run'.records = run.records ++ [r])
    (hok : r.MembersSent ↔ ok) : Adds run run' ok := ⟨[r], hrecords, by simp [hok]⟩

theorem adds_enqueueCall (name : CallName) (args : LuaArgs) :
    Adds run (run.enqueueCall expects w.registry.names (w.send N taken) name args)
      (name.instrument ∈ w.registry.names →
        w.registry.names = [name.instrument] ∧ (callCommand expects name args).Encodable) := by
  have hinst : ∀ token, (MeasurementRun.callEntry expects token name args).cmd.instrumentName = name.instrument := fun _ => rfl
  by_cases hfound : name.instrument ∈ w.registry.names
  · have hnames : ∀ cmd ∈ [(MeasurementRun.callEntry expects run.ctx.nextSyncToken name args).cmd],
        cmd.instrumentName ∈ w.registry.names := by
      intro cmd hcmd
      rw [List.mem_singleton.mp hcmd]
      exact hfound
    have htokens : ∀ cmd ∈ [(MeasurementRun.callEntry expects run.ctx.nextSyncToken name args).cmd],
        cmd.syncToken = some run.ctx.nextSyncToken := by
      intro cmd hcmd
      rw [List.mem_singleton.mp hcmd]
      rfl
    have hreached : (∀ inst, inst ∈ w.registry.names ↔
          Reaches inst [(MeasurementRun.callEntry expects run.ctx.nextSyncToken name args).cmd]) ↔
        (name.instrument ∈ w.registry.names →
          w.registry.names = [name.instrument] ∧ (callCommand expects name args).Encodable) := by
      simp only [Reaches, or_false, hinst, forall_const, hfound]
      constructor
      · intro h
        refine ⟨?_, ((h name.instrument).mp hfound).1⟩
        refine List.perm_singleton.mp ((List.perm_ext_iff_of_nodup (w.registry.sorted.imp ne_of_lt) (List.nodup_singleton _)).mpr
          fun inst => ?_)
        rw [List.mem_singleton, eq_comm, h inst]
        exact and_iff_right ((h name.instrument).mp hfound).1
      · rintro ⟨heq, hcan⟩ inst
        rw [heq, List.mem_singleton, eq_comm]
        exact (and_iff_right hcan).symm
    rw [ScriptRun.enqueueCall]
    rcases w.send_of_registered N taken run.ctx.collectedResults.length (hnames _ List.mem_cons_self) with
      ⟨-, future, hsend⟩ | ⟨-, hsend⟩ <;>
    · simp only [hsend]
      exact Adds.record rfl ((membersSent_iff w N taken hnames htokens _ _ _).trans hreached)
  · rw [ScriptRun.enqueueCall]
    simp only [w.send_of_unregistered N taken _ (hinst run.ctx.nextSyncToken ▸ hfound)]
    exact Adds.same fun h => absurd h hfound

/-- The commands of a block are those of its instruments, and nobody else is reached. -/
theorem adds_enqueueBlock {buffer : List SerializedCommand} :
    Adds run (run.enqueueBlock w.registry.names (w.send N taken) buffer)
      (buffer ≠ [] → ∀ inst ∈ w.registry.names, Reaches inst (w.registry.names.flatMap (ownCommands buffer))) := by
  rw [ScriptRun.enqueueBlock]
  split
  · rename_i hempty
    exact Adds.same fun h => absurd hempty h
  · rename_i hbuffer
    have hnames : ∀ cmd ∈ (blockEntries run.ctx.nextSyncToken w.registry.names buffer).map BlockEntry.cmd,
        cmd.instrumentName ∈ w.registry.names := by
      intro cmd hcmd
      obtain ⟨entry, hentry, rfl⟩ := List.mem_map.mp hcmd
      exact MeasurementRun.instrumentName_blockEntries hentry
    have htokens : ∀ cmd ∈ (blockEntries run.ctx.nextSyncToken w.registry.names buffer).map BlockEntry.cmd,
        cmd.syncToken = some run.ctx.nextSyncToken := by
      intro cmd hcmd
      obtain ⟨entry, hentry, rfl⟩ := List.mem_map.mp hcmd
      exact syncToken_blockEntries hentry
    have hreached : ∀ inst, Reaches inst ((blockEntries run.ctx.nextSyncToken w.registry.names buffer).map BlockEntry.cmd) ↔
        Reaches inst (w.registry.names.flatMap (ownCommands buffer)) := by
      intro inst
      refine reaches_congr ?_
      rw [cmd_blockEntries, List.map_flatMap, List.map_flatMap]
      exact List.flatMap_congr fun inst _ => untagged_tagged _ _
    have hhanded : (run.ctx.sendBlock (w.send N taken) w.registry.names buffer).2 =
        handOver (w.send N taken) run.ctx.collectedResults.length
          ((blockEntries run.ctx.nextSyncToken w.registry.names buffer).map BlockEntry.cmd) := by
      rw [RuntimeContext.sendBlock, if_neg hbuffer, snd_sendEntries]
      rfl
    refine Adds.record rfl ?_
    rw [hhanded, membersSent_iff w N taken hnames htokens]
    constructor
    · intro h _ inst hinst
      exact (hreached inst).mp ((h inst).mp hinst)
    · intro h inst
      refine ⟨fun hinst => (hreached inst).mpr (h hbuffer inst hinst), fun hreach => ?_⟩
      obtain ⟨cmd, hcmd, rfl⟩ := hreach.mem
      exact hnames cmd hcmd

theorem adds_syncBlock {buffer : List SerializedCommand} (hbuffer : ∀ cmd ∈ buffer, cmd.instrumentName ∈ w.registry.names) :
    Adds run (run.syncBlock (w.send N taken) buffer) (∀ cmd ∈ buffer, Reaches cmd.instrumentName buffer) := by
  rw [ScriptRun.syncBlock]
  split
  · rename_i hempty
    exact Adds.same (by simp [hempty])
  · have hnames : ∀ cmd ∈ buffer.map (fun cmd => { cmd with syncToken := some run.ctx.nextSyncToken }),
        cmd.instrumentName ∈ w.registry.names := by
      intro cmd hcmd
      obtain ⟨own, hown, rfl⟩ := List.mem_map.mp hcmd
      exact hbuffer own hown
    have htokens : ∀ cmd ∈ buffer.map (fun cmd => { cmd with syncToken := some run.ctx.nextSyncToken }),
        cmd.syncToken = some run.ctx.nextSyncToken := by
      intro cmd hcmd
      obtain ⟨own, -, rfl⟩ := List.mem_map.mp hcmd
      rfl
    have hreached : ∀ inst, Reaches inst (buffer.map fun cmd => { cmd with syncToken := some run.ctx.nextSyncToken }) ↔
        Reaches inst buffer := by
      intro inst
      refine reaches_congr ?_
      rw [List.map_map]
      rfl
    refine Adds.record rfl ?_
    rw [membersSent_iff w N taken hnames htokens]
    constructor
    · intro h cmd hcmd
      exact (hreached _).mp ((h cmd.instrumentName).mp (mem_participants.mpr ⟨cmd, hcmd, rfl⟩))
    · intro h inst
      rw [mem_participants, hreached]
      constructor
      · rintro ⟨cmd, hcmd, rfl⟩
        exact h cmd hcmd
      · exact Reaches.mem

theorem adds_runOp (enqueueMode : Bool) (op : ScriptOp)
    (hregistered : enqueueMode = false → ∀ calls, op = .parallel calls → Registered w.registry calls) :
    Adds run (run.runOp expects w.registry.names (w.send N taken) enqueueMode op)
      (op.MembersOnly expects w.registry.names enqueueMode) := by
  cases op with
  | call single =>
      rw [ScriptRun.runOp, ScriptOp.MembersOnly]
      cases parseFuncName single.funcName with
      | none => exact Adds.same (by simp)
      | some name =>
          cases enqueueMode with
          | false => exact Adds.same (by simp)
          | true =>
              obtain ⟨new, hrecords, hok⟩ := @adds_enqueueCall N expects w taken run name single.args
              exact ⟨new, hrecords, hok.trans (by simp)⟩
  | parallel calls =>
      rw [ScriptRun.runOp, ScriptOp.MembersOnly]
      cases enqueueMode with
      | false => exact adds_syncBlock (instrumentName_bufferedCommands (hregistered rfl calls rfl))
      | true => exact adds_enqueueBlock

end Operation

/-! ### A whole script -/

/-- The tokens of the records are drawn, and those of enqueue mode are released to the registered instruments. -/
def Tracked (run : ScriptRun) : Prop :=
  ∀ r ∈ run.records, r.token < run.ctx.nextSyncToken ∧ (r.enqueued = true → run.ctx.tokenInstruments r.token = r.registered)

theorem tokenInstruments_dispatch {Future : Type} (ctx : RuntimeContext Future) (token : SyncToken) (cr : CallResult)
    (outcome : SendOutcome Future) :
    (ctx.dispatch token cr outcome).tokenInstruments = ctx.tokenInstruments ∧
      (ctx.dispatch token cr outcome).nextSyncToken = ctx.nextSyncToken := by
  cases outcome <;> exact ⟨rfl, rfl⟩

theorem tokenInstruments_sendEntries {Future : Type} {send : Nat → SerializedCommand → SendOutcome Future} {token : SyncToken}
    (entries : List BlockEntry) (ctx : RuntimeContext Future) :
    (RuntimeContext.sendEntries send token ctx entries).1.tokenInstruments = ctx.tokenInstruments ∧
      (RuntimeContext.sendEntries send token ctx entries).1.nextSyncToken = ctx.nextSyncToken := by
  induction entries generalizing ctx with
  | nil => exact ⟨rfl, rfl⟩
  | cons entry entries ih =>
      rw [RuntimeContext.sendEntries]
      cases send ctx.collectedResults.length entry.cmd with
      | raised => exact tokenInstruments_dispatch ctx token entry.result .raised
      | noWorker => exact ih (ctx.dispatch token entry.result .noWorker)
      | sent future => exact ih (ctx.dispatch token entry.result (.sent future))

/-- A new record in enqueue mode: the token is drawn for the names it is registered with. -/
theorem Tracked.record {run : ScriptRun} (h : Tracked run) {names : List ByteString} {ctx : RuntimeContext FutureRef}
    (hctx : ctx.tokenInstruments = (run.ctx.drawToken names).tokenInstruments ∧
      ctx.nextSyncToken = (run.ctx.drawToken names).nextSyncToken) (handed : List (Handed FutureRef)) :
    Tracked (run.record ctx true names handed) := by
  intro r hr
  have hnext : ctx.nextSyncToken = run.ctx.nextSyncToken + 1 := hctx.2
  have hinstruments : ctx.tokenInstruments = Function.update run.ctx.tokenInstruments run.ctx.nextSyncToken names := hctx.1
  rcases List.mem_append.mp hr with hold | hnew
  · obtain ⟨hlt, hreleased⟩ := h r hold
    refine ⟨?_, fun henqueued => ?_⟩
    · show r.token < ctx.nextSyncToken
      rw [hnext]
      exact Nat.lt_succ_of_lt hlt
    · show ctx.tokenInstruments r.token = r.registered
      rw [hinstruments, Function.update_of_ne (Nat.ne_of_lt hlt)]
      exact hreleased henqueued
  · rw [List.mem_singleton.mp hnew]
    refine ⟨?_, fun _ => ?_⟩
    · show run.ctx.nextSyncToken < ctx.nextSyncToken
      rw [hnext]
      exact Nat.lt_succ_self _
    · show ctx.tokenInstruments run.ctx.nextSyncToken = names
      rw [hinstruments, Function.update_self]

theorem Tracked.runOp {run : ScriptRun} (h : Tracked run) (expects : ByteString → ByteString → Bool) (names : List ByteString)
    (send : Nat → SerializedCommand → SendOutcome FutureRef) (enqueueMode : Bool) (op : ScriptOp) :
    Tracked (run.runOp expects names send enqueueMode op) := by
  cases op with
  | call single =>
      rw [ScriptRun.runOp]
      cases parseFuncName single.funcName with
      | none => exact h
      | some name =>
          cases enqueueMode with
          | false => exact h
          | true =>
              show Tracked (run.enqueueCall expects names send name single.args)
              rw [ScriptRun.enqueueCall]
              cases send run.ctx.collectedResults.length
                (MeasurementRun.callEntry expects run.ctx.nextSyncToken name single.args).cmd with
              | noWorker => exact h
              | raised => exact h.record (tokenInstruments_dispatch _ _ _ _) _
              | sent future => exact h.record (tokenInstruments_dispatch _ _ _ _) _
  | parallel calls =>
      rw [ScriptRun.runOp]
      cases enqueueMode with
      | true =>
          show Tracked (run.enqueueBlock names send (bufferedCommands expects calls))
          rw [ScriptRun.enqueueBlock]
          split
          · exact h
          · rename_i hbuffer
            refine h.record ?_ _
            rw [RuntimeContext.sendBlock, if_neg hbuffer]
            exact tokenInstruments_sendEntries _ _
      | false =>
          show Tracked (run.syncBlock send (bufferedCommands expects calls))
          rw [ScriptRun.syncBlock]
          split
          · exact h
          · intro r hr
            rcases List.mem_append.mp hr with hold | hnew
            · obtain ⟨hlt, hreleased⟩ := h r hold
              exact ⟨Nat.lt_succ_of_lt hlt, hreleased⟩
            · rw [List.mem_singleton.mp hnew]
              exact ⟨Nat.lt_succ_self _, fun henqueued => absurd henqueued Bool.false_ne_true⟩

theorem Tracked.matches_iff {run : ScriptRun} (h : Tracked run) {r : TokenRecord} (hr : r ∈ run.records) :
    r.Matches run.ctx ↔ r.MembersSent := by
  constructor
  · exact TokenRecord.Matches.registered
  · intro hsent
    refine ⟨hsent, fun henqueued inst => ?_⟩
    rw [(h r hr).2 henqueued]
    exact hsent inst

/-- In a script the members of every barrier are the instruments that are sent a command with its token exactly when every operation keeps to its members. -/
theorem barrier_members_iff (N : JsonLibrary) (expects : ByteString → ByteString → Bool) (w : FixedRegistry)
    (taken : Nat → Bool) (enqueueMode : Bool) {script : List ScriptOp}
    (hregistered : enqueueMode = false → NamesRegistered w.registry script) :
    (∀ r ∈ (ScriptRun.runScript expects w.registry.names (w.send N taken) enqueueMode script).records,
        r.Matches (ScriptRun.runScript expects w.registry.names (w.send N taken) enqueueMode script).ctx) ↔
      ∀ op ∈ script, op.MembersOnly expects w.registry.names enqueueMode := by
  have hrun : ∀ script : List ScriptOp, (enqueueMode = false → NamesRegistered w.registry script) →
      Tracked (ScriptRun.runScript expects w.registry.names (w.send N taken) enqueueMode script) ∧
        ((∀ r ∈ (ScriptRun.runScript expects w.registry.names (w.send N taken) enqueueMode script).records, r.MembersSent) ↔
          ∀ op ∈ script, op.MembersOnly expects w.registry.names enqueueMode) := by
    intro script
    induction script using List.reverseRecOn with
    | nil =>
        intro _
        exact ⟨fun r hr => absurd hr List.not_mem_nil, by simp [ScriptRun.runScript]⟩
    | append_singleton script op ih =>
        intro hregistered
        obtain ⟨htracked, hmembers⟩ := ih fun hmode calls hcalls =>
          hregistered hmode calls (List.mem_append_left _ hcalls)
        obtain ⟨new, hrecords, hok⟩ := @adds_runOp N expects w taken
          (ScriptRun.runScript expects w.registry.names (w.send N taken) enqueueMode script) enqueueMode op
          fun hmode calls hop => hregistered hmode calls (by simp [hop])
        rw [ScriptRun.runScript, List.foldl_append, List.foldl_cons, List.foldl_nil]
        refine ⟨htracked.runOp _ _ _ _ op, ?_⟩
        rw [← ScriptRun.runScript, hrecords, List.forall_mem_append, List.forall_mem_append, hmembers, hok,
          List.forall_mem_singleton]
  obtain ⟨htracked, hmembers⟩ := hrun script hregistered
  rw [← hmembers]
  exact forall₂_congr fun r hr => htracked.matches_iff hr

/-- A block that uses one of two instruments. -/
def readInBlock : List ScriptOp := [.parallel [⟨bytes "DMM.READ", .positional []⟩]]

theorem barrier_members_iff_readInBlock :
    (ScriptRun.runScript (fun _ _ => true) dmmAndScope.names (twoWorkers.send .compact fun _ => true) true
      readInBlock).records.map TokenRecord.registered = [[bytes "DMM", bytes "Scope"]] ∧
    ∀ r ∈ (ScriptRun.runScript (fun _ _ => true) dmmAndScope.names (twoWorkers.send .compact fun _ => true) true
        readInBlock).records,
      r.Matches (ScriptRun.runScript (fun _ _ => true) dmmAndScope.names (twoWorkers.send .compact fun _ => true) true
        readInBlock).ctx := by
  refine ⟨by decide +kernel, ?_⟩
  refine (barrier_members_iff .compact (fun _ _ => true) twoWorkers (fun _ => true) true (by simp)).mpr ?_
  intro op hop
  obtain rfl := List.mem_singleton.mp hop
  intro _ inst hinst
  have hcommands : dmmAndScope.names.flatMap
      (ownCommands (bufferedCommands (fun _ _ => true) [⟨bytes "DMM.READ", .positional []⟩])) =
        [{ instrumentName := bytes "DMM", verb := bytes "READ", params := .empty, expectsResponse := true },
          { instrumentName := bytes "Scope", verb := barrierNop, params := .empty, expectsResponse := true }] := by
    decide +kernel
  have hempty : ParamMap.empty.ValidText := fun entry hentry => absurd hentry List.not_mem_nil
  show Reaches inst (dmmAndScope.names.flatMap _)
  rw [hcommands]
  refine ⟨⟨ByteString.validUtf8_bytes "DMM", ByteString.validUtf8_bytes "READ", hempty⟩, ?_⟩
  rcases List.mem_pair.mp hinst with rfl | rfl
  · exact Or.inl rfl
  · exact Or.inr ⟨⟨ByteString.validUtf8_bytes "Scope", ByteString.validUtf8_bytes "__BARRIER_NOP__", hempty⟩, Or.inl rfl⟩

/-- A call to one of two instruments, outside a block. -/
def readOutsideBlock : List ScriptOp := [.call ⟨bytes "DMM.READ", .positional []⟩]

/-- The other instrument is a member of the barrier and is released later, but it is sent nothing that it could acknowledge. -/
theorem barrier_members_readOutsideBlock :
    ∃ r ∈ (ScriptRun.runScript (fun _ _ => true) dmmAndScope.names (twoWorkers.send .compact fun _ => true) true
        readOutsideBlock).records,
      bytes "Scope" ∈ r.registered ∧
        bytes "Scope" ∈ (ScriptRun.runScript (fun _ _ => true) dmmAndScope.names (twoWorkers.send .compact fun _ => true) true
          readOutsideBlock).ctx.tokenInstruments r.token ∧
        ¬ r.Recipient (bytes "Scope") := by
  have hrecords : (ScriptRun.runScript (fun _ _ => true) dmmAndScope.names (twoWorkers.send .compact fun _ => true) true
      readOutsideBlock).records.map (fun r => (r.token, r.registered, r.sent.map SerializedCommand.instrumentName)) =
        [(1, [bytes "DMM", bytes "Scope"], [bytes "DMM"])] := by decide +kernel
  have hreleased : bytes "Scope" ∈ (ScriptRun.runScript (fun _ _ => true) dmmAndScope.names
      (twoWorkers.send .compact fun _ => true) true readOutsideBlock).ctx.tokenInstruments 1 := by decide +kernel
  obtain ⟨r, hr, hview⟩ := List.mem_map.mp (hrecords ▸ List.mem_singleton_self _ : _ ∈ List.map _ _)
  obtain ⟨htoken, hview⟩ := Prod.mk.inj hview
  obtain ⟨hregistered, hsent⟩ := Prod.mk.inj hview
  refine ⟨r, hr, ?_, htoken ▸ hreleased, ?_⟩
  · rw [hregistered]
    exact List.mem_pair.mpr (Or.inr rfl)
  · rintro ⟨cmd, hcmd, hname, -⟩
    have hmem := List.mem_map_of_mem (f := SerializedCommand.instrumentName) hcmd
    rw [hsent, hname] at hmem
    exact absurd (List.mem_singleton.mp hmem) (by decide)

end InstrumentServer
