import InstrumentServer.Server.Framing
import InstrumentServer.Server.Measurement
import InstrumentServer.Server.ResultBookkeeping

/-!
# What a parallel block sends

In enqueue mode `parallel` regroups the buffered commands by instrument, gives every registered instrument at least one command, and tags all of them with one fresh token. `sendEntries` is its loop over the entries together with the calls of `execute` it makes. While a block is sent the registered names stay the same, but other threads go on using the proxies, so the proxy found under a name is a parameter of every lookup.
-/

namespace InstrumentServer

open Ipc InstrumentWorkerProxy

/-! ### One call of `execute` -/

/-- What a call of `execute` comes to for its caller. -/
def InstrumentWorkerProxy.executeOutcome (N : JsonLibrary) (px : InstrumentWorkerProxy) (cmd : SerializedCommand)
    (taken : Bool) : SendOutcome FutureRef :=
  if (px.execute N cmd taken).1.point px.promises = some .raised then .raised
  else .sent (px.instrumentName, px.promises)

/-- The registry during the dispatch of a block, with the proxies that its lookups find. -/
structure FixedRegistry where
  registry : Registry
  getInstrument : Nat → ByteString → Option InstrumentWorkerProxy
  registered : ∀ k inst, (getInstrument k inst).isSome ↔ inst ∈ registry.names
  named : ∀ k inst px, getInstrument k inst = some px → px.instrumentName = inst

/-- The lookup for the entry at index `k` and the call of `execute` behind it; `taken` is whether the queue takes the message. -/
def FixedRegistry.send (w : FixedRegistry) (N : JsonLibrary) (taken : Nat → Bool) (k : Nat) (cmd : SerializedCommand) :
    SendOutcome FutureRef :=
  match w.getInstrument k cmd.instrumentName with
  | none => .noWorker
  | some px => px.executeOutcome N cmd (taken k)

/-- A call of `execute`: the command it was given and the future it returned, if it did not throw. -/
abbrev Handed (Future : Type) : Type := SerializedCommand × Option Future

namespace RuntimeContext

variable {Future : Type}

/-- The loop over the entries of a block, with the calls of `execute` it makes. -/
def sendEntries (send : Nat → SerializedCommand → SendOutcome Future) (token : SyncToken) :
    RuntimeContext Future → List BlockEntry → RuntimeContext Future × List (Handed Future)
  | ctx, [] => (ctx, [])
  | ctx, entry :: entries =>
      let result := send ctx.collectedResults.length entry.cmd
      let ctx := ctx.dispatch token entry.result result
      match result with
      | .raised => (ctx, [(entry.cmd, none)])
      | .noWorker => sendEntries send token ctx entries
      | .sent future =>
          let rest := sendEntries send token ctx entries
          (rest.1, (entry.cmd, some future) :: rest.2)

/-- `parallel` in enqueue mode, behind the run of its block. -/
def sendBlock (send : Nat → SerializedCommand → SendOutcome Future) (ctx : RuntimeContext Future)
    (allInstruments : List ByteString) (buffer : List SerializedCommand) : RuntimeContext Future × List (Handed Future) :=
  if buffer = [] then (ctx, [])
  else
    sendEntries send ctx.nextSyncToken (ctx.drawToken allInstruments)
      (blockEntries ctx.nextSyncToken allInstruments buffer)

end RuntimeContext

/-! ### What the block is to send -/

/-- The commands of an instrument in buffer order, or one that does nothing. -/
def ownCommands (buffer : List SerializedCommand) (inst : ByteString) : List SerializedCommand :=
  match buffer.filter fun cmd => cmd.instrumentName = inst with
  | [] => [{ instrumentName := inst, verb := barrierNop, params := .empty, expectsResponse := true }]
  | cmds => cmds

/-- Commands under a token, the last of them marked as barrier. -/
def tagged (token : SyncToken) (cmds : List SerializedCommand) : List SerializedCommand :=
  cmds.zipIdx.map fun cmd =>
    { cmd.1 with syncToken := some token, isSyncBarrier := decide (cmd.2 + 1 = cmds.length) }

/-- The dispatch of a block under a token: the context before and after it, and the calls of `execute`. -/
structure DispatchesBlock {Future : Type} (names : List ByteString) (buffer : List SerializedCommand) (token : SyncToken)
    (ctx ctx' : RuntimeContext Future) (handed : List (Handed Future)) : Prop where
  fresh : token ∉ ctx.tokenOrder ∧ ctx'.tokenOrder = ctx.tokenOrder ++ [token]
  commands : ∀ inst ∈ names,
    (handed.map Prod.fst).filter (fun cmd => cmd.instrumentName = inst) = tagged token (ownCommands buffer inst)
  onlyRegistered : ∀ call ∈ handed, call.1.instrumentName ∈ names
  tokens : ∀ call ∈ handed, call.1.syncToken = some token
  barrier : ∀ inst ∈ names, ∃ cmds last,
    (handed.map Prod.fst).filter (fun cmd => cmd.instrumentName = inst) = cmds ++ [last] ∧
      last.isSyncBarrier = true ∧ ∀ cmd ∈ cmds, cmd.isSyncBarrier = false
  futures : handed.map Prod.snd = (ctx'.tokenFutures token).map some
  aligned : (ctx'.tokenResultIndices token).length = (ctx'.tokenFutures token).length
  results : ∀ (i k : Nat) (call : Handed Future), (ctx'.tokenResultIndices token)[i]? = some k → handed[i]? = some call →
    ctx'.collectedResults[k]? =
      some { instrumentName := displayName call.1, verb := call.1.verb, params := call.1.params }

/-! ### Valid text is always sent -/

theorem InstrumentWorkerProxy.executeOutcome_of_valid {N : JsonLibrary} {px : InstrumentWorkerProxy} {cmd : SerializedCommand}
    (hvalid : (numberedCommand px cmd).ValidText) (taken : Bool) :
    px.executeOutcome N cmd taken = .sent (px.instrumentName, px.promises) := by
  obtain ⟨text, htext⟩ := (serializeCommand_ok_iff N _).mpr hvalid
  simp only [numberedCommand, commandId, List.append_assoc] at htext
  rw [executeOutcome, if_neg]
  by_cases hopen : px.stopPoint = .stopped
  · simp [execute, runCall, advance, create, drawMessageId, storePromise, encode, setCall, commandId, htext, hopen, point]
  · cases taken with
    | true =>
        simp [execute, runCall, advance, create, drawMessageId, storePromise, encode, setCall, commandId, htext, hopen, point]
    | false =>
        simp [execute, runCall, advance, create, drawMessageId, storePromise, encode, setCall, commandId, htext, hopen, point, resolveUnsent, setValue, erasePending]

theorem InstrumentWorkerProxy.executeOutcome_of_invalid {N : JsonLibrary} {px : InstrumentWorkerProxy} {cmd : SerializedCommand}
    (hinvalid : ¬ (numberedCommand px cmd).ValidText) (taken : Bool) : px.executeOutcome N cmd taken = .raised := by
  obtain ⟨e, he⟩ : ∃ e, serializeCommand N (numberedCommand px cmd) = .error e := by
    cases htext : serializeCommand N (numberedCommand px cmd) with
    | ok text => exact absurd ((serializeCommand_ok_iff N _).mp ⟨text, htext⟩) hinvalid
    | error e => exact ⟨e, rfl⟩
  simp only [numberedCommand, commandId, List.append_assoc] at he
  rw [executeOutcome, if_pos]
  simp [execute, runCall, advance, create, drawMessageId, storePromise, encode, setCall, commandId, he, point]

/-- The strings the encoder writes besides the id are valid UTF-8. -/
def SerializedCommand.Encodable (cmd : SerializedCommand) : Prop :=
  ByteString.ValidUtf8 cmd.instrumentName ∧ ByteString.ValidUtf8 cmd.verb ∧ cmd.params.ValidText

theorem validText_numberedCommand {px : InstrumentWorkerProxy} {cmd : SerializedCommand}
    (hname : px.instrumentName = cmd.instrumentName) : (numberedCommand px cmd).ValidText ↔ cmd.Encodable := by
  constructor
  · exact fun h => h.2
  · intro h
    refine ⟨?_, h⟩
    have hinst : ByteString.ValidUtf8 px.instrumentName := hname ▸ h.1
    exact (hinst.append (ByteString.validUtf8_bytes "-")).append (ByteString.validUtf8_decimal _)

/-- A command for a registered instrument is handed over and its future kept, unless the encoder throws. -/
theorem FixedRegistry.send_of_registered (w : FixedRegistry) (N : JsonLibrary) (taken : Nat → Bool) (k : Nat)
    {cmd : SerializedCommand} (hinst : cmd.instrumentName ∈ w.registry.names) :
    (cmd.Encodable ∧ ∃ future, w.send N taken k cmd = .sent future) ∨
      (¬ cmd.Encodable ∧ w.send N taken k cmd = .raised) := by
  obtain ⟨px, hpx⟩ := Option.isSome_iff_exists.mp ((w.registered k cmd.instrumentName).mpr hinst)
  have hvalid := validText_numberedCommand (w.named k _ px hpx)
  rw [send, hpx]
  by_cases hcmd : cmd.Encodable
  · exact Or.inl ⟨hcmd, _, executeOutcome_of_valid (hvalid.mpr hcmd) _⟩
  · exact Or.inr ⟨hcmd, executeOutcome_of_invalid (mt hvalid.mp hcmd) _⟩

theorem FixedRegistry.send_of_unregistered (w : FixedRegistry) (N : JsonLibrary) (taken : Nat → Bool) (k : Nat)
    {cmd : SerializedCommand} (hinst : cmd.instrumentName ∉ w.registry.names) : w.send N taken k cmd = .noWorker := by
  have hnone : w.getInstrument k cmd.instrumentName = none := by
    rw [← Option.not_isSome_iff_eq_none, w.registered]
    exact hinst
  rw [send, hnone]

/-! ### The loop -/

namespace RuntimeContext

variable {Future : Type} {send : Nat → SerializedCommand → SendOutcome Future} {token : SyncToken}

/-- The loop is the one that `RuntimeContext` keeps its books by. -/
theorem fst_sendEntries {outcome : Nat → SendOutcome Future} {entries : List BlockEntry} {ctx : RuntimeContext Future}
    (houtcome : ∀ i entry, entries[i]? = some entry →
      outcome (ctx.collectedResults.length + i) = send (ctx.collectedResults.length + i) entry.cmd) :
    (sendEntries send token ctx entries).1 = dispatchBlock outcome token ctx entries := by
  induction entries generalizing ctx with
  | nil => rfl
  | cons entry entries ih =>
      have hfirst : outcome ctx.collectedResults.length = send ctx.collectedResults.length entry.cmd := houtcome 0 entry rfl
      have hrest : ∀ result, ∀ i other, entries[i]? = some other →
          outcome ((ctx.dispatch token entry.result result).collectedResults.length + i) =
            send ((ctx.dispatch token entry.result result).collectedResults.length + i) other.cmd := by
        intro result i other hother
        rw [collectedResults_dispatch, List.length_append, List.length_singleton, Nat.add_assoc, Nat.add_comm 1 i]
        exact houtcome (i + 1) other hother
      rw [sendEntries, dispatchBlock, hfirst]
      cases hsend : send ctx.collectedResults.length entry.cmd with
      | raised => rfl
      | noWorker => exact ih (hrest .noWorker)
      | sent future => exact ih (hrest (.sent future))

/-- When no call throws and no worker is missing, every entry is handed over and has its index and its future. -/
theorem sendEntries_of_sent (token : SyncToken) {entries : List BlockEntry}
    (hsent : ∀ entry ∈ entries, ∀ k, ∃ future, send k entry.cmd = .sent future) (ctx : RuntimeContext Future) :
    ∃ futures : List Future, futures.length = entries.length ∧
      (sendEntries send token ctx entries).2 = (entries.map BlockEntry.cmd).zip (futures.map some) ∧
      (sendEntries send token ctx entries).1.tokenFutures token = ctx.tokenFutures token ++ futures ∧
      (sendEntries send token ctx entries).1.tokenResultIndices token =
        ctx.tokenResultIndices token ++ List.range' ctx.collectedResults.length entries.length ∧
      (sendEntries send token ctx entries).1.collectedResults = ctx.collectedResults ++ entries.map BlockEntry.result ∧
      (sendEntries send token ctx entries).1.tokenOrder = ctx.tokenOrder := by
  induction entries generalizing ctx with
  | nil => exact ⟨[], by simp [sendEntries]⟩
  | cons entry entries ih =>
      obtain ⟨future, hfuture⟩ := hsent entry List.mem_cons_self ctx.collectedResults.length
      obtain ⟨futures, hlength, hhanded, hfutures, hindices, hresults, horder⟩ :=
        ih (fun other hother => hsent other (List.mem_cons_of_mem entry hother)) (ctx.dispatch token entry.result (.sent future))
      have hrest : sendEntries send token ctx (entry :: entries) =
          ((sendEntries send token (ctx.dispatch token entry.result (.sent future)) entries).1,
            (entry.cmd, some future) ::
              (sendEntries send token (ctx.dispatch token entry.result (.sent future)) entries).2) := by
        rw [sendEntries, hfuture]
      refine ⟨future :: futures, by simp [hlength], ?_, ?_, ?_, ?_, ?_⟩
      · rw [hrest, hhanded]
        rfl
      · rw [hrest, hfutures]
        simp [dispatch, pushFuture, pushResult]
      · rw [hrest, hindices, tokenResultIndices_dispatch, collectedResults_dispatch]
        simp [List.range'_succ]
      · rw [hrest, hresults, collectedResults_dispatch]
        simp
      · rw [hrest, horder, tokenOrder_dispatch]

end RuntimeContext

/-! ### The commands of a block -/

theorem instrumentName_ownCommands {buffer : List SerializedCommand} {inst : ByteString} {cmd : SerializedCommand}
    (hcmd : cmd ∈ ownCommands buffer inst) : cmd.instrumentName = inst := by
  rw [ownCommands] at hcmd
  split at hcmd
  · rw [List.mem_singleton.mp hcmd]
  · exact of_decide_eq_true (List.mem_filter.mp hcmd).2

theorem mem_tagged {token : SyncToken} {cmds : List SerializedCommand} {cmd : SerializedCommand} (hcmd : cmd ∈ tagged token cmds) :
    ∃ own ∈ cmds, ∃ last, cmd = { own with syncToken := some token, isSyncBarrier := last } := by
  obtain ⟨⟨own, i⟩, hown, rfl⟩ := List.mem_map.mp hcmd
  exact ⟨own, List.fst_mem_of_mem_zipIdx hown, _, rfl⟩

/-- Only the last command is marked. -/
theorem tagged_eq_append (token : SyncToken) {cmds : List SerializedCommand} (hne : cmds ≠ []) :
    ∃ before last, tagged token cmds = before ++ [last] ∧ last.isSyncBarrier = true ∧
      ∀ cmd ∈ before, cmd.isSyncBarrier = false := by
  obtain ⟨others, final, rfl⟩ := List.eq_nil_or_concat cmds |>.resolve_left hne
  refine ⟨others.zipIdx.map fun cmd => { cmd.1 with syncToken := some token, isSyncBarrier := false },
    { final with syncToken := some token, isSyncBarrier := true }, ?_, rfl, fun cmd hcmd => ?_⟩
  · rw [tagged, List.concat_eq_append, List.zipIdx_append, List.map_append]
    congr 1
    · refine List.map_congr_left fun cmd hcmd => ?_
      have hlt : cmd.2 < others.length := by simpa using List.snd_lt_of_mem_zipIdx hcmd
      have hnot : ¬ cmd.2 + 1 = (others ++ [final]).length := by
        rw [List.length_append, List.length_singleton]
        omega
      rw [decide_eq_false hnot]
    · simp
  · obtain ⟨entry, -, rfl⟩ := List.mem_map.mp hcmd
    rfl

/-- The entries for one instrument are its tagged commands. -/
theorem cmd_blockEntries (token : SyncToken) (names : List ByteString) (buffer : List SerializedCommand) :
    (blockEntries token names buffer).map BlockEntry.cmd =
      names.flatMap fun inst => tagged token (ownCommands buffer inst) := by
  rw [blockEntries, List.map_flatMap]
  refine List.flatMap_congr fun inst _ => ?_
  rw [ownCommands]
  cases buffer.filter fun cmd => cmd.instrumentName = inst with
  | nil => rfl
  | cons cmd cmds =>
      show (instrumentEntries token (cmd :: cmds)).map BlockEntry.cmd = tagged token (cmd :: cmds)
      rw [instrumentEntries, tagged, List.map_map]
      rfl

/-- Every placeholder names the command it stands for. -/
theorem result_blockEntries {token : SyncToken} {names : List ByteString} {buffer : List SerializedCommand} {entry : BlockEntry}
    (hentry : entry ∈ blockEntries token names buffer) :
    entry.result =
      { instrumentName := displayName entry.cmd, verb := entry.cmd.verb, params := entry.cmd.params } := by
  rcases mem_blockEntries hentry with ⟨inst, -, rfl⟩ | ⟨last, cmd, -, -, rfl⟩
  · rfl
  · rfl

theorem getElem?_result_blockEntries {token : SyncToken} {names : List ByteString} {buffer : List SerializedCommand} {i : Nat}
    {cmd : SerializedCommand} (hcmd : ((blockEntries token names buffer).map BlockEntry.cmd)[i]? = some cmd) :
    ((blockEntries token names buffer).map BlockEntry.result)[i]? =
      some { instrumentName := displayName cmd, verb := cmd.verb, params := cmd.params } := by
  rw [List.getElem?_map] at hcmd
  obtain ⟨entry, hentry, rfl⟩ := Option.map_eq_some_iff.mp hcmd
  rw [List.getElem?_map, hentry, Option.map_some, result_blockEntries (List.mem_of_getElem? hentry)]

theorem syncToken_blockEntries {token : SyncToken} {names : List ByteString} {buffer : List SerializedCommand} {entry : BlockEntry}
    (hentry : entry ∈ blockEntries token names buffer) : entry.cmd.syncToken = some token := by
  have htagged : entry.cmd ∈ names.flatMap fun inst => tagged token (ownCommands buffer inst) := by
    rw [← cmd_blockEntries]
    exact List.mem_map_of_mem hentry
  obtain ⟨inst, -, hinst⟩ := List.mem_flatMap.mp htagged
  obtain ⟨own, -, last, heq⟩ := mem_tagged hinst
  rw [heq]

theorem encodable_blockEntries {token : SyncToken} {names : List ByteString} {buffer : List SerializedCommand}
    (hbuffer : ∀ cmd ∈ buffer, cmd.Encodable) (hnames : ∀ inst ∈ names, ByteString.ValidUtf8 inst) {entry : BlockEntry}
    (hentry : entry ∈ blockEntries token names buffer) : entry.cmd.Encodable := by
  rcases mem_blockEntries hentry with ⟨inst, hinst, rfl⟩ | ⟨last, cmd, hcmd, -, rfl⟩
  · refine ⟨hnames inst hinst, ByteString.validUtf8_bytes "__BARRIER_NOP__", ?_⟩
    intro param hparam
    contradiction
  · exact hbuffer cmd hcmd

/-! ### The dispatch -/

theorem ownCommands_ne_nil (buffer : List SerializedCommand) (inst : ByteString) : ownCommands buffer inst ≠ [] := by
  rw [ownCommands]
  split
  · simp
  · assumption

/-- The calls of `execute` for one instrument are its tagged commands. -/
theorem filter_cmd_blockEntries (token : SyncToken) (registry : Registry) (buffer : List SerializedCommand) {inst : ByteString}
    (hinst : inst ∈ registry.names) :
    ((blockEntries token registry.names buffer).map BlockEntry.cmd).filter (fun cmd => cmd.instrumentName = inst) =
      tagged token (ownCommands buffer inst) := by
  rw [cmd_blockEntries]
  refine Lists.filter_flatMap_of_key (fun k cmd hcmd => ?_) (registry.sorted.imp ne_of_lt) hinst
  obtain ⟨own, hown, last, rfl⟩ := mem_tagged hcmd
  show own.instrumentName = k
  exact instrumentName_ownCommands hown

/-- Every command of a block with valid text goes to a registered instrument, and it is sent. -/
theorem send_blockEntries (N : JsonLibrary) {w : FixedRegistry} (taken : Nat → Bool) {token : SyncToken}
    {buffer : List SerializedCommand} (hvalid : ∀ cmd ∈ buffer, cmd.Encodable)
    (hnames : ∀ inst ∈ w.registry.names, ByteString.ValidUtf8 inst) {entry : BlockEntry}
    (hentry : entry ∈ blockEntries token w.registry.names buffer) (k : Nat) :
    ∃ future, w.send N taken k entry.cmd = .sent future := by
  have hencodable : entry.cmd.Encodable := encodable_blockEntries hvalid hnames hentry
  have hregistered := MeasurementRun.instrumentName_blockEntries hentry
  rcases w.send_of_registered N taken k hregistered with ⟨-, hfuture⟩ | ⟨hnot, -⟩
  · exact hfuture
  · exact absurd hencodable hnot

/-- Whatever the script did before, a block with valid text sends every registered instrument its commands under a fresh token, and the indices and futures of the token belong to each other. -/
theorem parallel_dispatches (N : JsonLibrary) (expects : ByteString → ByteString → Bool)
    (outcome : Nat → SendOutcome FutureRef) (script : List EnqueueOp) (w : FixedRegistry) (taken : Nat → Bool)
    {buffer : List SerializedCommand} (hbuffer : buffer ≠ []) (hvalid : ∀ cmd ∈ buffer, cmd.Encodable)
    (hnames : ∀ inst ∈ w.registry.names, ByteString.ValidUtf8 inst) :
    DispatchesBlock w.registry.names buffer (RuntimeContext.runScript expects outcome script).nextSyncToken
      (RuntimeContext.runScript expects outcome script)
      ((RuntimeContext.runScript expects outcome script).sendBlock (w.send N taken) w.registry.names buffer).1
      ((RuntimeContext.runScript expects outcome script).sendBlock (w.send N taken) w.registry.names buffer).2 := by
  have hbooks := RuntimeContext.Books.runScript expects outcome script
  generalize RuntimeContext.runScript expects outcome script = ctx at hbooks ⊢
  have hfresh : ctx.nextSyncToken ∉ ctx.tokenOrder := fun hmem => absurd (hbooks.below _ hmem) (lt_irrefl _)
  obtain ⟨hnofutures, hnoindices⟩ := hbooks.unknown _ hfresh
  rw [RuntimeContext.sendBlock, if_neg hbuffer]
  generalize hentries : blockEntries ctx.nextSyncToken w.registry.names buffer = entries
  have hcmds : entries.map BlockEntry.cmd =
      (blockEntries ctx.nextSyncToken w.registry.names buffer).map BlockEntry.cmd := by rw [hentries]
  have hmem : ∀ entry ∈ entries, entry ∈ blockEntries ctx.nextSyncToken w.registry.names buffer :=
    fun entry hentry => hentries ▸ hentry
  have hsent : ∀ entry ∈ entries, ∀ k, ∃ future, w.send N taken k entry.cmd = .sent future :=
    fun entry hentry k => send_blockEntries N taken hvalid hnames (hmem entry hentry) k
  obtain ⟨futures, hlength, hhanded, hfutures, hindices, hresults, horder⟩ :=
    RuntimeContext.sendEntries_of_sent ctx.nextSyncToken hsent (ctx.drawToken w.registry.names)
  have hfst : ((entries.map BlockEntry.cmd).zip (futures.map some)).map Prod.fst = entries.map BlockEntry.cmd :=
    List.map_fst_zip (by simp [hlength])
  have hsnd : ((entries.map BlockEntry.cmd).zip (futures.map some)).map Prod.snd = futures.map some :=
    List.map_snd_zip (by simp [hlength])
  have hcommands : ∀ inst ∈ w.registry.names,
      (entries.map BlockEntry.cmd).filter (fun cmd => cmd.instrumentName = inst) =
        tagged ctx.nextSyncToken (ownCommands buffer inst) := by
    intro inst hinst
    rw [hcmds]
    exact filter_cmd_blockEntries _ _ _ hinst
  have hcall : ∀ call ∈ (entries.map BlockEntry.cmd).zip (futures.map some), ∃ entry ∈ entries, entry.cmd = call.1 :=
    fun call hmemcall => List.mem_map.mp (List.of_mem_zip hmemcall).1
  rw [hhanded]
  refine ⟨⟨hfresh, ?_⟩, fun inst hinst => ?_, fun call hmemcall => ?_, fun call hmemcall => ?_, fun inst hinst => ?_, ?_, ?_, ?_⟩
  · rw [horder]
    rfl
  · rw [hfst]
    exact hcommands inst hinst
  · obtain ⟨entry, hentry, hcmd⟩ := hcall call hmemcall
    rw [← hcmd]
    exact MeasurementRun.instrumentName_blockEntries (hmem entry hentry)
  · obtain ⟨entry, hentry, hcmd⟩ := hcall call hmemcall
    rw [← hcmd]
    exact syncToken_blockEntries (hmem entry hentry)
  · rw [hfst, hcommands inst hinst]
    exact tagged_eq_append _ (ownCommands_ne_nil buffer inst)
  · rw [hsnd, hfutures]
    show futures.map some = (ctx.tokenFutures ctx.nextSyncToken ++ futures).map some
    rw [hnofutures, List.nil_append]
  · rw [hfutures, hindices]
    show (ctx.tokenResultIndices ctx.nextSyncToken ++ _).length = (ctx.tokenFutures ctx.nextSyncToken ++ futures).length
    rw [hnofutures, hnoindices, List.nil_append, List.nil_append, List.length_range', hlength]
  · intro i k call hindex hget
    rw [hindices] at hindex
    replace hindex : (List.range' ctx.collectedResults.length entries.length)[i]? = some k := by
      rw [show (ctx.drawToken w.registry.names).tokenResultIndices ctx.nextSyncToken = [] from hnoindices,
        List.nil_append] at hindex
      exact hindex
    obtain ⟨hi, rfl⟩ := List.getElem?_eq_some_iff.mp hindex
    rw [List.length_range'] at hi
    obtain ⟨hcmd, -⟩ := List.getElem?_zip_eq_some.mp hget
    rw [hresults, List.getElem_range', Nat.one_mul]
    show (ctx.collectedResults ++ entries.map BlockEntry.result)[ctx.collectedResults.length + i]? = _
    rw [List.getElem?_append_right (Nat.le_add_right _ _), Nat.add_sub_cancel_left]
    rw [hcmds] at hcmd
    rw [← hentries]
    exact getElem?_result_blockEntries hcmd

/-- Two instruments whose workers have just been started. -/
def twoWorkers : FixedRegistry where
  registry := dmmAndScope
  getInstrument _ inst := if inst ∈ dmmAndScope.names then some { instrumentName := inst } else none
  registered k inst := by simp
  named k inst px h := by
    obtain ⟨-, rfl⟩ : inst ∈ dmmAndScope.names ∧ _ = px := by simpa using h
    rfl

/-- A block that leaves the second instrument out. -/
def dmmBlock : List SerializedCommand :=
  [{ instrumentName := bytes "DMM", verb := bytes "RANGE", params := .empty },
    { instrumentName := bytes "DMM", verb := bytes "READ", params := .empty, expectsResponse := true }]

theorem parallel_dispatches_dmmBlock :
    DispatchesBlock [bytes "DMM", bytes "Scope"] dmmBlock 1 ({} : RuntimeContext FutureRef)
      (({} : RuntimeContext FutureRef).sendBlock (twoWorkers.send .compact fun _ => true) [bytes "DMM", bytes "Scope"] dmmBlock).1
      (({} : RuntimeContext FutureRef).sendBlock (twoWorkers.send .compact fun _ => true) [bytes "DMM", bytes "Scope"] dmmBlock).2 := by
  refine parallel_dispatches .compact (fun _ _ => true) (fun _ => .noWorker) [] twoWorkers (fun _ => true) (by decide) ?_ ?_
  · intro cmd hcmd
    have hempty : ParamMap.empty.ValidText := fun entry hentry => absurd hentry List.not_mem_nil
    rcases List.mem_pair.mp hcmd with rfl | rfl
    · exact ⟨by decide, by decide, hempty⟩
    · exact ⟨by decide, by decide, hempty⟩
  · intro inst hinst
    rcases List.mem_pair.mp hinst with rfl | rfl
    · exact ByteString.validUtf8_bytes "DMM"
    · exact ByteString.validUtf8_bytes "Scope"

end InstrumentServer
