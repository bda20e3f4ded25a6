import InstrumentServer.Server.Lockstep
import InstrumentServer.Server.ParallelDispatch

/-!
# The barrier of one block

A block whose barrier is registered at the coordinator the proxies acknowledge to. Its commands are handed over one after the other, while the workers and the listeners run and other threads send commands, use the coordinator and stop proxies. A worker acknowledges every command that has a token, and the coordinator counts the first acknowledgement of an instrument. So a barrier completes when every instrument has executed one command with its token: for an instrument with several that is too early, and so it is when the command was that of another thread. Every context counts its tokens from one, so two threads can come to the same token.

`system` is over all interleavings; `SparesBlock` is what other threads must not do with the token of the block.
-/

namespace InstrumentServer

open Ipc Transition InstrumentWorkerProxy

/-! ### Acknowledgements on one link -/

/-- The token as the worker reads it from the encoded command. -/
def SerializedCommand.HasToken (cmd : SerializedCommand) (token : SyncToken) : Prop :=
  cmd.syncToken.map (· % 2 ^ 64) = some token

instance (cmd : SerializedCommand) (token : SyncToken) : Decidable (cmd.HasToken token) :=
  inferInstanceAs (Decidable (cmd.syncToken.map (· % 2 ^ 64) = some token))

namespace WorkerLink

/-- An acknowledgement of the token is on its way, or the worker is about to send it. -/
def Acknowledges (l : WorkerLink) (token : SyncToken) : Prop :=
  (∃ msg ∈ l.responses, msg.type = .syncAck ∧ msg.syncToken = token) ∨
    ∃ id last, l.worker.phase = .acknowledging id token last

/-- The worker executed a command with the token. -/
def Acknowledged (N : JsonLibrary) (l : WorkerLink) (token : SyncToken) : Prop :=
  ∃ msg ∈ l.executed, ∃ cmd, deserializeCommand N msg.payload = .ok cmd ∧ cmd.syncToken = some token

/-- Every acknowledgement is that of an executed command. -/
def AcksFollow (N : JsonLibrary) (l : WorkerLink) : Prop := ∀ token, l.Acknowledges token → l.Acknowledged N token

/-- The steps of a link in which nobody enters `execute`. -/
inductive Quiet (N : JsonLibrary) (l : WorkerLink) : WorkerLink → Prop where
  | advance {l' : WorkerLink} {p : PromiseId} {sent : Bool} (hnext : l.advance N p sent = some l') : Quiet N l l'
  | waitTimeout {l' : WorkerLink} {p : PromiseId} (hnext : l.waitTimeout p = some l') : Quiet N l l'
  | sendSyncContinue (syncToken : SyncToken) : Quiet N l (l.sendSyncContinue syncToken)
  | listen {l' : WorkerLink} {token : Option SyncToken} (hnext : l.listen N = some (l', token)) : Quiet N l l'
  | workerReceive {l' : WorkerLink} (hnext : l.workerReceive N = some l') : Quiet N l l'
  | workerFinish {l' : WorkerLink} {plugin : PluginResponse} {delivered : Bool}
      (hnext : l.workerFinish N plugin delivered = some l') : Quiet N l l'
  | workerAck {l' : WorkerLink} {delivered : Bool} (hnext : l.workerAck delivered = some l') : Quiet N l l'

theorem Quiet.step {N : JsonLibrary} {l l' : WorkerLink} (h : Quiet N l l') : Step N l l' := by
  cases h with
  | advance hnext => exact .advance hnext
  | waitTimeout hnext => exact .waitTimeout hnext
  | sendSyncContinue syncToken => exact .sendSyncContinue syncToken
  | listen hnext => exact .listen hnext
  | workerReceive hnext => exact .workerReceive hnext
  | workerFinish hnext => exact .workerFinish hnext
  | workerAck hnext => exact .workerAck hnext

/-- A call with the token, and its command is executed. -/
def ExecutedFor (l : WorkerLink) (token : SyncToken) (p : PromiseId) : Prop :=
  ∃ call, l.proxy.calls p = some call ∧ call.cmd.HasToken token ∧ l.Executed p

end WorkerLink

/-- After a command the worker owes an acknowledgement of its own token, and what it sent is a response. -/
theorem Instrument.finishCommand_owes {N : JsonLibrary} {w w' : Instrument} {msg : IpcMessage} {cmd : SerializedCommand}
    {plugin : PluginResponse} {msgs : List IpcMessage} (hphase : w.phase = .executing msg cmd)
    (hnext : w.finishCommand N plugin = some (w', msgs)) :
    (∀ id token last, w'.phase = .acknowledging id token last → cmd.syncToken = some token) ∧
      ∀ resp ∈ msgs, resp.type = .response := by
  rw [Instrument.finishCommand, hphase] at hnext
  dsimp only at hnext
  split at hnext
  · rename_i resp hresp
    obtain ⟨text, -, rfl⟩ := (sendCommandResponse_ok_iff N msg cmd _ resp).mp hresp
    split at hnext
    · rename_i token htoken
      obtain ⟨rfl, rfl⟩ := Prod.mk.inj (Option.some.inj hnext)
      refine ⟨?_, by simp [IpcMessage.frame]⟩
      rintro id token' last ⟨⟩
      exact htoken
    · obtain ⟨rfl, rfl⟩ := Prod.mk.inj (Option.some.inj hnext)
      exact ⟨by simp, by simp [IpcMessage.frame]⟩
  · obtain ⟨rfl, rfl⟩ := Prod.mk.inj (Option.some.inj hnext)
    exact ⟨by simp, by simp⟩

namespace LinkInv

open WorkerLink

variable {N : JsonLibrary} {l l' : WorkerLink} {token : SyncToken}

theorem acksFollow_of_same (hacks : AcksFollow N l) (hresponses : l'.responses ⊆ l.responses)
    (hphase : ∀ id token last, l'.worker.phase = .acknowledging id token last →
      l.worker.phase = .acknowledging id token last) (hexecuted : l.executed ⊆ l'.executed) : AcksFollow N l' := by
  intro token howed
  have hbefore : l.Acknowledges token := by
    rcases howed with ⟨msg, hmsg, htype, htoken⟩ | ⟨id, last, howing⟩
    · exact Or.inl ⟨msg, hresponses hmsg, htype, htoken⟩
    · exact Or.inr ⟨id, last, hphase id token last howing⟩
  obtain ⟨msg, hmsg, hcmd⟩ := hacks token hbefore
  exact ⟨msg, hexecuted hmsg, hcmd⟩

/-- A command that ends is executed, and only its acknowledgement becomes due. -/
theorem acksFollow_workerFinish (h : LinkInv N l) (hacks : AcksFollow N l) {plugin : PluginResponse} {delivered : Bool}
    (hnext : l.workerFinish N plugin delivered = some l') : AcksFollow N l' := by
  obtain ⟨msg, cmd, w, msgs, hphase, hfinish, rfl⟩ := WorkerLink.workerFinish_cases hnext
  obtain ⟨howes, hresponse⟩ := Instrument.finishCommand_owes hphase hfinish
  intro token howed
  rcases howed with ⟨ack, hmem, htype, htoken⟩ | ⟨id, last, howing⟩
  · have hbefore : ack ∈ l.responses := by
      dsimp only at hmem
      split at hmem
      · refine (List.mem_append.mp hmem).resolve_right fun hnew => ?_
        rw [hresponse ack hnew] at htype
        contradiction
      · exact hmem
    obtain ⟨executed, hexecuted, hcmd⟩ := hacks token (Or.inl ⟨ack, hbefore, htype, htoken⟩)
    exact ⟨executed, List.mem_append_left _ hexecuted, hcmd⟩
  · exact ⟨msg, List.mem_append_right _ List.mem_cons_self, cmd, (h.executing msg cmd hphase).1,
      howes id token last howing⟩

/-- An acknowledgement was due before it is sent. -/
theorem acksFollow_workerAck (hacks : AcksFollow N l) {delivered : Bool} (hnext : l.workerAck delivered = some l') :
    AcksFollow N l' := by
  obtain ⟨⟨w, msgs⟩, hack, rfl⟩ := Option.map_eq_some_iff.mp hnext
  obtain ⟨id, token, last, hphase, rfl, rfl⟩ := Instrument.sendSyncAck_cases hack
  intro token' howed
  have hbefore : l.Acknowledges token' := by
    rcases howed with ⟨msg, hmsg, htype, htoken⟩ | ⟨id', last', howing⟩
    · dsimp only at hmsg
      split at hmsg
      · rcases List.mem_append.mp hmsg with hold | hnew
        · exact Or.inl ⟨msg, hold, htype, htoken⟩
        · obtain rfl := List.mem_singleton.mp hnew
          exact Or.inr ⟨id, last, htoken ▸ hphase⟩
      · exact Or.inl ⟨msg, hmsg, htype, htoken⟩
    · contradiction
  exact hacks token' hbefore

theorem acksFollow_step (h : LinkInv N l) (hacks : AcksFollow N l) (hstep : Step N l l') : AcksFollow N l' := by
  cases hstep with
  | execute cmd => exact acksFollow_of_same hacks (List.Subset.refl _) (fun _ _ _ => id) (List.Subset.refl _)
  | sendSyncContinue syncToken =>
      exact acksFollow_of_same hacks (List.Subset.refl _) (fun _ _ _ => id) (List.Subset.refl _)
  | advance hnext =>
      obtain ⟨px', -, rfl⟩ := Option.map_eq_some_iff.mp hnext
      exact acksFollow_of_same hacks (List.Subset.refl _) (fun _ _ _ => id) (List.Subset.refl _)
  | waitTimeout hnext =>
      obtain ⟨px', -, rfl⟩ := Option.map_eq_some_iff.mp hnext
      exact acksFollow_of_same hacks (List.Subset.refl _) (fun _ _ _ => id) (List.Subset.refl _)
  | listen hnext =>
      obtain ⟨msg, rest, px', hresponses, -, rfl, -⟩ := WorkerLink.listen_cases hnext
      refine acksFollow_of_same hacks ?_ (fun _ _ _ => id) (List.Subset.refl _)
      rw [hresponses]
      exact List.subset_cons_self msg rest
  | workerReceive hnext =>
      obtain ⟨_, _, w, -, hreceive, rfl⟩ := WorkerLink.workerReceive_cases hnext
      refine acksFollow_of_same hacks (List.Subset.refl _) (fun id token last howing => ?_) (List.Subset.refl _)
      obtain ⟨-, -, ⟨-, hidle⟩ | ⟨-, cmd, -, hexecuting⟩ | hexited⟩ := Instrument.receive_cases h.unblocked hreceive
      · rw [hidle] at howing
        contradiction
      · rw [hexecuting] at howing
        contradiction
      · rw [hexited] at howing
        contradiction
  | workerFinish hnext => exact acksFollow_workerFinish h hacks hnext
  | workerAck hnext => exact acksFollow_workerAck hacks hnext

/-- An executed command with the token is that of a call with the token. -/
theorem executedFor_of_acknowledged (h : LinkInv N l) (hacked : l.Acknowledged N token) : ∃ p, l.ExecutedFor token p := by
  obtain ⟨msg, hmsg, cmd, hdecode, htoken⟩ := hacked
  obtain ⟨rest, hcommands, -⟩ := h.queued
  have hsent : msg ∈ l.commands := by
    rw [hcommands, h.begun]
    simp [hmsg]
  obtain ⟨p, call, hcall, -, hid, text, htext, hframe⟩ := h.sent msg hsent
  have hpayload : msg.payload = text.take maxPayload := by
    rw [hframe]
    rfl
  rw [hpayload] at hdecode
  obtain ⟨hfits, hfinite⟩ := (deserializeCommand_take N maxPayload htext).mp ⟨cmd, hdecode⟩
  rw [List.take_of_length_le hfits, deserializeCommand_of_serialize N htext hfinite] at hdecode
  rw [← Except.ok.inj hdecode] at htoken
  exact ⟨p, call, hcall, htoken, msg, hmsg, by simp [messageId, hcall, hid]⟩

/-- A call keeps its token, and what is executed stays executed. -/
theorem executedFor_of_evolves (hcalls : CallsEvolve l.proxy l'.proxy) (hexecuted : l.executed ⊆ l'.executed) {p : PromiseId}
    (hp : l.ExecutedFor token p) : l'.ExecutedFor token p := by
  obtain ⟨call, hcall, htoken, msg, hmsg, hid⟩ := hp
  obtain ⟨call', hcall', hevolves⟩ := hcalls p call hcall
  obtain ⟨id, hcmd⟩ := hevolves.cmd
  have hdrawn : call.msgId = some msg.id := by simpa [messageId, hcall] using hid
  refine ⟨call', hcall', ?_, msg, hexecuted hmsg, ?_⟩
  · rw [hcmd]
    exact htoken
  · simpa [messageId, hcall'] using (hevolves.drawn msg.id hdrawn).1

/-- After `stop` the worker owes what it owed. -/
theorem acksFollow_stop (hacks : AcksFollow N l) (hnext : l.stop = some l') : AcksFollow N l' := by
  obtain ⟨px', -, rfl⟩ := Option.map_eq_some_iff.mp hnext
  exact acksFollow_of_same hacks (List.Subset.refl _) (fun _ _ _ => id) (List.Subset.refl _)

/-- A step without a new call moves the calls there are. -/
theorem calls_quiet (h : LinkInv N l) (hstep : Quiet N l l') {p : PromiseId} {call' : ExecuteCall}
    (hcall' : l'.proxy.calls p = some call') : ∃ call, l.proxy.calls p = some call ∧ call.Evolves call' := by
  have hold : ∀ {px' : InstrumentWorkerProxy}, px'.calls = l.proxy.calls → px'.calls p = some call' →
      ∃ call, l.proxy.calls p = some call ∧ call.Evolves call' :=
    fun hcalls hcall => ⟨call', hcalls ▸ hcall, .refl call'⟩
  cases hstep with
  | advance hnext =>
      obtain ⟨⟨px', msgs⟩, hadvance, rfl⟩ := Option.map_eq_some_iff.mp hnext
      obtain ⟨call, hcall, hmoves⟩ := advance_cases hadvance
      obtain ⟨next, hspec⟩ := h.promises.advanced hcall hmoves
      rcases calls_update_cases hspec.calls hcall' with ⟨rfl, rfl⟩ | hother
      · exact ⟨call, hcall, hspec.evolves⟩
      · exact ⟨call', hother, .refl call'⟩
  | waitTimeout hnext =>
      obtain ⟨px', htimeout, rfl⟩ := Option.map_eq_some_iff.mp hnext
      obtain ⟨call, stats, hcall, hpoint, rfl⟩ := waitTimeout_cases htimeout
      rcases @calls_update_cases l.proxy _ _ _ _ _ rfl hcall' with ⟨rfl, rfl⟩ | hother
      · exact ⟨call, hcall, .move .timedOut fun _ => ⟨Or.inl hpoint, rfl⟩⟩
      · exact ⟨call', hother, .refl call'⟩
  | sendSyncContinue syncToken => exact hold rfl hcall'
  | listen hnext =>
      obtain ⟨msg, rest, px', -, hreceive, rfl, -⟩ := WorkerLink.listen_cases hnext
      exact hold (InstrumentWorkerProxy.receive_cases hreceive).1 hcall'
  | workerReceive hnext =>
      obtain ⟨_, _, _, -, -, rfl⟩ := WorkerLink.workerReceive_cases hnext
      exact hold rfl hcall'
  | workerFinish hnext =>
      obtain ⟨_, _, _, _, -, -, rfl⟩ := WorkerLink.workerFinish_cases hnext
      exact hold rfl hcall'
  | workerAck hnext =>
      obtain ⟨w, -, rfl⟩ := Option.map_eq_some_iff.mp hnext
      exact hold rfl hcall'

end LinkInv

/-! ### The system -/

/-- The commands of a block in the order they are handed over. -/
structure Block where
  token : SyncToken
  token_lt : token < 2 ^ 64
  commands : List SerializedCommand
  tokens : ∀ cmd ∈ commands, cmd.syncToken = some token

/-- The instruments of the block, which its barrier is registered for. -/
def Block.instruments (b : Block) : List ByteString := b.commands.map SerializedCommand.instrumentName

/-- The block that `parallel` sends for a buffer. -/
def Block.ofBuffer (token : SyncToken) (token_lt : token < 2 ^ 64) (names : List ByteString) (buffer : List SerializedCommand) :
    Block where
  token
  token_lt
  commands := (blockEntries token names buffer).map BlockEntry.cmd
  tokens := by
    intro cmd hcmd
    obtain ⟨entry, hentry, rfl⟩ := List.mem_map.mp hcmd
    exact syncToken_blockEntries hentry

structure BlockRun where
  links : ByteString → WorkerLink
  /-- of the registry; the barrier of the block is registered here -/
  coordinator : SyncCoordinator
  /-- how many commands of the block the thread has come to -/
  next : Nat := 0
  /-- the call of `execute` for each command that was handed over -/
  promise : Nat → Option PromiseId := fun _ => none
  /-- the call the thread is in -/
  inCall : Option FutureRef := none
  acks : List AckReply := []

inductive BlockLabel where
  /-- the thread looks up the worker of the next command and, if it is there, enters `execute` -/
  | dispatch (found : Bool)
  | endCall
  /-- another thread enters `execute` -/
  | execute (cmd : SerializedCommand)
  /-- another thread uses the coordinator -/
  | coordinate (call : SyncCoordinator.SyncCall)
  | release (inst : ByteString) (token : SyncToken)
  | advance (inst : ByteString) (p : PromiseId) (sent : Bool)
  | timeout (inst : ByteString) (p : PromiseId)
  | listen (inst : ByteString)
  | workerReceive (inst : ByteString)
  | workerFinish (inst : ByteString) (plugin : PluginResponse) (delivered : Bool)
  | workerAck (inst : ByteString) (delivered : Bool)
  /-- a thread goes on with the `stop` of a proxy -/
  | stop (inst : ByteString)

namespace BlockRun

def setLink (s : BlockRun) (inst : ByteString) (l : WorkerLink) : BlockRun :=
  { s with links := Function.update s.links inst l }

/-- The thread enters `execute` with the next command. -/
def hand (s : BlockRun) (cmd : SerializedCommand) : BlockRun :=
  let inst := cmd.instrumentName
  { s.setLink inst ((s.links inst).execute cmd) with
    next := s.next + 1
    promise := Function.update s.promise s.next (some (s.links inst).proxy.promises)
    inCall := some (inst, (s.links inst).proxy.promises) }

def dispatch (b : Block) (s : BlockRun) (found : Bool) : Option BlockRun :=
  match s.inCall, b.commands[s.next]? with
  | none, some cmd => some (if found then s.hand cmd else { s with next := s.next + 1 })
  | _, _ => none

/-- The thread leaves `execute`; an exception leaves the block. -/
def endCall (b : Block) (s : BlockRun) : Option BlockRun :=
  match s.inCall with
  | none => none
  | some future =>
      match (s.links future.1).proxy.point future.2 with
      | some .returned => some { s with inCall := none }
      | some .raised => some { s with inCall := none, next := max s.next b.commands.length }
      | _ => none

/-- The listener of a proxy handles a message; an acknowledgement goes to the coordinator, and a completed barrier is released at this proxy. -/
def listen (N : JsonLibrary) (s : BlockRun) (inst : ByteString) : Option BlockRun :=
  ((s.links inst).listen N).map fun next =>
    match next.2 with
    | none => s.setLink inst next.1
    | some token =>
        let reply := s.coordinator.handleAck token inst
        { s.setLink inst (if reply.2 then next.1.sendSyncContinue token else next.1) with
          coordinator := reply.1
          acks := s.acks ++ [⟨token, inst, reply.2⟩] }

def step (N : JsonLibrary) (b : Block) (s : BlockRun) : BlockLabel → Option BlockRun
  | .dispatch found => s.dispatch b found
  | .endCall => s.endCall b
  | .execute cmd => some (s.setLink cmd.instrumentName ((s.links cmd.instrumentName).execute cmd))
  | .coordinate call => some { s with coordinator := s.coordinator.apply call }
  | .release inst token => some (s.setLink inst ((s.links inst).sendSyncContinue token))
  | .advance inst p sent => ((s.links inst).advance N p sent).map (s.setLink inst)
  | .timeout inst p => ((s.links inst).waitTimeout p).map (s.setLink inst)
  | .listen inst => s.listen N inst
  | .workerReceive inst => ((s.links inst).workerReceive N).map (s.setLink inst)
  | .workerFinish inst plugin delivered => ((s.links inst).workerFinish N plugin delivered).map (s.setLink inst)
  | .workerAck inst delivered => ((s.links inst).workerAck delivered).map (s.setLink inst)
  | .stop inst => (s.links inst).stop.map (s.setLink inst)

/-- Every interleaving of the thread of the block, the workers, the listeners and the other threads. -/
def system (N : JsonLibrary) (b : Block) : Transition.System BlockRun BlockLabel where
  init :=
    { links := fun instrumentName => { proxy := { instrumentName } }
      coordinator := SyncCoordinator.empty.registerBarrier b.token b.instruments }
  step := step N b

/-- No other thread sends an instrument of the block a command with its token, registers the token without one of them or acknowledges it for one of them. -/
def SparesBlock (b : Block) (_ : BlockRun) : BlockLabel → Prop
  | .execute cmd => cmd.HasToken b.token → cmd.instrumentName ∉ b.instruments
  | .coordinate (.registerBarrier token instruments) => token = b.token → b.instruments ⊆ instruments
  | .coordinate (.handleAck token inst) => token = b.token → inst ∉ b.instruments
  | _ => True

instance (b : Block) (s : BlockRun) (label : BlockLabel) : Decidable (SparesBlock b s label) :=
  match label with
  | .execute cmd => inferInstanceAs (Decidable (cmd.HasToken b.token → cmd.instrumentName ∉ b.instruments))
  | .coordinate (.registerBarrier token instruments) =>
      inferInstanceAs (Decidable (token = b.token → ∀ inst ∈ b.instruments, inst ∈ instruments))
  | .coordinate (.handleAck token inst) => inferInstanceAs (Decidable (token = b.token → inst ∉ b.instruments))
  | .coordinate (.clearBarrier _) | .dispatch _ | .endCall | .release _ _ | .advance _ _ _ | .timeout _ _ | .listen _
  | .workerReceive _ | .workerFinish _ _ _ | .workerAck _ _ | .stop _ => isTrue trivial

/-- `handle_ack` returned true for the token of the block. -/
def Completed (b : Block) (s : BlockRun) : Prop := ∃ ack ∈ s.acks, ack.token = b.token ∧ ack.complete = true

instance (b : Block) (s : BlockRun) : Decidable (s.Completed b) :=
  inferInstanceAs (Decidable (∃ ack ∈ s.acks, ack.token = b.token ∧ ack.complete = true))

/-- Every command of the block was handed over, and its worker executed it. -/
def AllExecuted (b : Block) (s : BlockRun) : Prop :=
  ∀ (i : Nat) (cmd : SerializedCommand), b.commands[i]? = some cmd →
    ∃ p, s.promise i = some p ∧ (s.links cmd.instrumentName).Executed p

end BlockRun

open BlockRun (SparesBlock)

/-! ### The invariant -/

/-- What holds in every run that spares the block, however many commands an instrument has. -/
structure BlockInv (N : JsonLibrary) (b : Block) (s : BlockRun) : Prop where
  link : ∀ inst, LinkInv N (s.links inst)
  acks : ∀ inst, (s.links inst).AcksFollow N
  owned : ∀ inst ∈ b.instruments, ∀ p call, (s.links inst).proxy.calls p = some call → call.cmd.HasToken b.token →
    ∃ i cmd, b.commands[i]? = some cmd ∧ cmd.instrumentName = inst ∧ s.promise i = some p
  fresh : ∀ i, s.next ≤ i → s.promise i = none
  counted : ∀ barrier, s.coordinator.barriers b.token = some barrier → ∀ inst ∈ b.instruments,
    inst ∈ barrier.expectedInstruments ∧ (inst ∈ barrier.ackedInstruments → ∃ p, (s.links inst).ExecutedFor b.token p)
  complete : s.Completed b → ∀ inst ∈ b.instruments, ∃ p, (s.links inst).ExecutedFor b.token p

namespace BlockInv

open WorkerLink

variable {N : JsonLibrary} {b : Block} {s t : BlockRun}

theorem init (N : JsonLibrary) (b : Block) : BlockInv N b (BlockRun.system N b).init where
  link inst := .init N inst
  acks inst := by
    rintro token (⟨msg, hmsg, -⟩ | ⟨id, last, hphase⟩) <;> contradiction
  owned inst _ p call hcall _ := by contradiction
  fresh _ _ := rfl
  counted barrier hbarrier inst hinst := by
    obtain rfl : ⟨b.instruments.toFinset, ∅⟩ = barrier := by
      simpa [BlockRun.system] using hbarrier
    exact ⟨List.mem_toFinset.mpr hinst, fun hacked => absurd hacked (Finset.notMem_empty inst)⟩
  complete := by
    rintro ⟨ack, hack, -⟩
    contradiction

/-- What a link is to keep when another takes its place: its records, and the commands it executed for the block. -/
structure LinkKeeps (N : JsonLibrary) (b : Block) (l l' : WorkerLink) : Prop where
  link : LinkInv N l → LinkInv N l'
  acks : LinkInv N l → l.AcksFollow N → l'.AcksFollow N
  executed : LinkInv N l → ∀ p, l.ExecutedFor b.token p → l'.ExecutedFor b.token p

theorem LinkKeeps.of_step {l l' : WorkerLink} (hstep : Step N l l') : LinkKeeps N b l l' where
  link h := h.step hstep
  acks h hacks := h.acksFollow_step hacks hstep
  executed h _ hp := LinkInv.executedFor_of_evolves (h.grows hstep).calls (h.grows hstep).executed.subset hp

theorem LinkKeeps.of_stop {l l' : WorkerLink} (hnext : l.stop = some l') : LinkKeeps N b l l' where
  link h := h.stop hnext
  acks _ hacks := LinkInv.acksFollow_stop hacks hnext
  executed _ _ hp := by
    refine LinkInv.executedFor_of_evolves (callsEvolve_of_eq (calls_stop hnext)) ?_ hp
    obtain ⟨px', -, rfl⟩ := Option.map_eq_some_iff.mp hnext
    exact List.Subset.refl _

/-- Executed commands stay executed, whatever happens to a link. -/
theorem executedFor_setLink (h : BlockInv N b s) {inst : ByteString} {l : WorkerLink}
    (hkeeps : LinkKeeps N b (s.links inst) l) {inst' : ByteString} (hp : ∃ p, (s.links inst').ExecutedFor b.token p) :
    ∃ p, ((s.setLink inst l).links inst').ExecutedFor b.token p := by
  obtain ⟨p, hp⟩ := hp
  refine ⟨p, ?_⟩
  show (Function.update s.links inst l inst').ExecutedFor b.token p
  by_cases hinst : inst' = inst
  · subst hinst
    rw [Function.update_self]
    exact hkeeps.executed (h.link inst') p hp
  · rwa [Function.update_of_ne hinst]

/-- One link changes, and its calls with the token are those of the block. -/
theorem setLink (h : BlockInv N b s) {inst : ByteString} {l : WorkerLink} (hkeeps : LinkKeeps N b (s.links inst) l)
    (howned : inst ∈ b.instruments → ∀ p call, l.proxy.calls p = some call → call.cmd.HasToken b.token →
      ∃ i cmd, b.commands[i]? = some cmd ∧ cmd.instrumentName = inst ∧ s.promise i = some p) :
    BlockInv N b (s.setLink inst l) where
  link := (Function.forall_update_iff s.links fun _ l => LinkInv N l).mpr
    ⟨hkeeps.link (h.link inst), fun inst' _ => h.link inst'⟩
  acks := (Function.forall_update_iff s.links fun _ l => l.AcksFollow N).mpr
    ⟨hkeeps.acks (h.link inst) (h.acks inst), fun inst' _ => h.acks inst'⟩
  owned := (Function.forall_update_iff s.links fun inst l => inst ∈ b.instruments → ∀ p call, l.proxy.calls p = some call →
    call.cmd.HasToken b.token → ∃ i, ∃ cmd : SerializedCommand, b.commands[i]? = some cmd ∧ cmd.instrumentName = inst ∧
      s.promise i = some p).mpr ⟨howned, fun inst' _ => h.owned inst'⟩
  fresh := h.fresh
  counted barrier hbarrier inst' hinst' := by
    obtain ⟨hexpected, hacked⟩ := h.counted barrier hbarrier inst' hinst'
    exact ⟨hexpected, fun hack => h.executedFor_setLink hkeeps (hacked hack)⟩
  complete hcomplete inst' hinst' := h.executedFor_setLink hkeeps (h.complete hcomplete inst' hinst')

/-- A step of a link in which nobody enters `execute`. -/
theorem quiet (h : BlockInv N b s) {inst : ByteString} {l : WorkerLink} (hstep : Quiet N (s.links inst) l) :
    BlockInv N b (s.setLink inst l) := by
  refine h.setLink (.of_step hstep.step) fun hinst p call hcall htoken => ?_
  obtain ⟨before, hbefore, hevolves⟩ := (h.link inst).calls_quiet hstep hcall
  obtain ⟨id, hcmd⟩ := hevolves.cmd
  rw [hcmd] at htoken
  exact h.owned inst hinst p before hbefore htoken

/-- Another thread enters `execute`. -/
theorem execute (h : BlockInv N b s) {cmd : SerializedCommand}
    (hother : cmd.HasToken b.token → cmd.instrumentName ∉ b.instruments) :
    BlockInv N b (s.setLink cmd.instrumentName ((s.links cmd.instrumentName).execute cmd)) := by
  refine h.setLink (.of_step (.execute cmd)) fun hinst p call hcall htoken => ?_
  rcases calls_create_cases hcall with ⟨-, rfl⟩ | hold
  · exact absurd hinst (hother htoken)
  · exact h.owned _ hinst p call hold htoken

theorem stop (h : BlockInv N b s) {inst : ByteString} {l : WorkerLink} (hnext : (s.links inst).stop = some l) :
    BlockInv N b (s.setLink inst l) := by
  refine h.setLink (.of_stop hnext) fun hinst p call hcall htoken => ?_
  rw [calls_stop hnext] at hcall
  exact h.owned inst hinst p call hcall htoken

/-- Only the position of the thread changes. -/
theorem keep (h : BlockInv N b s) (hlinks : t.links = s.links) (hpromise : t.promise = s.promise) (hnext : s.next ≤ t.next)
    (hcoordinator : t.coordinator = s.coordinator) (hacks : t.acks = s.acks) : BlockInv N b t where
  link := by
    rw [hlinks]
    exact h.link
  acks := by
    rw [hlinks]
    exact h.acks
  owned := by
    rw [hlinks, hpromise]
    exact h.owned
  fresh i hi := by
    rw [hpromise]
    exact h.fresh i (hnext.trans hi)
  counted := by
    rw [hlinks, hcoordinator]
    exact h.counted
  complete := by
    rw [hlinks, BlockRun.Completed, hacks]
    exact h.complete

/-- The thread hands over its next command. -/
theorem hand (h : BlockInv N b s) {cmd : SerializedCommand} (hcmd : b.commands[s.next]? = some cmd) :
    BlockInv N b (s.hand cmd) := by
  have hunset : s.promise s.next = none := h.fresh s.next le_rfl
  have hnumbered : BlockInv N b
      { s with
        next := s.next + 1
        promise := Function.update s.promise s.next (some (s.links cmd.instrumentName).proxy.promises)
        inCall := some (cmd.instrumentName, (s.links cmd.instrumentName).proxy.promises) } := by
    refine ⟨h.link, h.acks, fun inst hinst p call hcall htoken => ?_, fun i hi => ?_, h.counted, h.complete⟩
    · obtain ⟨i, own, hown, hname, hpromise⟩ := h.owned inst hinst p call hcall htoken
      refine ⟨i, own, hown, hname, ?_⟩
      have hne : i ≠ s.next := by
        rintro rfl
        rw [hunset] at hpromise
        contradiction
      show Function.update s.promise s.next _ i = some p
      rw [Function.update_of_ne hne]
      exact hpromise
    · show Function.update s.promise s.next _ i = none
      rw [Function.update_of_ne (Nat.ne_of_gt hi)]
      exact h.fresh i (Nat.le_of_succ_le hi)
  refine hnumbered.setLink (.of_step (.execute cmd)) fun hinst p call hcall htoken => ?_
  rcases calls_create_cases hcall with ⟨rfl, -⟩ | hold
  · exact ⟨s.next, cmd, hcmd, rfl, Function.update_self ..⟩
  · exact hnumbered.owned _ hinst p call hold htoken

/-- What is counted for the block, at any coordinator. -/
def Counted (b : Block) (s : BlockRun) (coordinator : SyncCoordinator) : Prop :=
  ∀ barrier, coordinator.barriers b.token = some barrier → ∀ inst ∈ b.instruments,
    inst ∈ barrier.expectedInstruments ∧ (inst ∈ barrier.ackedInstruments → ∃ p, (s.links inst).ExecutedFor b.token p)

/-- An acknowledgement of an instrument that has executed a command, or is not in the block. -/
theorem Counted.handleAck {coordinator : SyncCoordinator} (h : Counted b s coordinator) {inst : ByteString}
    {token : SyncToken} (hexecuted : token = b.token → inst ∈ b.instruments → ∃ p, (s.links inst).ExecutedFor b.token p) :
    Counted b s (coordinator.handleAck token inst).1 ∧ (token = b.token → (coordinator.handleAck token inst).2 = true →
      ∀ inst' ∈ b.instruments, ∃ p, (s.links inst').ExecutedFor b.token p) := by
  by_cases htoken : token = b.token
  · subst htoken
    cases hbarrier : coordinator.barriers b.token with
    | none =>
        rw [SyncCoordinator.handleAck_of_none hbarrier]
        exact ⟨h, fun _ hcomplete => absurd hcomplete Bool.false_ne_true⟩
    | some barrier =>
        have hmember : ∀ inst' ∈ insert inst barrier.ackedInstruments, inst' ∈ b.instruments →
            ∃ p, (s.links inst').ExecutedFor b.token p := by
          intro inst' hacked hinst'
          rcases Finset.mem_insert.mp hacked with rfl | hold
          · exact hexecuted rfl hinst'
          · exact (h barrier hbarrier inst' hinst').2 hold
        rcases SyncCoordinator.handleAck_of_some inst hbarrier with
          ⟨-, hreply⟩ | ⟨-, hall, -, herased⟩ | ⟨-, -, hwaits, hcounts⟩
        · rw [hreply]
          exact ⟨h, fun _ hcomplete => absurd hcomplete Bool.false_ne_true⟩
        · refine ⟨fun barrier' hbarrier' => ?_, fun _ _ inst' hinst' => hmember inst' ?_ hinst'⟩
          · rw [herased] at hbarrier'
            contradiction
          · rw [hall]
            exact (h barrier hbarrier inst' hinst').1
        · refine ⟨fun barrier' hbarrier' inst' hinst' => ?_, fun _ hcomplete => ?_⟩
          · rw [hcounts] at hbarrier'
            obtain rfl := Option.some.inj hbarrier'
            exact ⟨(h barrier hbarrier inst' hinst').1, fun hacked => hmember inst' hacked hinst'⟩
          · rw [hwaits] at hcomplete
            contradiction
  · refine ⟨fun barrier hbarrier => h barrier ?_, fun heq => absurd heq htoken⟩
    rwa [← coordinator.apply_barriers_of_ne (.handleAck token inst) (Ne.symm htoken)]

/-- The coordinator counts an acknowledgement of an instrument that has executed a command. -/
theorem acknowledge (h : BlockInv N b s) {inst : ByteString} {token : SyncToken}
    (hexecuted : token = b.token → ∃ p, (s.links inst).ExecutedFor b.token p) :
    BlockInv N b
      { s with
        coordinator := (s.coordinator.handleAck token inst).1
        acks := s.acks ++ [⟨token, inst, (s.coordinator.handleAck token inst).2⟩] } := by
  obtain ⟨hcounted, hcomplete⟩ := Counted.handleAck h.counted fun htoken _ => hexecuted htoken
  refine ⟨h.link, h.acks, h.owned, h.fresh, hcounted, ?_⟩
  rintro ⟨ack, hack, htoken, htrue⟩
  rcases List.mem_append.mp hack with hold | hnew
  · exact h.complete ⟨ack, hold, htoken, htrue⟩
  · obtain rfl := List.mem_singleton.mp hnew
    exact hcomplete htoken htrue

/-- Another thread uses the coordinator and spares the block. -/
theorem coordinate (h : BlockInv N b s) {call : SyncCoordinator.SyncCall} (hspares : SparesBlock b s (.coordinate call)) :
    BlockInv N b { s with coordinator := s.coordinator.apply call } := by
  refine ⟨h.link, h.acks, h.owned, h.fresh, ?_, h.complete⟩
  by_cases htoken : call.syncToken = b.token
  · cases call with
    | registerBarrier token instruments =>
        obtain rfl : token = b.token := htoken
        intro barrier hbarrier inst hinst
        obtain rfl : ⟨instruments.toFinset, ∅⟩ = barrier := by
          simpa [SyncCoordinator.apply] using hbarrier
        exact ⟨List.mem_toFinset.mpr (hspares rfl hinst), fun hacked => absurd hacked (Finset.notMem_empty inst)⟩
    | handleAck token inst => exact (Counted.handleAck h.counted fun heq hinst => absurd hinst (hspares heq)).1
    | clearBarrier token =>
        obtain rfl : token = b.token := htoken
        intro barrier hbarrier
        simp [SyncCoordinator.apply] at hbarrier
  · rw [s.coordinator.apply_barriers_of_ne call (Ne.symm htoken)]
    exact h.counted

theorem listen (h : BlockInv N b s) {inst : ByteString} (hnext : s.listen N inst = some t) : BlockInv N b t := by
  obtain ⟨⟨l, token⟩, hl, rfl⟩ := Option.map_eq_some_iff.mp hnext
  have hlistened : BlockInv N b (s.setLink inst l) := h.quiet (.listen hl)
  cases token with
  | none => exact hlistened
  | some token =>
      have hexecuted : token = b.token → ∃ p, ((s.setLink inst l).links inst).ExecutedFor b.token p := by
        rintro rfl
        refine h.executedFor_setLink (.of_step (.listen hl)) ?_
        refine (h.link inst).executedFor_of_acknowledged (h.acks inst b.token (Or.inl ?_))
        obtain ⟨msg, rest, px, hresponses, -, -, hheard⟩ := WorkerLink.listen_cases hl
        obtain ⟨htype, htoken⟩ := Option.ite_none_right_eq_some.mp hheard.symm
        rw [hresponses]
        exact ⟨msg, List.mem_cons_self, htype, Option.some.inj htoken⟩
      have hself : (s.setLink inst l).links inst = l := Function.update_self ..
      have hquiet : Quiet N ((s.setLink inst l).links inst) (l.sendSyncContinue token) := by
        rw [hself]
        exact .sendSyncContinue token
      have hreleased := hlistened.quiet hquiet
      have hstill : token = b.token →
          ∃ p, (((s.setLink inst l).setLink inst (l.sendSyncContinue token)).links inst).ExecutedFor b.token p :=
        fun heq => hlistened.executedFor_setLink (.of_step hquiet.step) (hexecuted heq)
      have htwice : (s.setLink inst l).setLink inst (l.sendSyncContinue token) = s.setLink inst (l.sendSyncContinue token) := by
        rw [BlockRun.setLink, BlockRun.setLink, BlockRun.setLink]
        simp only [Function.update_idem]
      rw [htwice] at hreleased hstill
      show BlockInv N b
        { s.setLink inst (if (s.coordinator.handleAck token inst).2 then l.sendSyncContinue token else l) with
          coordinator := (s.coordinator.handleAck token inst).1
          acks := s.acks ++ [⟨token, inst, (s.coordinator.handleAck token inst).2⟩] }
      split
      · exact hreleased.acknowledge hstill
      · exact hlistened.acknowledge hexecuted

/-- The thread of the block hands over its next command, or finds no proxy for it. -/
theorem dispatch (h : BlockInv N b s) {found : Bool} (hnext : s.dispatch b found = some t) : BlockInv N b t := by
  rw [BlockRun.dispatch] at hnext
  split at hnext
  · rename_i cmd _ hcmd
    obtain rfl := Option.some.inj hnext
    split
    · exact h.hand hcmd
    · exact h.keep rfl rfl (Nat.le_succ _) rfl rfl
  · contradiction

/-- The call the thread waits in returns or throws. -/
theorem endCall (h : BlockInv N b s) (hnext : s.endCall b = some t) : BlockInv N b t := by
  rw [BlockRun.endCall] at hnext
  split at hnext
  · contradiction
  · split at hnext
    · obtain rfl := Option.some.inj hnext
      exact h.keep rfl rfl le_rfl rfl rfl
    · obtain rfl := Option.some.inj hnext
      exact h.keep rfl rfl (Nat.le_max_left _ _) rfl rfl
    · contradiction

theorem step (h : BlockInv N b s) {label : BlockLabel} (hspares : SparesBlock b s label) (hnext : s.step N b label = some t) :
    BlockInv N b t := by
  cases label with
  | dispatch found => exact h.dispatch hnext
  | endCall => exact h.endCall hnext
  | execute cmd =>
      obtain rfl := Option.some.inj hnext
      exact h.execute hspares
  | coordinate call =>
      obtain rfl := Option.some.inj hnext
      exact h.coordinate hspares
  | release inst token =>
      obtain rfl := Option.some.inj hnext
      exact h.quiet (.sendSyncContinue token)
  | advance inst p sent =>
      obtain ⟨l, hl, rfl⟩ := Option.map_eq_some_iff.mp hnext
      exact h.quiet (.advance hl)
  | timeout inst p =>
      obtain ⟨l, hl, rfl⟩ := Option.map_eq_some_iff.mp hnext
      exact h.quiet (.waitTimeout hl)
  | listen inst => exact h.listen hnext
  | workerReceive inst =>
      obtain ⟨l, hl, rfl⟩ := Option.map_eq_some_iff.mp hnext
      exact h.quiet (.workerReceive hl)
  | workerFinish inst plugin delivered =>
      obtain ⟨l, hl, rfl⟩ := Option.map_eq_some_iff.mp hnext
      exact h.quiet (.workerFinish hl)
  | workerAck inst delivered =>
      obtain ⟨l, hl, rfl⟩ := Option.map_eq_some_iff.mp hnext
      exact h.quiet (.workerAck hl)
  | stop inst =>
      obtain ⟨l, hl, rfl⟩ := Option.map_eq_some_iff.mp hnext
      exact h.stop hl

theorem of_reachable (hreach : ReachableWhile (BlockRun.system N b) (SparesBlock b) s) : BlockInv N b s :=
  ReachableWhile.invariant (init N b) (fun _ _ _ h hspares hnext => h.step hspares hnext) hreach

end BlockInv

/-! ### When a barrier completes -/

/-- The next command of the block is handed over and sent. -/
def sendNext (inst : ByteString) (p : PromiseId) : List BlockLabel :=
  [.dispatch true, .advance inst p true, .advance inst p true, .advance inst p true, .advance inst p true, .endCall]

/-- A worker executes a command and acknowledges it, and its listener handles both messages. -/
def executeAndAcknowledge (inst : ByteString) : List BlockLabel :=
  [.workerReceive inst, .workerFinish inst { PluginResponse.zero with success := true } true, .workerAck inst true,
    .listen inst, .listen inst]

/-- One command for each of two instruments. -/
def readBlock : Block :=
  .ofBuffer 1 (by decide) dmmAndScope.names [{ instrumentName := bytes "DMM", verb := bytes "READ", params := .empty }]

/-- A command that is not executed shows that the block is not. -/
theorem not_allExecuted {b : Block} {s : BlockRun} {i : Nat} {inst : ByteString} {p : PromiseId}
    (hcommand : b.commands[i]?.map SerializedCommand.instrumentName = some inst)
    (hwaits : s.promise i = some p ∧ ¬ (s.links inst).Executed p) : ¬ s.AllExecuted b := by
  intro hall
  obtain ⟨cmd, hcmd, rfl⟩ := Option.map_eq_some_iff.mp hcommand
  obtain ⟨p', hp', hexecuted⟩ := hall i cmd hcmd
  obtain rfl := Option.some.inj (hp'.symm.trans hwaits.1)
  exact hwaits.2 hexecuted

/-- With one command for each instrument the barrier completes early when another thread sends one of them a command with the same token, which is the first token of every context. -/
theorem completed_early_otherContext :
    ∃ s, Reachable (BlockRun.system .compact readBlock) s ∧ s.Completed readBlock ∧ ¬ s.AllExecuted readBlock := by
  let other : SerializedCommand := { instrumentName := bytes "DMM", verb := bytes "MEASURE", params := .empty, syncToken := some 1 }
  obtain ⟨s, hreach, hview⟩ := @ReachableWhile.of_any _ _ (BlockRun.system .compact readBlock) (fun _ _ => True) _
    (.execute other :: List.replicate 4 (.advance (bytes "DMM") 0 true) ++ sendNext (bytes "DMM") 1 ++
      sendNext (bytes "Scope") 0 ++ executeAndAcknowledge (bytes "DMM") ++ executeAndAcknowledge (bytes "Scope"))
    (fun s => decide (s.Completed readBlock) &&
      decide (s.promise 0 = some 1 ∧ ¬ (s.links (bytes "DMM")).Executed 1)) (by decide +kernel)
  obtain ⟨hcomplete, hwaits⟩ := Bool.and_eq_true_iff.mp hview
  exact ⟨s, hreach, of_decide_eq_true hcomplete, not_allExecuted (by decide +kernel) (of_decide_eq_true hwaits)⟩

/-- Two commands for the first instrument. -/
def rangeAndReadBlock : Block := .ofBuffer 1 (by decide) dmmAndScope.names dmmBlock

end InstrumentServer
