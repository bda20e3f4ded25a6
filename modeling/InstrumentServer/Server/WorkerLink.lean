import InstrumentServer.Server.ProxyPromises
import InstrumentServer.Worker.Instrument

/-!
# A proxy and its worker

The server's proxy and the worker process of one instrument, with the two queues between them. Both queues are first in, first out; a send may time out, and then the message is lost. The worker's sends ignore a timeout.

Next to the code's state a link keeps what happened on it: the commands that were put on the request queue, those the worker began and those it executed, and every response with the command it answers. Nothing reads these records. `LinkInv` relates them to the promises of the proxy.
-/

namespace InstrumentServer

open Ipc InstrumentWorkerProxy

/-- The command in the plugin. -/
def WorkerPhase.current : WorkerPhase → List IpcMessage
  | .executing msg _ => [msg]
  | _ => []

structure WorkerLink where
  proxy : InstrumentWorkerProxy
  /-- from the server to the worker -/
  requests : List IpcMessage := []
  /-- from the worker to the server -/
  responses : List IpcMessage := []
  worker : Instrument := {}
  commands : List IpcMessage := []
  started : List IpcMessage := []
  executed : List IpcMessage := []
  replies : List (IpcMessage × IpcMessage) := []

namespace WorkerLink

/-! ### The server's side -/

def execute (l : WorkerLink) (cmd : SerializedCommand) : WorkerLink := { l with proxy := l.proxy.create cmd }

/-- A thread inside `execute` moves on. -/
def advance (N : JsonLibrary) (l : WorkerLink) (p : PromiseId) (sent : Bool) : Option WorkerLink :=
  (l.proxy.advance N p sent).map fun next =>
    { l with proxy := next.1, requests := l.requests ++ next.2, commands := l.commands ++ next.2 }

def waitTimeout (l : WorkerLink) (p : PromiseId) : Option WorkerLink :=
  (l.proxy.waitTimeout p).map fun px => { l with proxy := px }

def sendSyncContinue (l : WorkerLink) (syncToken : SyncToken) : WorkerLink :=
  { l with requests := l.requests ++ [{ type := .syncContinue, syncToken }] }

/-- `stop` sends the shutdown message first. -/
def stop (l : WorkerLink) : Option WorkerLink :=
  l.proxy.stopStep.map fun px =>
    { l with
      proxy := px
      requests := if l.proxy.stopPoint = .running then l.requests ++ [{ type := .shutdown }] else l.requests }

/-- The listener takes a message; the token of an acknowledgement goes to the coordinator. -/
def listen (N : JsonLibrary) (l : WorkerLink) : Option (WorkerLink × Option SyncToken) :=
  match l.responses with
  | [] => none
  | msg :: rest =>
      (l.proxy.receive N msg).map fun px =>
        ({ l with proxy := px, responses := rest }, if msg.type = .syncAck then some msg.syncToken else none)

theorem listen_cases {N : JsonLibrary} {l l' : WorkerLink} {token : Option SyncToken}
    (hnext : l.listen N = some (l', token)) :
    ∃ msg rest px', l.responses = msg :: rest ∧ l.proxy.receive N msg = some px' ∧
      l' = { l with proxy := px', responses := rest } ∧
      token = if msg.type = .syncAck then some msg.syncToken else none := by
  rw [listen] at hnext
  split at hnext
  · contradiction
  · rename_i msg rest hresponses
    obtain ⟨px', hreceive, heq⟩ := Option.map_eq_some_iff.mp hnext
    obtain ⟨hlink, htoken⟩ := Prod.mk.inj heq
    exact ⟨msg, rest, px', hresponses, hreceive, hlink.symm, htoken.symm⟩

/-! ### The worker's side -/

/-- The worker takes a message. -/
def workerReceive (N : JsonLibrary) (l : WorkerLink) : Option WorkerLink :=
  match l.requests with
  | [] => none
  | msg :: rest =>
      (l.worker.receive N msg).map fun w =>
        { l with
          worker := w
          requests := rest
          started := l.started ++ w.phase.current }

/-- The plugin returns. -/
def workerFinish (N : JsonLibrary) (l : WorkerLink) (plugin : PluginResponse) (delivered : Bool) : Option WorkerLink :=
  match l.worker.phase with
  | .executing msg _ =>
      (l.worker.finishCommand N plugin).map fun next =>
        { l with
          worker := next.1
          responses := if delivered then l.responses ++ next.2 else l.responses
          executed := l.executed ++ [msg]
          replies := l.replies ++ next.2.map fun resp => (msg, resp) }
  | _ => none

def workerAck (l : WorkerLink) (delivered : Bool) : Option WorkerLink :=
  l.worker.sendSyncAck.map fun next =>
    { l with worker := next.1, responses := if delivered then l.responses ++ next.2 else l.responses }

theorem workerReceive_cases {N : JsonLibrary} {l l' : WorkerLink} (hnext : l.workerReceive N = some l') :
    ∃ msg rest w, l.requests = msg :: rest ∧ l.worker.receive N msg = some w ∧
      l' = { l with worker := w, requests := rest, started := l.started ++ w.phase.current } := by
  rw [workerReceive] at hnext
  split at hnext
  · contradiction
  · rename_i msg rest hrequests
    obtain ⟨w, hreceive, rfl⟩ := Option.map_eq_some_iff.mp hnext
    exact ⟨msg, rest, w, hrequests, hreceive, rfl⟩

theorem workerFinish_cases {N : JsonLibrary} {l l' : WorkerLink} {plugin : PluginResponse} {delivered : Bool}
    (hnext : l.workerFinish N plugin delivered = some l') :
    ∃ msg cmd w msgs, l.worker.phase = .executing msg cmd ∧ l.worker.finishCommand N plugin = some (w, msgs) ∧
      l' =
        { l with
          worker := w
          responses := if delivered then l.responses ++ msgs else l.responses
          executed := l.executed ++ [msg]
          replies := l.replies ++ msgs.map fun resp => (msg, resp) } := by
  rw [workerFinish] at hnext
  split at hnext
  · rename_i msg cmd hphase
    obtain ⟨⟨w, msgs⟩, hfinish, rfl⟩ := Option.map_eq_some_iff.mp hnext
    exact ⟨msg, cmd, w, msgs, hphase, hfinish, rfl⟩
  · contradiction

end WorkerLink

/-! ### What a message carries -/

/-- `execute` returned, for good or to a caller that gave up waiting. -/
def ExecuteCall.Returned (call : ExecuteCall) : Prop := call.point = .returned ∨ call.point = .timedOut

/-- The message is the command of the call, under the id the call drew. -/
def ExecuteCall.Carries (N : JsonLibrary) (call : ExecuteCall) (msg : IpcMessage) : Prop :=
  call.msgId = some msg.id ∧
    ∃ text, serializeCommand N call.cmd = .ok text ∧ msg = .frame .command msg.id (call.cmd.syncToken.getD 0) text

/-- The response is what the worker makes of the command when the plugin returns some reply. -/
def Answers (N : JsonLibrary) (request response : IpcMessage) : Prop :=
  ∃ cmd plugin, deserializeCommand N request.payload = .ok cmd ∧
    Instrument.sendCommandResponse N request cmd (Instrument.commandOutcome cmd plugin) = .ok response

structure LinkInv (N : JsonLibrary) (l : WorkerLink) : Prop where
  promises : PromiseInv N l.proxy
  encoded : ∀ p call msg, l.proxy.calls p = some call → call.point = .encoded msg → call.Carries N msg
  sent : ∀ msg ∈ l.commands, ∃ p call, l.proxy.calls p = some call ∧ call.Returned ∧ call.Carries N msg
  unique : (l.commands.map IpcMessage.id).Nodup
  unblocked : l.worker.waitingSyncToken = none
  queued : ∃ rest, l.commands = l.started ++ rest ∧
    (l.worker.phase ≠ .exited → rest = l.requests.filter fun msg => msg.type = .command)
  begun : l.started = l.executed ++ l.worker.phase.current
  executing : ∀ msg cmd, l.worker.phase = .executing msg cmd →
    deserializeCommand N msg.payload = .ok cmd ∧ cmd.isSyncBarrier = false
  acknowledging : ∀ id token last, l.worker.phase = .acknowledging id token last → last = false
  replied : ∀ pair ∈ l.replies, pair.1 ∈ l.commands ∧ pair.2.id = pair.1.id ∧ Answers N pair.1 pair.2
  response : ∀ msg ∈ l.responses, msg.type = .response → ∃ request, (request, msg) ∈ l.replies
  fulfilled : ∀ f ∈ l.proxy.fulfilments, ∀ msg, f.source = .response msg → ∃ request, (request, msg) ∈ l.replies
  failed : ∀ f ∈ l.proxy.fulfilments, f.source = .sendFailure →
    ∃ call, l.proxy.calls f.promise = some call ∧ call.msgId.isSome ∧ f.value = l.proxy.sendFailure call.cmd

/-! ### Calls only move forward -/

/-- `execute` returned or threw. -/
def ExecuteCall.Ended (call : ExecuteCall) : Prop := call.Returned ∨ call.point = .raised

/-- What a call of `execute` keeps while it goes on. -/
structure ExecuteCall.Evolves (call call' : ExecuteCall) : Prop where
  cmd : ∃ id, call'.cmd = { call.cmd with id := id }
  drawn : ∀ m, call.msgId = some m → call'.msgId = some m ∧ call'.cmd = call.cmd
  returned : call.Returned → call'.Returned
  ended : call.Ended → call'.Ended ∧ call'.msgId = call.msgId
  raised : call.point = .raised → call'.point = .raised

theorem ExecuteCall.Evolves.refl (call : ExecuteCall) : call.Evolves call :=
  ⟨⟨call.cmd.id, rfl⟩, fun _ h => ⟨h, rfl⟩, id, fun h => ⟨h, rfl⟩, id⟩

theorem ExecuteCall.Evolves.trans {a b c : ExecuteCall} (hab : a.Evolves b) (hbc : b.Evolves c) : a.Evolves c := by
  refine ⟨?_, fun m hm => ?_, fun h => hbc.returned (hab.returned h), fun h => ?_, fun h => hbc.raised (hab.raised h)⟩
  · obtain ⟨_, hb⟩ := hab.cmd
    obtain ⟨id, hc⟩ := hbc.cmd
    exact ⟨id, by rw [hc, hb]⟩
  · obtain ⟨hb, hcmd⟩ := hab.drawn m hm
    obtain ⟨hc, hcmd'⟩ := hbc.drawn m hb
    exact ⟨hc, hcmd'.trans hcmd⟩
  · obtain ⟨hb, hid⟩ := hab.ended h
    obtain ⟨hc, hid'⟩ := hbc.ended hb
    exact ⟨hc, hid'.trans hid⟩

/-- A call moves to another point. -/
theorem ExecuteCall.Evolves.move {call : ExecuteCall} (next : ExecutePoint)
    (hended : call.Ended → call.Returned ∧ next = .timedOut) : call.Evolves { call with point := next } := by
  refine ⟨⟨call.cmd.id, rfl⟩, fun _ h => ⟨h, rfl⟩, fun h => ?_, fun h => ?_, fun h => ?_⟩
  · exact Or.inr (hended (Or.inl h)).2
  · exact ⟨Or.inl (Or.inr (hended h).2), rfl⟩
  · rcases (hended (Or.inr h)).1 with hpoint | hpoint <;>
    · rw [h] at hpoint
      contradiction

namespace InstrumentWorkerProxy

variable {N : JsonLibrary} {px px' : InstrumentWorkerProxy}

def CallsEvolve (px px' : InstrumentWorkerProxy) : Prop :=
  ∀ p call, px.calls p = some call → ∃ call', px'.calls p = some call' ∧ call.Evolves call'

theorem callsEvolve_of_eq (h : px'.calls = px.calls) : CallsEvolve px px' :=
  fun p call hcall => ⟨call, by rw [h, hcall], .refl call⟩

theorem callsEvolve_update {p : PromiseId} {call' : ExecuteCall} (hcalls : px'.calls = Function.update px.calls p (some call'))
    (hevolves : ∀ call, px.calls p = some call → call.Evolves call') : CallsEvolve px px' := by
  intro q call hcall
  rw [hcalls]
  by_cases hq : q = p
  · subst hq
    exact ⟨call', Function.update_self .., hevolves call hcall⟩
  · exact ⟨call, by rw [Function.update_of_ne hq, hcall], .refl call⟩

theorem calls_update_cases {p q : PromiseId} {call call' : ExecuteCall}
    (hcalls : px'.calls = Function.update px.calls p (some call')) (hcall : px'.calls q = some call) :
    (q = p ∧ call = call') ∨ px.calls q = some call := by
  rw [hcalls] at hcall
  by_cases hq : q = p
  · rw [hq, Function.update_self] at hcall
    exact Or.inl ⟨hq, (Option.some.inj hcall).symm⟩
  · rw [Function.update_of_ne hq] at hcall
    exact Or.inr hcall

/-- `execute` begins with a call of its own. -/
theorem calls_create_cases {p : PromiseId} {call : ExecuteCall} {cmd : SerializedCommand}
    (hcall : (px.create cmd).calls p = some call) : (p = px.promises ∧ call = ⟨cmd, none, .created⟩) ∨ px.calls p = some call := by
  have hcalls : (px.create cmd).calls = Function.update px.calls px.promises (some ⟨cmd, none, .created⟩) := rfl
  exact calls_update_cases hcalls hcall

/-- What one step of `execute` does to its call and to the promises. -/
structure Advanced (N : JsonLibrary) (px px' : InstrumentWorkerProxy) (p : PromiseId) (call call' : ExecuteCall)
    (msgs : List IpcMessage) : Prop where
  calls : px'.calls = Function.update px.calls p (some call')
  evolves : call.Evolves call'
  active : ¬ call.Ended
  encoded : ∀ msg, call'.point = .encoded msg → call'.Carries N msg
  name : px'.instrumentName = px.instrumentName
  kept : px.fulfilments ⊆ px'.fulfilments
  failure : ∀ f ∈ px'.fulfilments, f ∈ px.fulfilments ∨
    (f.source = .sendFailure ∧ f.promise = p ∧ call'.msgId.isSome ∧ f.value = px.sendFailure call'.cmd)
  sends : msgs = [] ∨ ∃ msg, msgs = [msg] ∧ call.point = .encoded msg ∧ call' = { call with point := .returned }

/-- A step that only moves the call to the next point. -/
theorem Advanced.move {p : PromiseId} {call : ExecuteCall} {msgs : List IpcMessage} (next : ExecutePoint)
    (hactive : ¬ call.Ended) (hencoded : ∀ msg, next = .encoded msg → call.Carries N msg)
    (hcalls : px'.calls = Function.update px.calls p (some { call with point := next }))
    (hname : px'.instrumentName = px.instrumentName) (hfulfilments : px'.fulfilments = px.fulfilments)
    (hsends : msgs = [] ∨ ∃ msg, msgs = [msg] ∧ call.point = .encoded msg ∧ next = .returned) :
    Advanced N px px' p call { call with point := next } msgs := by
  refine ⟨hcalls, .move next fun h => absurd h hactive, hactive, hencoded, hname, ?_, fun f hf => Or.inl ?_, ?_⟩
  · rw [hfulfilments]
    exact List.Subset.refl _
  · rwa [hfulfilments] at hf
  · rcases hsends with hnone | ⟨msg, hmsgs, hpoint, hnext⟩
    · exact Or.inl hnone
    · exact Or.inr ⟨msg, hmsgs, hpoint, by rw [hnext]⟩

theorem PromiseInv.advanced (h : PromiseInv N px) {p : PromiseId} {call : ExecuteCall} {msgs : List IpcMessage}
    (hcall : px.calls p = some call) (hstep : Advance N px p call px' msgs) :
    ∃ call', Advanced N px px' p call call' msgs := by
  have hactive : ∀ {point}, call.point = point → point ≠ .returned → point ≠ .timedOut → point ≠ .raised → ¬ call.Ended := by
    rintro point hpoint h1 h2 h3 ((hend | hend) | hend)
    · exact h1 (hpoint ▸ hend)
    · exact h2 (hpoint ▸ hend)
    · exact h3 (hpoint ▸ hend)
  cases hstep with
  | draw hpoint =>
      have hnone : call.msgId = none := by
        have hundrawn := h.undrawn p (by simp [point, hcall, hpoint])
        simpa [messageId, hcall] using hundrawn
      have hact := hactive hpoint (by simp) (by simp) (by simp)
      refine ⟨_, rfl, ⟨⟨_, rfl⟩, fun m hm => ?_, fun he => absurd (Or.inl he) hact, fun he => absurd he hact,
        fun he => absurd (Or.inr he) hact⟩, hact, ?_, rfl, List.Subset.refl _, fun f hf => Or.inl hf, Or.inl rfl⟩
      · rw [hnone] at hm
        contradiction
      · intro msg hmsg
        contradiction
  | store hpoint hm =>
      exact ⟨_, .move .stored (hactive hpoint (by simp) (by simp) (by simp)) (by simp) rfl rfl rfl (Or.inl rfl)⟩
  | @encode m hpoint hm =>
      have hact := hactive hpoint (by simp) (by simp) (by simp)
      rw [InstrumentWorkerProxy.encode]
      split
      · rename_i text htext
        refine ⟨_, .move (.encoded _) hact ?_ rfl rfl rfl (Or.inl rfl)⟩
        rintro msg ⟨⟩
        exact ⟨hm, text, htext, rfl⟩
      · exact ⟨_, .move .raised hact (by simp) rfl rfl rfl (Or.inl rfl)⟩
  | @send msg stats hpoint =>
      exact ⟨_, .move .returned (hactive hpoint (by simp) (by simp) (by simp)) (by simp) rfl rfl rfl
        (Or.inr ⟨msg, rfl, hpoint, rfl⟩)⟩
  | fail hpoint =>
      exact ⟨_, .move .unsent (hactive hpoint (by simp) (by simp) (by simp)) (by simp) rfl rfl rfl (Or.inl rfl)⟩
  | @resolve m hpoint hm =>
      have hact := hactive hpoint (by simp) (by simp) (by simp)
      rw [InstrumentWorkerProxy.resolveUnsent]
      split
      · rename_i owner howner
        -- the promise under the id is the one this call stored
        have hown : owner = p := by
          refine h.distinct owner p m (h.owner m owner (SortedAssoc.mem_of_find? howner)).1 ?_
          simp [messageId, hcall, hm]
        refine ⟨{ call with point := .returned }, rfl, .move .returned fun he => absurd he hact, hact, by simp, rfl,
          List.subset_append_left _ _, fun f hf => ?_, Or.inl rfl⟩
        rcases List.mem_append.mp hf with hold | hnew
        · exact Or.inl hold
        · rw [List.mem_singleton.mp hnew]
          exact Or.inr ⟨rfl, hown, by simp [hm], rfl⟩
      · exact ⟨_, .move .returned hact (by simp) rfl rfl rfl (Or.inl rfl)⟩

end InstrumentWorkerProxy

/-! ### What the other steps do -/

namespace InstrumentWorkerProxy

variable {N : JsonLibrary} {px px' : InstrumentWorkerProxy}

/-- The listener leaves the calls alone, and gives at most one value, from the response at hand. -/
theorem receive_cases {msg : IpcMessage} (hnext : px.receive N msg = some px') :
    px'.calls = px.calls ∧ px'.instrumentName = px.instrumentName ∧ px.fulfilments ⊆ px'.fulfilments ∧
      ∀ f ∈ px'.fulfilments, f ∈ px.fulfilments ∨ (msg.type = .response ∧ f.source = .response msg) := by
  rcases receive_moves hnext with ⟨resp, p, stats, htype, -, -, rfl⟩ | ⟨-, rfl⟩
  · refine ⟨rfl, rfl, List.subset_append_left _ _, fun f hf => ?_⟩
    rcases List.mem_append.mp hf with hold | hnew
    · exact Or.inl hold
    · rw [List.mem_singleton.mp hnew]
      exact Or.inr ⟨htype, rfl⟩
  · exact ⟨rfl, rfl, List.Subset.refl _, fun f hf => Or.inl hf⟩

/-- `stop` leaves the calls alone, and gives values only as the one that stops. -/
theorem stopStep_cases (hnext : px.stopStep = some px') :
    px'.calls = px.calls ∧ px'.instrumentName = px.instrumentName ∧ px.fulfilments ⊆ px'.fulfilments ∧
      ∀ f ∈ px'.fulfilments, f ∈ px.fulfilments ∨ f.source = .stopped := by
  have hcleanup : px.fulfilments ⊆ px.cleanupPendingPromises.fulfilments ∧
      ∀ f ∈ px.cleanupPendingPromises.fulfilments, f ∈ px.fulfilments ∨ f.source = .stopped := by
    refine List.foldlRecOn px.pendingResponses _ (motive := fun after : InstrumentWorkerProxy =>
      px.fulfilments ⊆ after.fulfilments ∧ ∀ f ∈ after.fulfilments, f ∈ px.fulfilments ∨ f.source = .stopped)
      ⟨List.Subset.refl _, fun f hf => Or.inl hf⟩ ?_
    rintro after ⟨hkept, hnew⟩ entry -
    refine ⟨fun f hf => List.mem_append_left _ (hkept hf), fun f hf => ?_⟩
    rcases List.mem_append.mp hf with hold | hlast
    · exact hnew f hold
    · rw [List.mem_singleton.mp hlast]
      exact Or.inr rfl
  rcases stopStep_moves hnext with ⟨-, rfl⟩ | ⟨-, rfl⟩ | ⟨-, rfl⟩
  · exact ⟨rfl, rfl, List.Subset.refl _, fun f hf => Or.inl hf⟩
  · obtain ⟨hcalls, hname⟩ := calls_cleanupPendingPromises px
    exact ⟨hcalls, hname, hcleanup⟩
  · exact ⟨rfl, rfl, List.Subset.refl _, fun f hf => Or.inl hf⟩

end InstrumentWorkerProxy

/-- `stop` leaves the calls alone. -/
theorem WorkerLink.calls_stop {l l' : WorkerLink} (hnext : l.stop = some l') : l'.proxy.calls = l.proxy.calls := by
  obtain ⟨px', hstop, rfl⟩ := Option.map_eq_some_iff.mp hnext
  exact (InstrumentWorkerProxy.stopStep_cases hstop).1

namespace Instrument

variable {N : JsonLibrary} {w w' : Instrument}

/-- An unblocked worker begins every command it can decode, and no message blocks it. -/
theorem receive_cases {msg : IpcMessage} (hunblocked : w.waitingSyncToken = none) (hnext : w.receive N msg = some w') :
    w.phase = .idle ∧ w'.waitingSyncToken = none ∧
      ((msg.type ≠ .command ∧ w'.phase = .idle) ∨
        (msg.type = .command ∧ ∃ cmd, deserializeCommand N msg.payload = .ok cmd ∧ w'.phase = .executing msg cmd) ∨
        w'.phase = .exited) := by
  rw [Instrument.receive] at hnext
  split at hnext
  · rename_i hidle
    refine ⟨hidle, ?_⟩
    obtain rfl := Option.some.inj hnext
    rw [Instrument.processMessage]
    split
    · exact ⟨hunblocked, Or.inr (Or.inr rfl)⟩
    · rename_i htype
      simp [handleSyncContinue, hunblocked, htype, hidle]
    · rename_i htype
      rw [if_neg (by simp [hunblocked]), beginCommand]
      split
      · rename_i cmd hcmd
        exact ⟨hunblocked, Or.inr (Or.inl ⟨htype, cmd, hcmd, rfl⟩)⟩
      · exact ⟨hunblocked, Or.inr (Or.inr rfl)⟩
    · rename_i htype
      exact ⟨hunblocked, Or.inl ⟨htype, hidle⟩⟩
  · contradiction

theorem finishCommand_cases {msg : IpcMessage} {cmd : SerializedCommand} {plugin : PluginResponse} {msgs : List IpcMessage}
    (hphase : w.phase = .executing msg cmd) (hlast : cmd.isSyncBarrier = false)
    (hnext : w.finishCommand N plugin = some (w', msgs)) :
    w'.waitingSyncToken = w.waitingSyncToken ∧ w'.phase.current = [] ∧ (∀ m c, w'.phase ≠ .executing m c) ∧
      (∀ id token last, w'.phase = .acknowledging id token last → last = false) ∧
      ∀ resp ∈ msgs, resp.id = msg.id ∧ sendCommandResponse N msg cmd (commandOutcome cmd plugin) = .ok resp := by
  rw [Instrument.finishCommand, hphase] at hnext
  dsimp only at hnext
  split at hnext
  · rename_i resp hresp
    have hid : resp.id = msg.id := by
      rw [sendCommandResponse] at hresp
      cases htext : serializeResponse N (fromPluginResponse (commandOutcome cmd plugin)) with
      | error e =>
          rw [htext] at hresp
          contradiction
      | ok text =>
          rw [htext] at hresp
          rw [← Except.ok.inj hresp]
          rfl
    split at hnext
    · obtain ⟨rfl, rfl⟩ := Prod.mk.inj (Option.some.inj hnext)
      refine ⟨rfl, rfl, by simp, ?_, by simpa using ⟨hid, hresp⟩⟩
      rintro id token last ⟨⟩
      exact hlast
    · obtain ⟨rfl, rfl⟩ := Prod.mk.inj (Option.some.inj hnext)
      exact ⟨rfl, rfl, by simp, by simp, by simpa using ⟨hid, hresp⟩⟩
  · obtain ⟨rfl, rfl⟩ := Prod.mk.inj (Option.some.inj hnext)
    exact ⟨rfl, rfl, by simp, by simp, by simp⟩

theorem sendSyncAck_cases {msgs : List IpcMessage} (hnext : w.sendSyncAck = some (w', msgs)) :
    ∃ id token last, w.phase = .acknowledging id token last ∧
      w' = ⟨if last then some token else w.waitingSyncToken, .idle⟩ ∧
      msgs = [{ type := .syncAck, id, syncToken := token }] := by
  rw [Instrument.sendSyncAck] at hnext
  split at hnext
  · rename_i id token last hphase
    obtain ⟨rfl, rfl⟩ := Prod.mk.inj (Option.some.inj hnext)
    exact ⟨id, token, last, hphase, rfl, rfl⟩
  · contradiction

end Instrument

/-! ### Links only grow -/

/-- What happened on a link stays on record. -/
structure WorkerLink.Grows (l l' : WorkerLink) : Prop where
  calls : CallsEvolve l.proxy l'.proxy
  name : l'.proxy.instrumentName = l.proxy.instrumentName
  commands : l.commands <+: l'.commands
  started : l.started <+: l'.started
  executed : l.executed <+: l'.executed
  replies : l.replies ⊆ l'.replies
  fulfilments : l.proxy.fulfilments ⊆ l'.proxy.fulfilments
  /-- no new value comes from `stop` -/
  unstopped : ∀ f ∈ l'.proxy.fulfilments, f ∈ l.proxy.fulfilments ∨ f.source ≠ .stopped

theorem WorkerLink.Grows.refl (l : WorkerLink) : l.Grows l :=
  ⟨callsEvolve_of_eq rfl, rfl, List.prefix_refl _, List.prefix_refl _, List.prefix_refl _, List.Subset.refl _,
    List.Subset.refl _, fun _ => Or.inl⟩

theorem WorkerLink.Grows.trans {a b c : WorkerLink} (hab : a.Grows b) (hbc : b.Grows c) : a.Grows c where
  calls p call hcall := by
    obtain ⟨call', hcall', hevolves⟩ := hab.calls p call hcall
    obtain ⟨call'', hcall'', hevolves'⟩ := hbc.calls p call' hcall'
    exact ⟨call'', hcall'', hevolves.trans hevolves'⟩
  name := hbc.name.trans hab.name
  commands := List.IsPrefix.trans hab.commands hbc.commands
  started := List.IsPrefix.trans hab.started hbc.started
  executed := List.IsPrefix.trans hab.executed hbc.executed
  replies _ h := hbc.replies (hab.replies h)
  fulfilments _ h := hbc.fulfilments (hab.fulfilments h)
  unstopped f hf := (hbc.unstopped f hf).elim (hab.unstopped f) Or.inr

theorem ExecuteCall.Carries.evolves {N : JsonLibrary} {call call' : ExecuteCall} {msg : IpcMessage}
    (h : call.Carries N msg) (hevolves : call.Evolves call') : call'.Carries N msg := by
  obtain ⟨hid, text, htext, hmsg⟩ := h
  obtain ⟨hid', hcmd⟩ := hevolves.drawn msg.id hid
  exact ⟨hid', text, by rw [hcmd, htext], by rw [hcmd]; exact hmsg⟩

namespace LinkInv

open WorkerLink

variable {N : JsonLibrary} {l l' : WorkerLink}

theorem init (N : JsonLibrary) (instrumentName : ByteString) : LinkInv N { proxy := { instrumentName } } where
  promises := PromiseInv.init N instrumentName
  encoded _ _ _ h := by simp at h
  sent _ h := by simp at h
  unique := List.nodup_nil
  unblocked := rfl
  queued := ⟨[], rfl, fun _ => rfl⟩
  begun := rfl
  executing _ _ h := by simp at h
  acknowledging _ _ _ h := by simp at h
  replied _ h := by simp at h
  response _ h := by simp at h
  fulfilled _ h := by simp at h
  failed _ h := by simp at h

/-- The proxy moves on, and the queues and the worker stay. -/
theorem setProxy (h : LinkInv N l) {px' : InstrumentWorkerProxy} (hpromises : PromiseInv N px')
    (hcalls : CallsEvolve l.proxy px')
    (hencoded : ∀ p call msg, px'.calls p = some call → call.point = .encoded msg → call.Carries N msg)
    (hname : px'.instrumentName = l.proxy.instrumentName)
    (hfulfilments : ∀ f ∈ px'.fulfilments, f ∈ l.proxy.fulfilments ∨
      ((∀ msg, f.source = .response msg → ∃ request, (request, msg) ∈ l.replies) ∧
        (f.source = .sendFailure →
          ∃ call, px'.calls f.promise = some call ∧ call.msgId.isSome ∧ f.value = l.proxy.sendFailure call.cmd))) :
    LinkInv N { l with proxy := px' } where
  promises := hpromises
  encoded := hencoded
  sent msg hmsg := by
    obtain ⟨p, call, hcall, hreturned, hcarries⟩ := h.sent msg hmsg
    obtain ⟨call', hcall', hevolves⟩ := hcalls p call hcall
    exact ⟨p, call', hcall', hevolves.returned hreturned, hcarries.evolves hevolves⟩
  unique := h.unique
  unblocked := h.unblocked
  queued := h.queued
  begun := h.begun
  executing := h.executing
  acknowledging := h.acknowledging
  replied := h.replied
  response := h.response
  fulfilled f hf msg hmsg := by
    rcases hfulfilments f hf with hold | ⟨hresponse, -⟩
    · exact h.fulfilled f hold msg hmsg
    · exact hresponse msg hmsg
  failed f hf hsource := by
    have hsame : ∀ cmd, px'.sendFailure cmd = l.proxy.sendFailure cmd := by
      intro cmd
      simp [sendFailure, hname]
    rcases hfulfilments f hf with hold | ⟨-, hfailure⟩
    · obtain ⟨call, hcall, hid, hvalue⟩ := h.failed f hold hsource
      obtain ⟨call', hcall', hevolves⟩ := hcalls f.promise call hcall
      obtain ⟨m, hm⟩ := Option.isSome_iff_exists.mp hid
      obtain ⟨hm', hcmd⟩ := hevolves.drawn m hm
      exact ⟨call', hcall', by simp [hm'], by rw [hcmd, hsame, hvalue]⟩
    · obtain ⟨call, hcall, hid, hvalue⟩ := hfailure hsource
      exact ⟨call, hcall, hid, by rw [hsame, hvalue]⟩

/-- A command is put on the request queue. -/
theorem push (h : LinkInv N l) {msg : IpcMessage}
    (hsent : ∃ p call, l.proxy.calls p = some call ∧ call.Returned ∧ call.Carries N msg)
    (hnew : ∀ old ∈ l.commands, old.id ≠ msg.id) :
    LinkInv N { l with requests := l.requests ++ [msg], commands := l.commands ++ [msg] } := by
  have htype : msg.type = .command := by
    obtain ⟨_, _, _, _, _, _, _, hmsg⟩ := hsent
    rw [hmsg]
    rfl
  refine ⟨h.promises, h.encoded, fun m hm => ?_, ?_, h.unblocked, ?_, h.begun, h.executing, h.acknowledging,
    fun pair hpair => ?_, h.response, h.fulfilled, h.failed⟩
  · rcases List.mem_append.mp hm with hm | hm
    · exact h.sent m hm
    · rw [List.mem_singleton.mp hm]
      exact hsent
  · show ((l.commands ++ [msg]).map IpcMessage.id).Nodup
    rw [List.map_append, List.nodup_append]
    refine ⟨h.unique, by simp, fun id hid id' hid' => ?_⟩
    obtain ⟨old, hold, rfl⟩ := List.mem_map.mp hid
    obtain rfl : id' = msg.id := by simpa using hid'
    exact hnew old hold
  · obtain ⟨rest, hrest, hqueue⟩ := h.queued
    refine ⟨rest ++ [msg], ?_, fun halive => ?_⟩
    · show l.commands ++ [msg] = l.started ++ (rest ++ [msg])
      rw [hrest, List.append_assoc]
    · show rest ++ [msg] = (l.requests ++ [msg]).filter fun msg => msg.type = .command
      rw [List.filter_append, ← hqueue halive]
      simp [htype]
  · obtain ⟨hmem, hid, hanswers⟩ := h.replied pair hpair
    exact ⟨List.mem_append_left _ hmem, hid, hanswers⟩

theorem execute (h : LinkInv N l) (cmd : SerializedCommand) : LinkInv N (l.execute cmd) := by
  refine h.setProxy (h.promises.create cmd) ?_ (fun p call msg hcall hpoint => ?_) rfl fun f hf => Or.inl hf
  · exact callsEvolve_update rfl fun call hcall => by simp [h.promises.fresh _ le_rfl] at hcall
  · rcases calls_create_cases hcall with ⟨-, rfl⟩ | hold
    · contradiction
    · exact h.encoded p call msg hold hpoint

theorem advance (h : LinkInv N l) {p : PromiseId} {sent : Bool} (hnext : l.advance N p sent = some l') :
    LinkInv N l' := by
  obtain ⟨⟨px', msgs⟩, hadvance, rfl⟩ := Option.map_eq_some_iff.mp hnext
  obtain ⟨call, hcall, hstep⟩ := advance_cases hadvance
  obtain ⟨call', hspec⟩ := h.promises.advanced hcall hstep
  have hproxy : LinkInv N { l with proxy := px' } := by
    refine h.setProxy (h.promises.advance hadvance) ?_ (fun q other msg hother hpoint => ?_) hspec.name fun f hf => ?_
    · refine callsEvolve_update hspec.calls fun other hother => ?_
      obtain rfl := Option.some.inj (hcall.symm.trans hother)
      exact hspec.evolves
    · rcases calls_update_cases hspec.calls hother with ⟨-, rfl⟩ | hold
      · exact hspec.encoded msg hpoint
      · exact h.encoded q other msg hold hpoint
    · rcases hspec.failure f hf with hold | ⟨hsource, hpromise, hid, hvalue⟩
      · exact Or.inl hold
      · refine Or.inr ⟨fun msg hmsg => ?_, fun _ => ⟨call', ?_, hid, hvalue⟩⟩
        · rw [hsource] at hmsg
          contradiction
        · rw [hspec.calls, hpromise, Function.update_self]
  rcases hspec.sends with rfl | ⟨msg, rfl, hpoint, rfl⟩
  · simpa using hproxy
  · have hcarries : call.Carries N msg := h.encoded p call msg hcall hpoint
    refine hproxy.push ⟨p, { call with point := .returned }, ?_, Or.inl rfl, hcarries⟩ fun old hold heq => ?_
    · show px'.calls p = _
      rw [hspec.calls, Function.update_self]
    -- an older command with this id would belong to the same call, which has not returned
    · obtain ⟨q, other, hother, hreturned, hid, -⟩ := h.sent old hold
      obtain rfl : q = p := by
        refine h.promises.distinct q p msg.id ?_ ?_
        · simp [messageId, hother, hid, heq]
        · simp [messageId, hcall, hcarries.1]
      obtain rfl := Option.some.inj (hcall.symm.trans hother)
      exact hspec.active (Or.inl hreturned)

theorem waitTimeout (h : LinkInv N l) {p : PromiseId} (hnext : l.waitTimeout p = some l') : LinkInv N l' := by
  obtain ⟨px', htimeout, rfl⟩ := Option.map_eq_some_iff.mp hnext
  obtain ⟨call, stats, hcall, hpoint, rfl⟩ := waitTimeout_cases htimeout
  refine h.setProxy (h.promises.waitTimeout htimeout) ?_ (fun q other msg hother hencoded => ?_) rfl fun f hf => Or.inl hf
  · refine callsEvolve_update rfl fun other hother => ?_
    obtain rfl := Option.some.inj (hcall.symm.trans hother)
    exact .move .timedOut fun _ => ⟨Or.inl hpoint, rfl⟩
  · rcases calls_update_cases rfl hother with ⟨-, rfl⟩ | hold
    · contradiction
    · exact h.encoded q other msg hold hencoded

/-- A message that is no command is put on the request queue. -/
theorem request (h : LinkInv N l) {msg : IpcMessage} (hmsg : msg.type ≠ .command) :
    LinkInv N { l with requests := l.requests ++ [msg] } := by
  obtain ⟨rest, hrest, hqueue⟩ := h.queued
  refine ⟨h.promises, h.encoded, h.sent, h.unique, h.unblocked, ⟨rest, hrest, fun halive => ?_⟩, h.begun, h.executing,
    h.acknowledging, h.replied, h.response, h.fulfilled, h.failed⟩
  show rest = (l.requests ++ [msg]).filter fun msg => msg.type = .command
  rw [List.filter_append, hqueue halive]
  simp [hmsg]

theorem stop (h : LinkInv N l) (hnext : l.stop = some l') : LinkInv N l' := by
  obtain ⟨px', hstop, rfl⟩ := Option.map_eq_some_iff.mp hnext
  obtain ⟨hcalls, hname, -, hstopped⟩ := stopStep_cases hstop
  have hproxy : LinkInv N { l with proxy := px' } := by
    refine h.setProxy (h.promises.stopStep hstop) (callsEvolve_of_eq hcalls) (fun p call msg hcall hpoint => ?_) hname
      fun f hf => ?_
    · exact h.encoded p call msg (hcalls ▸ hcall) hpoint
    · rcases hstopped f hf with hold | hsource
      · exact Or.inl hold
      · exact Or.inr ⟨by simp [hsource], by simp [hsource]⟩
  show LinkInv N { l with proxy := px', requests := if _ then _ else _ }
  split
  · exact hproxy.request (by simp)
  · exact hproxy

theorem listen (h : LinkInv N l) {token : Option SyncToken} (hnext : l.listen N = some (l', token)) : LinkInv N l' := by
  obtain ⟨msg, rest, px', hresponses, hreceive, rfl, -⟩ := listen_cases hnext
  obtain ⟨hcalls, hname, -, hnew⟩ := receive_cases hreceive
  have hproxy : LinkInv N { l with proxy := px' } := by
    refine h.setProxy (h.promises.receive hreceive) (callsEvolve_of_eq hcalls) (fun p call m hcall hpoint => ?_) hname
      fun f hf => ?_
    · exact h.encoded p call m (hcalls ▸ hcall) hpoint
    · rcases hnew f hf with hold | ⟨htype, hsource⟩
      · exact Or.inl hold
      · refine Or.inr ⟨fun m hm => ?_, by simp [hsource]⟩
        obtain rfl : m = msg := FulfilmentSource.response.inj (hm.symm.trans hsource)
        exact h.response m (by simp [hresponses]) htype
  refine ⟨hproxy.promises, hproxy.encoded, hproxy.sent, h.unique, h.unblocked, h.queued, h.begun, h.executing,
    h.acknowledging, h.replied, fun m hm => ?_, hproxy.fulfilled, hproxy.failed⟩
  exact h.response m (by rw [hresponses]; exact List.mem_cons_of_mem msg hm)

theorem workerReceive (h : LinkInv N l) (hnext : l.workerReceive N = some l') : LinkInv N l' := by
  obtain ⟨msg, rest, w, hrequests, hreceive, rfl⟩ := workerReceive_cases hnext
  obtain ⟨hidle, hunblocked, hcases⟩ := Instrument.receive_cases h.unblocked hreceive
  obtain ⟨queue, hqueue, halive⟩ := h.queued
  replace halive := halive (by simp [hidle])
  rw [hrequests] at halive
  have hbegun : l.started = l.executed := by
    have hbegun := h.begun
    rw [hidle] at hbegun
    simpa [WorkerPhase.current] using hbegun
  refine ⟨h.promises, h.encoded, h.sent, h.unique, hunblocked, ?_, ?_, fun m cmd hm => ?_, fun id token last hack => ?_,
    h.replied, h.response, h.fulfilled, h.failed⟩
  · show ∃ queue, l.commands = l.started ++ w.phase.current ++ queue ∧ (w.phase ≠ .exited → _)
    rcases hcases with ⟨htype, hphase⟩ | ⟨htype, cmd, -, hphase⟩ | hphase
    · refine ⟨queue, ?_, fun _ => ?_⟩
      · rw [hphase]
        simpa [WorkerPhase.current] using hqueue
      · rw [halive]
        simp [htype]
    · refine ⟨rest.filter fun msg => msg.type = .command, ?_, fun _ => rfl⟩
      rw [hqueue, halive, hphase]
      simp [htype, WorkerPhase.current]
    · refine ⟨queue, ?_, fun hne => absurd hphase hne⟩
      rw [hphase]
      simpa [WorkerPhase.current] using hqueue
  · show l.started ++ w.phase.current = l.executed ++ w.phase.current
    rw [hbegun]
  · rcases hcases with ⟨-, hphase⟩ | ⟨-, cmd', hdecode, hphase⟩ | hphase
    · rw [hphase] at hm
      contradiction
    · obtain ⟨rfl, rfl⟩ := WorkerPhase.executing.inj (hphase.symm.trans hm)
      exact ⟨hdecode, isSyncBarrier_of_deserializeCommand N hdecode⟩
    · rw [hphase] at hm
      contradiction
  · rcases hcases with ⟨-, hphase⟩ | ⟨-, cmd', -, hphase⟩ | hphase <;>
    · rw [hphase] at hack
      contradiction

theorem workerFinish (h : LinkInv N l) {plugin : PluginResponse} {delivered : Bool}
    (hnext : l.workerFinish N plugin delivered = some l') : LinkInv N l' := by
  obtain ⟨msg, cmd, w, msgs, hphase, hfinish, rfl⟩ := workerFinish_cases hnext
  obtain ⟨hdecode, hlast⟩ := h.executing msg cmd hphase
  obtain ⟨hwaiting, hcurrent, hexecuting, hack, hmsgs⟩ := Instrument.finishCommand_cases hphase hlast hfinish
  have hstarted : l.started = l.executed ++ [msg] := by
    have hbegun := h.begun
    rwa [hphase] at hbegun
  obtain ⟨queue, hqueue, halive⟩ := h.queued
  have hmem : msg ∈ l.commands := by
    rw [hqueue, hstarted]
    simp
  refine ⟨h.promises, h.encoded, h.sent, h.unique, hwaiting.trans h.unblocked, ⟨queue, hqueue, fun _ => halive (by simp [hphase])⟩,
    ?_, fun m c hm => absurd hm (hexecuting m c), hack, fun pair hpair => ?_, fun m hm htype => ?_, fun f hf m hm => ?_,
    h.failed⟩
  · show l.started = l.executed ++ [msg] ++ w.phase.current
    rw [hcurrent, List.append_nil, hstarted]
  · rcases List.mem_append.mp hpair with hold | hnew
    · exact h.replied pair hold
    · obtain ⟨resp, hresp, rfl⟩ := List.mem_map.mp hnew
      obtain ⟨hid, hsend⟩ := hmsgs resp hresp
      exact ⟨hmem, hid, cmd, plugin, hdecode, hsend⟩
  · have hany : m ∈ l.responses ∨ m ∈ msgs := by
      dsimp only at hm
      split at hm
      · exact List.mem_append.mp hm
      · exact Or.inl hm
    rcases hany with hold | hnew
    · obtain ⟨request, hrequest⟩ := h.response m hold htype
      exact ⟨request, List.mem_append_left _ hrequest⟩
    · exact ⟨msg, List.mem_append_right _ (List.mem_map_of_mem hnew)⟩
  · obtain ⟨request, hrequest⟩ := h.fulfilled f hf m hm
    exact ⟨request, List.mem_append_left _ hrequest⟩

theorem workerAck (h : LinkInv N l) {delivered : Bool} (hnext : l.workerAck delivered = some l') : LinkInv N l' := by
  obtain ⟨⟨w, msgs⟩, hack, rfl⟩ := Option.map_eq_some_iff.mp hnext
  obtain ⟨id, token, last, hphase, rfl, rfl⟩ := Instrument.sendSyncAck_cases hack
  obtain rfl := h.acknowledging id token last hphase
  have hbegun : l.started = l.executed := by
    have hbegun := h.begun
    rw [hphase] at hbegun
    simpa [WorkerPhase.current] using hbegun
  obtain ⟨queue, hqueue, halive⟩ := h.queued
  refine ⟨h.promises, h.encoded, h.sent, h.unique, h.unblocked, ⟨queue, hqueue, fun _ => halive (by simp [hphase])⟩, ?_,
    by simp, by simp, h.replied, fun m hm htype => ?_, h.fulfilled, h.failed⟩
  · show l.started = l.executed ++ []
    rw [List.append_nil, hbegun]
  · dsimp only at hm
    split at hm
    · rcases List.mem_append.mp hm with hold | hnew
      · exact h.response m hold htype
      · rw [List.mem_singleton.mp hnew] at htype
        contradiction
    · exact h.response m hm htype

end LinkInv

/-! ### Steps of a link -/

/-- Every way a link moves, `stop` apart. -/
inductive WorkerLink.Step (N : JsonLibrary) (l : WorkerLink) : WorkerLink → Prop where
  | execute (cmd : SerializedCommand) : Step N l (l.execute cmd)
  | advance {l' : WorkerLink} {p : PromiseId} {sent : Bool} (hnext : l.advance N p sent = some l') : Step N l l'
  | waitTimeout {l' : WorkerLink} {p : PromiseId} (hnext : l.waitTimeout p = some l') : Step N l l'
  | sendSyncContinue (syncToken : SyncToken) : Step N l (l.sendSyncContinue syncToken)
  | listen {l' : WorkerLink} {token : Option SyncToken} (hnext : l.listen N = some (l', token)) : Step N l l'
  | workerReceive {l' : WorkerLink} (hnext : l.workerReceive N = some l') : Step N l l'
  | workerFinish {l' : WorkerLink} {plugin : PluginResponse} {delivered : Bool}
      (hnext : l.workerFinish N plugin delivered = some l') : Step N l l'
  | workerAck {l' : WorkerLink} {delivered : Bool} (hnext : l.workerAck delivered = some l') : Step N l l'

namespace LinkInv

open WorkerLink

variable {N : JsonLibrary} {l l' : WorkerLink}

theorem step (h : LinkInv N l) (hstep : Step N l l') : LinkInv N l' := by
  cases hstep with
  | execute cmd => exact h.execute cmd
  | advance hnext => exact h.advance hnext
  | waitTimeout hnext => exact h.waitTimeout hnext
  | sendSyncContinue syncToken => exact h.request (by simp)
  | listen hnext => exact h.listen hnext
  | workerReceive hnext => exact h.workerReceive hnext
  | workerFinish hnext => exact h.workerFinish hnext
  | workerAck hnext => exact h.workerAck hnext

/-- A step records at most one command, and that of a call that was about to send it. -/
theorem commands_step (h : LinkInv N l) (hstep : Step N l l') :
    l'.commands = l.commands ∨
      ∃ p call msg, l'.commands = l.commands ++ [msg] ∧ l.proxy.calls p = some call ∧ call.point = .encoded msg := by
  cases hstep with
  | advance hnext =>
      obtain ⟨⟨px', msgs⟩, hadvance, rfl⟩ := Option.map_eq_some_iff.mp hnext
      obtain ⟨call, hcall, hstep⟩ := advance_cases hadvance
      obtain ⟨call', hspec⟩ := h.promises.advanced hcall hstep
      rcases hspec.sends with rfl | ⟨msg, rfl, hpoint, -⟩
      · exact Or.inl (List.append_nil _)
      · exact Or.inr ⟨_, call, msg, rfl, hcall, hpoint⟩
  | execute cmd => exact Or.inl rfl
  | sendSyncContinue syncToken => exact Or.inl rfl
  | waitTimeout hnext =>
      obtain ⟨px', -, rfl⟩ := Option.map_eq_some_iff.mp hnext
      exact Or.inl rfl
  | listen hnext =>
      obtain ⟨_, _, _, -, -, rfl, -⟩ := listen_cases hnext
      exact Or.inl rfl
  | workerReceive hnext =>
      obtain ⟨_, _, _, -, -, rfl⟩ := workerReceive_cases hnext
      exact Or.inl rfl
  | workerFinish hnext =>
      obtain ⟨_, _, _, _, -, -, rfl⟩ := workerFinish_cases hnext
      exact Or.inl rfl
  | workerAck hnext =>
      obtain ⟨w, -, rfl⟩ := Option.map_eq_some_iff.mp hnext
      exact Or.inl rfl

theorem grows (h : LinkInv N l) (hstep : Step N l l') : l.Grows l' := by
  have hrefl := Grows.refl l
  cases hstep with
  | execute cmd =>
      refine ⟨callsEvolve_update rfl fun call hcall => ?_, rfl, hrefl.commands, hrefl.started, hrefl.executed,
        hrefl.replies, hrefl.fulfilments, hrefl.unstopped⟩
      simp [h.promises.fresh _ le_rfl] at hcall
  | advance hnext =>
      obtain ⟨⟨px', msgs⟩, hadvance, rfl⟩ := Option.map_eq_some_iff.mp hnext
      obtain ⟨call, hcall, hstep⟩ := advance_cases hadvance
      obtain ⟨call', hspec⟩ := h.promises.advanced hcall hstep
      refine ⟨callsEvolve_update hspec.calls fun other hother => ?_, hspec.name, List.prefix_append _ _, hrefl.started,
        hrefl.executed, hrefl.replies, hspec.kept, fun f hf => ?_⟩
      · obtain rfl := Option.some.inj (hcall.symm.trans hother)
        exact hspec.evolves
      · refine (hspec.failure f hf).imp_right fun hfailure => ?_
        simp [hfailure.1]
  | waitTimeout hnext =>
      obtain ⟨px', htimeout, rfl⟩ := Option.map_eq_some_iff.mp hnext
      obtain ⟨call, stats, hcall, hpoint, rfl⟩ := waitTimeout_cases htimeout
      refine ⟨callsEvolve_update rfl fun other hother => ?_, rfl, hrefl.commands, hrefl.started, hrefl.executed,
        hrefl.replies, hrefl.fulfilments, hrefl.unstopped⟩
      obtain rfl := Option.some.inj (hcall.symm.trans hother)
      exact .move .timedOut fun _ => ⟨Or.inl hpoint, rfl⟩
  | sendSyncContinue syncToken =>
      exact ⟨hrefl.calls, rfl, hrefl.commands, hrefl.started, hrefl.executed, hrefl.replies, hrefl.fulfilments,
        hrefl.unstopped⟩
  | listen hnext =>
      obtain ⟨msg, rest, px', -, hreceive, rfl, -⟩ := listen_cases hnext
      obtain ⟨hcalls, hname, hkept, hnew⟩ := receive_cases hreceive
      refine ⟨callsEvolve_of_eq hcalls, hname, hrefl.commands, hrefl.started, hrefl.executed, hrefl.replies, hkept,
        fun f hf => ?_⟩
      refine (hnew f hf).imp_right fun hresponse => ?_
      simp [hresponse.2]
  | workerReceive hnext =>
      obtain ⟨_, _, _, -, -, rfl⟩ := workerReceive_cases hnext
      exact ⟨hrefl.calls, rfl, hrefl.commands, List.prefix_append _ _, hrefl.executed, hrefl.replies, hrefl.fulfilments,
        hrefl.unstopped⟩
  | workerFinish hnext =>
      obtain ⟨_, _, _, _, -, -, rfl⟩ := workerFinish_cases hnext
      exact ⟨hrefl.calls, rfl, hrefl.commands, hrefl.started, List.prefix_append _ _, List.subset_append_left _ _,
        hrefl.fulfilments, hrefl.unstopped⟩
  | workerAck hnext =>
      obtain ⟨w, -, rfl⟩ := Option.map_eq_some_iff.mp hnext
      exact ⟨hrefl.calls, rfl, hrefl.commands, hrefl.started, hrefl.executed, hrefl.replies, hrefl.fulfilments,
        hrefl.unstopped⟩

end LinkInv

end InstrumentServer
