import InstrumentServer.Server.WorkerLink
import InstrumentServer.Worker.MainLoop

/-!
# Who will answer a pending command

An id in `pending_responses_` is handed on from the call of `execute` to the request queue, to the worker, to the response queue and to the listener, which takes a message first and handles it then. `WorkerLink.Carried` says that one of them has it. Two hand-overs can lose an id: the encoder throws after the promise was stored, and the worker's send of a response times out. Nothing removes the entry then, and the future is never ready. `WorkerLink.Unfailing` excludes these two, and `carried_of_reachable` says that there is no third.

A worker that dies is in none of the states the result is about, and no later state of the link is.
-/

namespace InstrumentServer

open Ipc Transition InstrumentWorkerProxy

/-! ### A listener that holds a message -/

structure ListenedLink where
  link : WorkerLink
  /-- the message the listener has taken and not yet handled -/
  handling : Option IpcMessage := none

inductive LinkLabel where
  | execute (cmd : SerializedCommand)
  | advance (p : PromiseId) (sent : Bool)
  | waitTimeout (p : PromiseId)
  | sendSyncContinue (syncToken : SyncToken)
  | stop
  | takeMessage
  | handleMessage
  | workerReceive
  | workerFinish (plugin : PluginResponse) (delivered : Bool)
  | workerAck (delivered : Bool)

/-- The link with some messages put before the responses. -/
def WorkerLink.holding (l : WorkerLink) (held : List IpcMessage) : WorkerLink :=
  { l with responses := held ++ l.responses }

namespace ListenedLink

def takeMessage (s : ListenedLink) : Option ListenedLink :=
  match s.handling, s.link.responses with
  | none, msg :: rest => some ⟨{ s.link with responses := rest }, some msg⟩
  | _, _ => none

def handleMessage (N : JsonLibrary) (s : ListenedLink) : Option ListenedLink :=
  match s.handling with
  | none => none
  | some msg => (s.link.proxy.receive N msg).map fun px => ⟨{ s.link with proxy := px }, none⟩

/-- A step of the link that does not involve the listener. -/
def onLink (s : ListenedLink) (next : Option WorkerLink) : Option ListenedLink :=
  next.map fun l => { s with link := l }

def step (N : JsonLibrary) (s : ListenedLink) : LinkLabel → Option ListenedLink
  | .execute cmd => s.onLink (some (s.link.execute cmd))
  | .advance p sent => s.onLink (s.link.advance N p sent)
  | .waitTimeout p => s.onLink (s.link.waitTimeout p)
  | .sendSyncContinue syncToken => s.onLink (some (s.link.sendSyncContinue syncToken))
  | .stop => s.onLink s.link.stop
  | .takeMessage => s.takeMessage
  | .handleMessage => s.handleMessage N
  | .workerReceive => s.onLink (s.link.workerReceive N)
  | .workerFinish plugin delivered => s.onLink (s.link.workerFinish N plugin delivered)
  | .workerAck delivered => s.onLink (s.link.workerAck delivered)

/-- Every interleaving of the threads of a proxy and its worker. -/
def system (N : JsonLibrary) (instrumentName : ByteString) : System ListenedLink LinkLabel where
  init := ⟨{ proxy := { instrumentName } }, none⟩
  step := step N

/-- The link with the message in the listener's hands counted among the responses. -/
def joined (s : ListenedLink) : WorkerLink := s.link.holding s.handling.toList

end ListenedLink

/-! ### Carriers of an id -/

/-- The id belongs to a call of `execute` in progress, a queued COMMAND, the command the worker is processing or a RESPONSE that is not yet handled. -/
def WorkerLink.Carried (l : WorkerLink) (id : Nat) : Prop :=
  (∃ p call, l.proxy.calls p = some call ∧ call.msgId = some id ∧ ¬ call.Ended) ∨
    (∃ msg ∈ l.requests, msg.type = .command ∧ msg.id = id) ∨
    (∃ msg cmd, l.worker.phase = .executing msg cmd ∧ msg.id = id) ∨
    ∃ msg ∈ l.responses, msg.type = .response ∧ msg.id = id

/-- While the proxy is running and the worker is alive, every pending id has a carrier. -/
def WorkerLink.NoOrphan (l : WorkerLink) : Prop :=
  l.proxy.stopPoint = .running → l.worker.phase ≠ .exited → ∀ entry ∈ l.proxy.pendingResponses, l.Carried entry.1

/-- While the proxy is running, what the encoder gets is valid text and no response is lost on the way back. -/
def WorkerLink.Unfailing (l : WorkerLink) : LinkLabel → Prop
  | .advance p _ => l.proxy.stopPoint = .running → ∀ call ∈ l.proxy.calls p, call.point = .stored → call.cmd.ValidText
  | .workerFinish _ delivered => l.proxy.stopPoint = .running → delivered = true
  | _ => True

namespace InstrumentWorkerProxy

/-- After a failed send the call has returned and its id is no longer pending. -/
theorem resolveUnsent_frame {px : InstrumentWorkerProxy} (hsorted : SortedAssoc.Sorted px.pendingResponses)
    (p : PromiseId) (call : ExecuteCall) (m : Nat) :
    (px.resolveUnsent p call m).stopPoint = px.stopPoint ∧
      (px.resolveUnsent p call m).calls = Function.update px.calls p (some { call with point := .returned }) ∧
      ∀ entry ∈ (px.resolveUnsent p call m).pendingResponses, entry ∈ px.pendingResponses ∧ entry.1 ≠ m := by
  simp only [InstrumentWorkerProxy.resolveUnsent]
  split
  · refine ⟨rfl, rfl, fun entry hentry => ?_⟩
    have hkept := List.mem_filter.mp hentry
    exact ⟨hkept.1, by simpa using hkept.2⟩
  · rename_i hnone
    refine ⟨rfl, rfl, fun entry hentry => ⟨hentry, ?_⟩⟩
    rintro rfl
    have hfind := SortedAssoc.find?_of_mem hsorted hentry
    exact absurd (hnone.symm.trans hfind) (by simp)

/-- A handled message leaves the calls alone, and a response is no longer pending under its id. -/
theorem receive_frame {N : JsonLibrary} {px px' : InstrumentWorkerProxy} {msg : IpcMessage}
    (hsorted : SortedAssoc.Sorted px.pendingResponses) (hnext : px.receive N msg = some px') :
    px'.stopPoint = px.stopPoint ∧ px'.calls = px.calls ∧
      ∀ entry ∈ px'.pendingResponses, entry ∈ px.pendingResponses ∧ (msg.type = .response → entry.1 ≠ msg.id) := by
  rcases receive_moves hnext with ⟨resp, p, stats, -, -, -, rfl⟩ | ⟨hnone, rfl⟩
  · refine ⟨rfl, rfl, fun entry hentry => ?_⟩
    have hkept := List.mem_filter.mp hentry
    exact ⟨hkept.1, fun _ => by simpa using hkept.2⟩
  · refine ⟨rfl, rfl, fun entry hentry => ⟨hentry, fun hresponse hid => ?_⟩⟩
    have hfind := SortedAssoc.find?_of_mem hsorted hentry
    rw [hid] at hfind
    exact absurd ((hnone hresponse).symm.trans hfind) (by simp)

end InstrumentWorkerProxy

/-- A worker that is alive after the plugin returned has made a response under the id of the command. -/
theorem Instrument.finishCommand_response {N : JsonLibrary} {w w' : Instrument} {msg : IpcMessage}
    {cmd : SerializedCommand} {plugin : PluginResponse} {msgs : List IpcMessage} (hphase : w.phase = .executing msg cmd)
    (hnext : w.finishCommand N plugin = some (w', msgs)) (halive : w'.phase ≠ .exited) :
    ∃ resp, msgs = [resp] ∧ resp.type = .response ∧ resp.id = msg.id := by
  rw [Instrument.finishCommand, hphase] at hnext
  dsimp only at hnext
  split at hnext
  · rename_i resp hresp
    obtain ⟨text, -, hframe⟩ := (Instrument.sendCommandResponse_ok_iff N msg cmd _ resp).mp hresp
    refine ⟨resp, ?_, by rw [hframe]; rfl, by rw [hframe]; rfl⟩
    split at hnext <;> exact (Prod.mk.inj (Option.some.inj hnext)).2.symm
  · rw [← (Prod.mk.inj (Option.some.inj hnext)).1] at halive
    contradiction

namespace WorkerLink

/-! ### Steps do not look at the responses -/

section Holding

variable (N : JsonLibrary) (l : WorkerLink) (held : List IpcMessage)

theorem advance_holding (p : PromiseId) (sent : Bool) :
    (l.holding held).advance N p sent = (l.advance N p sent).map (holding · held) := by
  rw [WorkerLink.advance, WorkerLink.advance, Option.map_map]
  rfl

theorem waitTimeout_holding (p : PromiseId) : (l.holding held).waitTimeout p = (l.waitTimeout p).map (holding · held) := by
  rw [WorkerLink.waitTimeout, WorkerLink.waitTimeout, Option.map_map]
  rfl

theorem stop_holding : (l.holding held).stop = l.stop.map (holding · held) := by
  rw [WorkerLink.stop, WorkerLink.stop, Option.map_map]
  rfl

theorem workerReceive_holding : (l.holding held).workerReceive N = (l.workerReceive N).map (holding · held) := by
  cases hrequests : l.requests with
  | nil => simp [WorkerLink.workerReceive, holding, hrequests]
  | cons msg rest =>
      simp only [WorkerLink.workerReceive, holding, hrequests, Option.map_map]
      rfl

theorem workerFinish_holding (plugin : PluginResponse) (delivered : Bool) :
    (l.holding held).workerFinish N plugin delivered = (l.workerFinish N plugin delivered).map (holding · held) := by
  cases hphase : l.worker.phase with
  | idle | acknowledging | exited => simp [WorkerLink.workerFinish, holding, hphase]
  | executing msg cmd =>
      simp only [WorkerLink.workerFinish, holding, hphase, Option.map_map]
      cases delivered <;> simp [Function.comp_def, List.append_assoc]

theorem workerAck_holding (delivered : Bool) :
    (l.holding held).workerAck delivered = (l.workerAck delivered).map (holding · held) := by
  simp only [WorkerLink.workerAck, holding, Option.map_map]
  cases delivered <;> simp [Function.comp_def, List.append_assoc]

end Holding

variable {N : JsonLibrary} {l l' : WorkerLink} {id : Nat}

/-- What keeps the worker and loses no message and no call keeps a carrier. -/
theorem Carried.mono (h : l.Carried id)
    (hcalls : ∀ p call, l.proxy.calls p = some call → call.msgId = some id → ¬ call.Ended → l'.Carried id)
    (hrequests : l.requests ⊆ l'.requests) (hworker : l'.worker = l.worker) (hresponses : l.responses ⊆ l'.responses) :
    l'.Carried id := by
  rcases h with ⟨p, call, hcall, hid, hactive⟩ | ⟨msg, hmsg, htype, hid⟩ | ⟨msg, cmd, hphase, hid⟩ | ⟨msg, hmsg, htype, hid⟩
  · exact hcalls p call hcall hid hactive
  · exact Or.inr (Or.inl ⟨msg, hrequests hmsg, htype, hid⟩)
  · exact Or.inr (Or.inr (Or.inl ⟨msg, cmd, by rw [hworker, hphase], hid⟩))
  · exact Or.inr (Or.inr (Or.inr ⟨msg, hresponses hmsg, htype, hid⟩))

/-- A call changes; its id, if it had this one, needs a carrier afterwards. -/
theorem Carried.update (h : l.Carried id) {p : PromiseId} {call call' : ExecuteCall}
    (hcall : l.proxy.calls p = some call) (hcalls : l'.proxy.calls = Function.update l.proxy.calls p (some call'))
    (howner : call.msgId = some id → l'.Carried id) (hrequests : l.requests ⊆ l'.requests)
    (hworker : l'.worker = l.worker) (hresponses : l.responses ⊆ l'.responses) : l'.Carried id := by
  apply h.mono _ hrequests hworker hresponses
  intro q other hother hid hactive
  by_cases hq : q = p
  · subst hq
    obtain rfl := Option.some.inj (hcall.symm.trans hother)
    exact howner hid
  · exact Or.inl ⟨q, other, by rw [hcalls, Function.update_of_ne hq, hother], hid, hactive⟩

/-! ### What each step does with the carriers -/

namespace NoOrphan

theorem execute (hinv : LinkInv N l) (h : l.NoOrphan) (cmd : SerializedCommand) : (l.execute cmd).NoOrphan := by
  intro hrunning halive entry hentry
  refine (h hrunning halive entry hentry).mono ?_ (List.Subset.refl _) rfl (List.Subset.refl _)
  intro p call hcall hid hactive
  have hne : p ≠ l.proxy.promises := by
    rintro rfl
    rw [hinv.promises.fresh _ le_rfl] at hcall
    contradiction
  exact Or.inl ⟨p, call, (Function.update_of_ne hne ..).trans hcall, hid, hactive⟩

/-- A call goes on under its id. -/
theorem move (h : l.NoOrphan) {p : PromiseId} {call : ExecuteCall} {px' : InstrumentWorkerProxy} {next : ExecutePoint}
    (hcall : l.proxy.calls p = some call) (hactive : ¬ ({ call with point := next } : ExecuteCall).Ended)
    (hstop : px'.stopPoint = l.proxy.stopPoint)
    (hcalls : px'.calls = Function.update l.proxy.calls p (some { call with point := next }))
    (hpending : ∀ entry ∈ px'.pendingResponses, entry ∈ l.proxy.pendingResponses ∨ call.msgId = some entry.1) :
    WorkerLink.NoOrphan { l with proxy := px' } := by
  intro hrunning halive entry hentry
  have hself : call.msgId = some entry.1 → WorkerLink.Carried { l with proxy := px' } entry.1 := by
    intro hid
    exact Or.inl ⟨p, _, (congrFun hcalls p).trans (Function.update_self ..), hid, hactive⟩
  rcases hpending entry hentry with hold | hid
  · exact (h (hstop ▸ hrunning) halive entry hold).update hcall hcalls hself (List.Subset.refl _) rfl (List.Subset.refl _)
  · exact hself hid

theorem advance (hinv : LinkInv N l) (h : l.NoOrphan) {p : PromiseId} {sent : Bool}
    (hvalid : l.proxy.stopPoint = .running → ∀ call ∈ l.proxy.calls p, call.point = .stored → call.cmd.ValidText)
    (hnext : l.advance N p sent = some l') : l'.NoOrphan := by
  obtain ⟨⟨px', msgs⟩, hadvance, rfl⟩ := Option.map_eq_some_iff.mp hnext
  obtain ⟨call, hcall, hstep⟩ := advance_cases hadvance
  cases hstep with
  | draw hpoint =>
      intro hrunning halive entry hentry
      refine (h hrunning halive entry hentry).update hcall rfl ?_ (by simp) rfl (List.Subset.refl _)
      intro hid
      have hundrawn := hinv.promises.undrawn p (by simp [point, hcall, hpoint])
      simp [messageId, hcall, hid] at hundrawn
  | @store m hpoint hm =>
      have hstored : WorkerLink.NoOrphan { l with proxy := l.proxy.storePromise p call m } := by
        refine h.move hcall (by simp [ExecuteCall.Ended, ExecuteCall.Returned]) rfl rfl fun entry hentry => ?_
        rcases SortedAssoc.mem_insert hentry with rfl | hold
        · exact Or.inr hm
        · exact Or.inl hold
      simpa using hstored
  | @encode m hpoint hm =>
      simp only [List.append_nil]
      intro hrunning
      have hstop : (l.proxy.encode N p call m).stopPoint = l.proxy.stopPoint := by
        unfold InstrumentWorkerProxy.encode
        split <;> rfl
      obtain ⟨text, htext⟩ := (serializeCommand_ok_iff N call.cmd).mpr (hvalid (hstop ▸ hrunning) call hcall hpoint)
      have hencoded : WorkerLink.NoOrphan { l with proxy := l.proxy.encode N p call m } := by
        simp only [InstrumentWorkerProxy.encode, htext]
        exact h.move hcall (by simp [ExecuteCall.Ended, ExecuteCall.Returned]) rfl rfl fun entry hentry => Or.inl hentry
      exact hencoded hrunning
  | @send msg stats hpoint =>
      intro hrunning halive entry hentry
      refine (h hrunning halive entry hentry).update hcall rfl ?_ (by simp) rfl (List.Subset.refl _)
      intro hid
      obtain ⟨hown, text, -, hmsg⟩ := hinv.encoded p call msg hcall hpoint
      refine Or.inr (Or.inl ⟨msg, by simp, ?_, ?_⟩)
      · rw [hmsg]
        rfl
      · exact Option.some.inj (hown.symm.trans hid)
  | fail hpoint =>
      have hunsent : WorkerLink.NoOrphan { l with proxy := l.proxy.setCall p { call with point := .unsent } } :=
        h.move hcall (by simp [ExecuteCall.Ended, ExecuteCall.Returned]) rfl rfl fun entry hentry => Or.inl hentry
      simpa using hunsent
  | @resolve m hpoint hm =>
      obtain ⟨hstop, hcalls, hpending⟩ := resolveUnsent_frame hinv.promises.sorted p call m
      intro hrunning halive entry hentry
      obtain ⟨hold, hne⟩ := hpending entry hentry
      refine (h (hstop ▸ hrunning) halive entry hold).update hcall hcalls ?_ (by simp) rfl (List.Subset.refl _)
      intro hid
      exact absurd (Option.some.inj (hid.symm.trans hm)) hne

theorem waitTimeout (h : l.NoOrphan) {p : PromiseId} (hnext : l.waitTimeout p = some l') : l'.NoOrphan := by
  obtain ⟨px', htimeout, rfl⟩ := Option.map_eq_some_iff.mp hnext
  obtain ⟨call, stats, hcall, hpoint, rfl⟩ := waitTimeout_cases htimeout
  intro hrunning halive entry hentry
  refine (h hrunning halive entry hentry).mono (fun q other hother hid hactive => ?_) (List.Subset.refl _) rfl
    (List.Subset.refl _)
  -- the call that gives up had returned before
  have hne : q ≠ p := by
    rintro rfl
    obtain rfl := Option.some.inj (hcall.symm.trans hother)
    exact hactive (Or.inl (Or.inl hpoint))
  exact Or.inl ⟨q, other, (Function.update_of_ne hne ..).trans hother, hid, hactive⟩

theorem request (h : l.NoOrphan) (msg : IpcMessage) :
    WorkerLink.NoOrphan { l with requests := l.requests ++ [msg] } := by
  intro hrunning halive entry hentry
  refine (h hrunning halive entry hentry).mono (fun p call hcall hid hactive => ?_) (List.subset_append_left _ _) rfl
    (List.Subset.refl _)
  exact Or.inl ⟨p, call, hcall, hid, hactive⟩

theorem stop (hnext : l.stop = some l') : l'.NoOrphan := by
  obtain ⟨px', hstop, rfl⟩ := Option.map_eq_some_iff.mp hnext
  intro hrunning
  rcases stopStep_moves hstop with ⟨-, rfl⟩ | ⟨-, rfl⟩ | ⟨-, rfl⟩
  · contradiction
  · contradiction
  · contradiction

theorem listen (hinv : LinkInv N l) (h : l.NoOrphan) {token : Option SyncToken} (hnext : l.listen N = some (l', token)) :
    l'.NoOrphan := by
  obtain ⟨msg, rest, px', hresponses, hreceive, rfl, -⟩ := WorkerLink.listen_cases hnext
  obtain ⟨hstop, hcalls, hpending⟩ := receive_frame hinv.promises.sorted hreceive
  intro hrunning halive entry hentry
  obtain ⟨hold, hhandled⟩ := hpending entry hentry
  rcases h (hstop ▸ hrunning) halive entry hold with
    ⟨p, call, hcall, hid, hactive⟩ | hrequest | hworker | ⟨m, hm, htype, hid⟩
  · exact Or.inl ⟨p, call, (congrFun hcalls p).trans hcall, hid, hactive⟩
  · exact Or.inr (Or.inl hrequest)
  · exact Or.inr (Or.inr (Or.inl hworker))
  · rw [hresponses] at hm
    rcases List.mem_cons.mp hm with rfl | hm
    · exact absurd hid.symm (hhandled htype)
    · exact Or.inr (Or.inr (Or.inr ⟨m, hm, htype, hid⟩))

theorem workerReceive (hinv : LinkInv N l) (h : l.NoOrphan) (hnext : l.workerReceive N = some l') : l'.NoOrphan := by
  obtain ⟨msg, rest, w, hrequests, hreceive, rfl⟩ := WorkerLink.workerReceive_cases hnext
  obtain ⟨hidle, -, hcases⟩ := Instrument.receive_cases hinv.unblocked hreceive
  intro hrunning halive entry hentry
  rcases h hrunning (by simp [hidle]) entry hentry with hcall | ⟨m, hm, htype, hid⟩ | ⟨m, cmd, hphase, -⟩ | hresponse
  · exact Or.inl hcall
  · rw [hrequests] at hm
    rcases List.mem_cons.mp hm with rfl | hm
    -- the command at the head of the queue is the one the worker now processes
    · rcases hcases with ⟨hother, -⟩ | ⟨-, cmd, -, hphase⟩ | hexited
      · exact absurd htype hother
      · exact Or.inr (Or.inr (Or.inl ⟨m, cmd, hphase, hid⟩))
      · exact absurd hexited halive
    · exact Or.inr (Or.inl ⟨m, hm, htype, hid⟩)
  · rw [hidle] at hphase
    contradiction
  · exact Or.inr (Or.inr (Or.inr hresponse))

theorem workerFinish (h : l.NoOrphan) {plugin : PluginResponse} {delivered : Bool}
    (hdelivered : l.proxy.stopPoint = .running → delivered = true)
    (hnext : l.workerFinish N plugin delivered = some l') : l'.NoOrphan := by
  obtain ⟨msg, cmd, w, msgs, hphase, hfinish, rfl⟩ := WorkerLink.workerFinish_cases hnext
  intro hrunning halive entry hentry
  obtain rfl := hdelivered hrunning
  rcases h hrunning (by simp [hphase]) entry hentry with hcall | hrequest | ⟨m, c, hm, hid⟩ | ⟨m, hm, htype, hid⟩
  · exact Or.inl hcall
  · exact Or.inr (Or.inl hrequest)
  · obtain ⟨rfl, rfl⟩ := WorkerPhase.executing.inj (hphase.symm.trans hm)
    obtain ⟨resp, hresp, htype, hsame⟩ := Instrument.finishCommand_response hphase hfinish halive
    refine Or.inr (Or.inr (Or.inr ⟨resp, ?_, htype, hsame.trans hid⟩))
    simp [hresp]
  · exact Or.inr (Or.inr (Or.inr ⟨m, by simp [hm], htype, hid⟩))

theorem workerAck (h : l.NoOrphan) {delivered : Bool} (hnext : l.workerAck delivered = some l') : l'.NoOrphan := by
  obtain ⟨⟨w, msgs⟩, hack, rfl⟩ := Option.map_eq_some_iff.mp hnext
  obtain ⟨id, token, last, hphase, rfl, rfl⟩ := Instrument.sendSyncAck_cases hack
  intro hrunning halive entry hentry
  rcases h hrunning (by simp [hphase]) entry hentry with hcall | hrequest | ⟨m, c, hm, hid⟩ | ⟨m, hm, htype, hid⟩
  · exact Or.inl hcall
  · exact Or.inr (Or.inl hrequest)
  · rw [hphase] at hm
    contradiction
  · refine Or.inr (Or.inr (Or.inr ⟨m, ?_, htype, hid⟩))
    show m ∈ if delivered = true then _ else _
    split
    · exact List.mem_append_left _ hm
    · exact hm

end NoOrphan

end WorkerLink

/-! ### Whole runs -/

/-- A step of a link whose listener takes and handles a message at once. -/
def WorkerLink.atomicStep (N : JsonLibrary) (l : WorkerLink) : LinkLabel → Option WorkerLink
  | .execute cmd => some (l.execute cmd)
  | .advance p sent => l.advance N p sent
  | .waitTimeout p => l.waitTimeout p
  | .sendSyncContinue syncToken => some (l.sendSyncContinue syncToken)
  | .stop => l.stop
  | .takeMessage => some l
  | .handleMessage => (l.listen N).map Prod.fst
  | .workerReceive => l.workerReceive N
  | .workerFinish plugin delivered => l.workerFinish N plugin delivered
  | .workerAck delivered => l.workerAck delivered

theorem LinkInv.atomicStep {N : JsonLibrary} {l l' : WorkerLink} (h : LinkInv N l) {label : LinkLabel}
    (hnext : l.atomicStep N label = some l') : LinkInv N l' := by
  cases label with
  | execute cmd => exact Option.some.inj hnext ▸ h.execute cmd
  | advance p sent => exact h.advance hnext
  | waitTimeout p => exact h.waitTimeout hnext
  | sendSyncContinue syncToken => exact Option.some.inj hnext ▸ h.request (by simp)
  | stop => exact h.stop hnext
  | takeMessage => exact Option.some.inj hnext ▸ h
  | handleMessage =>
      obtain ⟨⟨l', token⟩, hlisten, rfl⟩ := Option.map_eq_some_iff.mp hnext
      exact h.listen hlisten
  | workerReceive => exact h.workerReceive hnext
  | workerFinish plugin delivered => exact h.workerFinish hnext
  | workerAck delivered => exact h.workerAck hnext

theorem WorkerLink.NoOrphan.atomicStep {N : JsonLibrary} {l l' : WorkerLink} (hinv : LinkInv N l) (h : l.NoOrphan)
    {label : LinkLabel} (hok : l.Unfailing label) (hnext : l.atomicStep N label = some l') : l'.NoOrphan := by
  cases label with
  | execute cmd => exact Option.some.inj hnext ▸ h.execute hinv cmd
  | advance p sent => exact h.advance hinv hok hnext
  | waitTimeout p => exact h.waitTimeout hnext
  | sendSyncContinue syncToken => exact Option.some.inj hnext ▸ h.request _
  | stop => exact .stop hnext
  | takeMessage => exact Option.some.inj hnext ▸ h
  | handleMessage =>
      obtain ⟨⟨l', token⟩, hlisten, rfl⟩ := Option.map_eq_some_iff.mp hnext
      exact h.listen hinv hlisten
  | workerReceive => exact h.workerReceive hinv hnext
  | workerFinish plugin delivered => exact h.workerFinish hok hnext
  | workerAck delivered => exact h.workerAck hnext

namespace ListenedLink

variable {N : JsonLibrary} {s t : ListenedLink}

/-- A step that does not involve the listener, seen from the joined link. -/
theorem map_holding_onLink {next : Option WorkerLink} (hnext : s.onLink next = some t) :
    next.map (WorkerLink.holding · s.handling.toList) = some t.joined := by
  obtain ⟨l, hl, rfl⟩ := Option.map_eq_some_iff.mp hnext
  rw [hl]
  rfl

/-- The joined link refines a link with an atomic listener. -/
theorem joined_step {label : LinkLabel} (hnext : s.step N label = some t) :
    s.joined.atomicStep N label = some t.joined := by
  cases label with
  | execute cmd =>
      obtain rfl := Option.some.inj hnext
      rfl
  | advance p sent => exact (WorkerLink.advance_holding N _ _ p sent).trans (map_holding_onLink hnext)
  | waitTimeout p => exact (WorkerLink.waitTimeout_holding _ _ p).trans (map_holding_onLink hnext)
  | sendSyncContinue syncToken =>
      obtain rfl := Option.some.inj hnext
      rfl
  | stop => exact (WorkerLink.stop_holding _ _).trans (map_holding_onLink hnext)
  | takeMessage =>
      rw [ListenedLink.step, ListenedLink.takeMessage] at hnext
      split at hnext
      · rename_i msg rest hhandling hresponses
        obtain rfl := Option.some.inj hnext
        simp [WorkerLink.atomicStep, joined, WorkerLink.holding, hhandling, hresponses]
      · contradiction
  | handleMessage =>
      rw [ListenedLink.step, ListenedLink.handleMessage] at hnext
      split at hnext
      · contradiction
      · rename_i msg hhandling
        obtain ⟨px, hreceive, rfl⟩ := Option.map_eq_some_iff.mp hnext
        simp [WorkerLink.atomicStep, joined, WorkerLink.holding, WorkerLink.listen, hhandling, hreceive]
  | workerReceive => exact (WorkerLink.workerReceive_holding N _ _).trans (map_holding_onLink hnext)
  | workerFinish plugin delivered =>
      exact (WorkerLink.workerFinish_holding N _ _ plugin delivered).trans (map_holding_onLink hnext)
  | workerAck delivered => exact (WorkerLink.workerAck_holding _ _ delivered).trans (map_holding_onLink hnext)

theorem linkInv_of_reachable {instrumentName : ByteString} {ok : ListenedLink → LinkLabel → Prop}
    (hreach : ReachableWhile (system N instrumentName) ok s) : LinkInv N s.joined := by
  refine @ReachableWhile.invariant _ _ _ _ (fun s => LinkInv N s.joined) (LinkInv.init N instrumentName) ?_ _ hreach
  intro s t label h _ hnext
  exact h.atomicStep (joined_step hnext)

/-- As long as commands can be encoded and responses get through, every pending id has a carrier. -/
theorem carried_of_reachable {instrumentName : ByteString}
    (hreach : ReachableWhile (system N instrumentName) (fun s => s.link.Unfailing) s)
    (hrunning : s.link.proxy.stopPoint = .running) (halive : s.link.worker.phase ≠ .exited) :
    ∀ entry ∈ s.link.proxy.pendingResponses, s.joined.Carried entry.1 := by
  have hinv : LinkInv N s.joined ∧ s.joined.NoOrphan := by
    refine @ReachableWhile.invariant _ _ _ _ (fun s => LinkInv N s.joined ∧ s.joined.NoOrphan) ?_ ?_ _ hreach
    · refine ⟨LinkInv.init N instrumentName, fun _ _ entry hentry => ?_⟩
      contradiction
    · intro s t label h hok hnext
      exact ⟨h.1.atomicStep (joined_step hnext), h.2.atomicStep h.1 hok (joined_step hnext)⟩
  exact hinv.2 hrunning halive

end ListenedLink

/-! ### Runs -/

instance (value : ParamValue) : Decidable value.ValidText :=
  match value with
  | .string text => inferInstanceAs (Decidable (ByteString.ValidUtf8 text))
  | .double _ | .int64 _ | .boolean _ | .doubles _ => isTrue trivial

instance (cmd : SerializedCommand) : Decidable cmd.ValidText :=
  inferInstanceAs (Decidable (ByteString.ValidUtf8 cmd.id ∧ ByteString.ValidUtf8 cmd.instrumentName ∧
    ByteString.ValidUtf8 cmd.verb ∧ ∀ entry ∈ cmd.params.entries, ByteString.ValidUtf8 entry.1 ∧ entry.2.ValidText))

instance (l : WorkerLink) : (label : LinkLabel) → Decidable (l.Unfailing label)
  | .advance p _ => inferInstanceAs (Decidable (l.proxy.stopPoint = .running →
      ∀ call ∈ l.proxy.calls p, call.point = .stored → call.cmd.ValidText))
  | .workerFinish _ delivered => inferInstanceAs (Decidable (l.proxy.stopPoint = .running → delivered = true))
  | .execute _ | .waitTimeout _ | .sendSyncContinue _ | .stop | .takeMessage | .handleMessage | .workerReceive
  | .workerAck _ => isTrue trivial

namespace ListenedLink

/-- A call that reaches the worker, and a second one whose first send times out. -/
def answeredRun : List LinkLabel :=
  [.execute tokenCommand] ++ List.replicate 4 (.advance 0 true) ++ [.workerReceive, .execute tokenCommand] ++
    List.replicate 4 (.advance 1 false) ++ [.workerFinish (textReply (bytes "5 V")) true, .takeMessage]

theorem carried_of_reachable_answeredRun :
    ∃ s, ReachableWhile (system .compact (bytes "dmm")) (fun s => s.link.Unfailing) s ∧
      s.link.proxy.pendingResponses = [(1, 0), (2, 1)] ∧ s.handling.isSome = true ∧
      ∀ entry ∈ s.link.proxy.pendingResponses, s.joined.Carried entry.1 := by
  obtain ⟨s, hreach, hview⟩ := @ReachableWhile.of_any _ _ (system .compact (bytes "dmm")) (fun s => s.link.Unfailing) _
    answeredRun (fun s => s.link.proxy.stopPoint = .running && s.link.worker.phase ≠ .exited &&
      s.link.proxy.pendingResponses = [(1, 0), (2, 1)] && s.handling.isSome) (by decide +kernel)
  obtain ⟨⟨⟨hrunning, halive⟩, hpending⟩, hhandling⟩ : ((s.link.proxy.stopPoint = .running ∧
      s.link.worker.phase ≠ .exited) ∧ s.link.proxy.pendingResponses = [(1, 0), (2, 1)]) ∧ s.handling.isSome = true := by
    simpa using hview
  exact ⟨s, hreach, hpending, hhandling, carried_of_reachable hreach hrunning halive⟩

/-- An idle link whose only call has ended carries nothing. -/
theorem not_carried_of_idle {instrumentName : ByteString} {s : ListenedLink}
    (hreach : Reachable (system .compact instrumentName) s) (hone : s.link.proxy.promises = 1)
    (hended : ∀ call ∈ s.link.proxy.calls 0, call.Ended) (hrequests : s.link.requests = [])
    (hidle : s.link.worker.phase = .idle) (hresponses : s.joined.responses = []) (id : Nat) :
    ¬ s.joined.Carried id := by
  rintro (⟨p, call, hcall, -, hactive⟩ | ⟨msg, hmsg, -⟩ | ⟨msg, cmd, hphase, -⟩ | ⟨msg, hmsg, -⟩)
  · have hlt : p < s.link.proxy.promises := (linkInv_of_reachable hreach).promises.lt_promises hcall
    obtain rfl : p = 0 := Nat.lt_one_iff.mp (hone ▸ hlt)
    exact hactive (hended call hcall)
  · rw [show s.joined.requests = [] from hrequests] at hmsg
    contradiction
  · have hphase : s.link.worker.phase = .executing msg cmd := hphase
    rw [hidle] at hphase
    contradiction
  · rw [hresponses] at hmsg
    contradiction

/-- `µ` in Latin-1 as the value of a parameter. -/
def latinCommand : SerializedCommand :=
  { tokenCommand with params := ParamMap.empty.insert (bytes "unit") (.string [0xB5]) }

/-- What a link shows when one promise is pending and nothing is left to happen. -/
def Stuck (s : ListenedLink) : Bool :=
  s.link.proxy.stopPoint = .running && s.link.proxy.pendingResponses = [(1, 0)] && s.link.proxy.promises = 1 &&
    (s.link.proxy.calls 0).all (fun call => call.point = .raised || call.point = .returned) && s.link.requests = [] &&
    s.link.worker.phase = .idle && s.handling = none && s.link.responses = []

theorem orphan_of_stuck {s : ListenedLink} (hreach : Reachable (system .compact (bytes "dmm")) s) (hstuck : s.Stuck) :
    s.link.proxy.stopPoint = .running ∧ s.link.worker.phase ≠ .exited ∧
      ∃ entry ∈ s.link.proxy.pendingResponses, ¬ s.joined.Carried entry.1 := by
  simp only [Stuck, Bool.and_eq_true, decide_eq_true_eq] at hstuck
  obtain ⟨⟨⟨⟨⟨⟨⟨hrunning, hpending⟩, hone⟩, hcall⟩, hrequests⟩, hidle⟩, hhandling⟩, hresponses⟩ := hstuck
  refine ⟨hrunning, by simp [hidle], (1, 0), by simp [hpending], ?_⟩
  apply not_carried_of_idle hreach hone _ hrequests hidle
  · simp [joined, WorkerLink.holding, hhandling, hresponses]
  · intro call hmem
    rw [Option.mem_def.mp hmem] at hcall
    simp only [Option.all_some, Bool.or_eq_true, decide_eq_true_eq] at hcall
    exact hcall.elim Or.inr fun hreturned => Or.inl (Or.inl hreturned)

/-- The encoder throws on the parameter, and in another run the response to a valid command times out on its way. -/
theorem pending_command_orphaned :
    (∃ s, Reachable (system .compact (bytes "dmm")) s ∧ (s.link.proxy.point 0 = some .raised) ∧
      s.link.proxy.stopPoint = .running ∧ s.link.worker.phase ≠ .exited ∧
      ∃ entry ∈ s.link.proxy.pendingResponses, ¬ s.joined.Carried entry.1) ∧
    ∃ s, Reachable (system .compact (bytes "dmm")) s ∧ (s.link.proxy.point 0 = some .returned) ∧
      s.link.proxy.stopPoint = .running ∧ s.link.worker.phase ≠ .exited ∧
      ∃ entry ∈ s.link.proxy.pendingResponses, ¬ s.joined.Carried entry.1 := by
  constructor
  · obtain ⟨s, hreach, hview⟩ := @ReachableWhile.of_any _ _ (system .compact (bytes "dmm")) (fun _ _ => True) _
      ([.execute latinCommand] ++ List.replicate 3 (.advance 0 true))
      (fun s => s.link.proxy.point 0 = some .raised && s.Stuck) (by decide +kernel)
    obtain ⟨hraised, hstuck⟩ : s.link.proxy.point 0 = some .raised ∧ s.Stuck = true := by simpa using hview
    exact ⟨s, hreach, hraised, orphan_of_stuck hreach hstuck⟩
  · obtain ⟨s, hreach, hview⟩ := @ReachableWhile.of_any _ _ (system .compact (bytes "dmm")) (fun _ _ => True) _
      ([.execute tokenCommand] ++ List.replicate 4 (.advance 0 true) ++
        [.workerReceive, .workerFinish (textReply (bytes "5 V")) false, .workerAck false])
      (fun s => s.link.proxy.point 0 = some .returned && s.Stuck) (by decide +kernel)
    obtain ⟨hreturned, hstuck⟩ : s.link.proxy.point 0 = some .returned ∧ s.Stuck = true := by simpa using hview
    exact ⟨s, hreach, hreturned, orphan_of_stuck hreach hstuck⟩

end ListenedLink

end InstrumentServer
