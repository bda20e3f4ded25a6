import InstrumentServer.Server.PendingCommands

/-!
# Responses that are due

`PendingCommands` follows an id in `pending_responses_`. A thread that waits for a future knows the promise instead: `ResponsesDue` says of every call of `execute` that has stored its promise and did not throw that the promise, as long as it has no value, is pending and its id has a carrier. A call that throws hands out no future, so nothing is asked of the commands; what is asked is that no response is lost on its way back.

Where the listener and the worker of such a link can do nothing more, only a silent link leaves a future without a value.
-/

namespace InstrumentServer

open Ipc Transition InstrumentWorkerProxy

/-- The promise is in `pending_responses_`, and `execute` did not throw. -/
def ExecuteCall.Stored (call : ExecuteCall) : Prop :=
  call.point ≠ .created ∧ call.point ≠ .numbered ∧ call.point ≠ .raised

theorem ExecuteCall.Returned.stored {call : ExecuteCall} (h : call.Returned) : call.Stored := by
  rcases h with hpoint | hpoint <;> simp [ExecuteCall.Stored, hpoint]

/-- A promise without a value was given none. -/
theorem InstrumentWorkerProxy.values_setValue_eq_none {px : InstrumentWorkerProxy} {p q : PromiseId}
    (source : FulfilmentSource) {resp : CommandResponse} (h : (px.setValue p source resp).values q = none) :
    px.values q = none ∧ q ≠ p := by
  simp only [InstrumentWorkerProxy.setValue] at h
  split at h
  · rename_i hvalue
    refine ⟨h, ?_⟩
    rintro rfl
    simp [h] at hvalue
  · have hne : q ≠ p := by
      rintro rfl
      simp at h
    rw [Function.update_of_ne hne] at h
    exact ⟨h, hne⟩

/-- After a failed send, the promise under the id gets the failure as its value. -/
theorem InstrumentWorkerProxy.resolveUnsent_some {px : InstrumentWorkerProxy} {p owner : PromiseId} {call : ExecuteCall}
    {m : Nat} (hfind : SortedAssoc.find? m px.pendingResponses = some owner) :
    px.resolveUnsent p call m =
      ((px.setCall p { call with point := .returned }).setValue owner .sendFailure (px.sendFailure call.cmd)).erasePending m := by
  have hsame : SortedAssoc.find? m (px.setCall p { call with point := .returned }).pendingResponses = some owner := hfind
  rw [InstrumentWorkerProxy.resolveUnsent, hsame]
  rfl

theorem InstrumentWorkerProxy.resolveUnsent_none {px : InstrumentWorkerProxy} {p : PromiseId} {call : ExecuteCall} {m : Nat}
    (hfind : SortedAssoc.find? m px.pendingResponses = none) :
    px.resolveUnsent p call m = px.setCall p { call with point := .returned } := by
  have hsame : SortedAssoc.find? m (px.setCall p { call with point := .returned }).pendingResponses = none := hfind
  rw [InstrumentWorkerProxy.resolveUnsent, hsame]

namespace WorkerLink

variable {N : JsonLibrary} {l l' : WorkerLink} {id : Nat}

/-- The promise is pending under the id, and the id has a carrier. -/
structure Due (l : WorkerLink) (p : PromiseId) (id : Nat) : Prop where
  pending : (id, p) ∈ l.proxy.pendingResponses
  carried : l.Carried id

structure ResponsesDue (l : WorkerLink) : Prop where
  drawn : ∀ p call, l.proxy.calls p = some call → call.point ≠ .created → call.msgId.isSome = true
  due : l.proxy.stopPoint = .running → l.worker.phase ≠ .exited → ∀ p call id, l.proxy.calls p = some call →
    call.msgId = some id → call.Stored → l.proxy.values p = none → l.Due p id

/-! ### Carriers -/

/-- The listener takes a message that is not the response under this id. -/
theorem Carried.listen (h : l.Carried id) {msg : IpcMessage} {rest : List IpcMessage} {px' : InstrumentWorkerProxy}
    (hresponses : l.responses = msg :: rest) (hcalls : px'.calls = l.proxy.calls)
    (hother : msg.type = .response → msg.id ≠ id) : Carried { l with proxy := px', responses := rest } id := by
  rcases h with ⟨p, call, hcall, hid, hactive⟩ | hrequest | hworker | ⟨m, hm, htype, hid⟩
  · exact Or.inl ⟨p, call, (congrFun hcalls p).trans hcall, hid, hactive⟩
  · exact Or.inr (Or.inl hrequest)
  · exact Or.inr (Or.inr (Or.inl hworker))
  · rw [hresponses] at hm
    rcases List.mem_cons.mp hm with rfl | hm
    · exact absurd hid (hother htype)
    · exact Or.inr (Or.inr (Or.inr ⟨m, hm, htype, hid⟩))

/-- The command at the head of the queue is the one the worker then processes. -/
theorem Carried.workerReceive (h : l.Carried id) (hinv : LinkInv N l) (hnext : l.workerReceive N = some l')
    (halive : l'.worker.phase ≠ .exited) : l'.Carried id := by
  obtain ⟨msg, rest, w, hrequests, hreceive, rfl⟩ := workerReceive_cases hnext
  obtain ⟨hidle, -, hcases⟩ := Instrument.receive_cases hinv.unblocked hreceive
  rcases h with hcall | ⟨m, hm, htype, hid⟩ | ⟨m, cmd, hphase, -⟩ | hresponse
  · exact Or.inl hcall
  · rw [hrequests] at hm
    rcases List.mem_cons.mp hm with rfl | hm
    · rcases hcases with ⟨hother, -⟩ | ⟨-, cmd, -, hphase⟩ | hexited
      · exact absurd htype hother
      · exact Or.inr (Or.inr (Or.inl ⟨m, cmd, hphase, hid⟩))
      · exact absurd hexited halive
    · exact Or.inr (Or.inl ⟨m, hm, htype, hid⟩)
  · rw [hidle] at hphase
    contradiction
  · exact Or.inr (Or.inr (Or.inr hresponse))

/-- The response to the command goes to the listener. -/
theorem Carried.workerFinish (h : l.Carried id) {plugin : PluginResponse} (hnext : l.workerFinish N plugin true = some l')
    (halive : l'.worker.phase ≠ .exited) : l'.Carried id := by
  obtain ⟨msg, cmd, w, msgs, hphase, hfinish, rfl⟩ := workerFinish_cases hnext
  obtain ⟨resp, rfl, htype, hsame⟩ := Instrument.finishCommand_response hphase hfinish halive
  rcases h with hcall | hrequest | ⟨m, c, hm, hid⟩ | ⟨m, hm, hresponse, hid⟩
  · exact Or.inl hcall
  · exact Or.inr (Or.inl hrequest)
  · obtain ⟨rfl, rfl⟩ := WorkerPhase.executing.inj (hphase.symm.trans hm)
    refine Or.inr (Or.inr (Or.inr ⟨resp, ?_, htype, hsame.trans hid⟩))
    exact List.mem_append_right _ (List.mem_singleton.mpr rfl)
  · exact Or.inr (Or.inr (Or.inr ⟨m, List.mem_append_left _ hm, hresponse, hid⟩))

theorem Carried.workerAck (h : l.Carried id) {delivered : Bool} (hnext : l.workerAck delivered = some l') :
    l'.Carried id := by
  obtain ⟨⟨w, msgs⟩, hack, rfl⟩ := Option.map_eq_some_iff.mp hnext
  obtain ⟨_, _, _, hphase, -, -⟩ := Instrument.sendSyncAck_cases hack
  rcases h with hcall | hrequest | ⟨m, c, hm, -⟩ | ⟨m, hm, htype, hid⟩
  · exact Or.inl hcall
  · exact Or.inr (Or.inl hrequest)
  · rw [hphase] at hm
    contradiction
  · refine Or.inr (Or.inr (Or.inr ⟨m, ?_, htype, hid⟩))
    show m ∈ if delivered = true then _ else _
    split
    · exact List.mem_append_left _ hm
    · exact hm

/-! ### Steps of a link -/

namespace ResponsesDue

theorem init (instrumentName : ByteString) : ResponsesDue { proxy := { instrumentName } } :=
  ⟨fun p call hcall => by simp at hcall, fun _ _ p call id hcall => by simp at hcall⟩

/-- The proxy stays as it is, and what carries an id goes on or dies with the worker. -/
theorem frame (h : l.ResponsesDue) (hproxy : l'.proxy = l.proxy)
    (halive : l'.worker.phase ≠ .exited → l.worker.phase ≠ .exited)
    (hcarried : l'.worker.phase ≠ .exited → ∀ id, l.Carried id → l'.Carried id) : l'.ResponsesDue := by
  refine ⟨hproxy ▸ h.drawn, fun hrunning hworker p call id hcall hid hstored hvalue => ?_⟩
  rw [hproxy] at hrunning hcall hvalue
  have hdue := h.due hrunning (halive hworker) p call id hcall hid hstored hvalue
  exact ⟨hproxy ▸ hdue.pending, hcarried hworker id hdue.carried⟩

/-- One call changes; the promises of the others stay as they are. -/
theorem update (h : l.ResponsesDue) (hinv : LinkInv N l) (hinv' : LinkInv N l') {p : PromiseId} {call call' : ExecuteCall}
    (hcall : l.proxy.calls p = some call) (hcalls : l'.proxy.calls = Function.update l.proxy.calls p (some call'))
    (hstop : l'.proxy.stopPoint = l.proxy.stopPoint) (hvalues : ∀ q, l'.proxy.values q = none → l.proxy.values q = none)
    (hpending : ∀ entry ∈ l.proxy.pendingResponses, call'.msgId ≠ some entry.1 → entry ∈ l'.proxy.pendingResponses)
    (hrequests : l.requests ⊆ l'.requests) (hworker : l'.worker = l.worker) (hresponses : l.responses ⊆ l'.responses)
    (hdrawn : call'.point ≠ .created → call'.msgId.isSome = true)
    (hown : l.proxy.stopPoint = .running → l.worker.phase ≠ .exited → ∀ id, call'.msgId = some id → call'.Stored →
      l'.proxy.values p = none → l'.Due p id) : l'.ResponsesDue := by
  constructor
  · intro q other hother
    rcases calls_update_cases hcalls hother with ⟨-, rfl⟩ | hold
    · exact hdrawn
    · exact h.drawn q other hold
  · intro hrunning halive q other id hother hid hstored hvalue
    rw [hstop] at hrunning
    rw [hworker] at halive
    by_cases hq : q = p
    · subst hq
      obtain rfl : call' = other := by
        rw [hcalls, Function.update_self] at hother
        exact Option.some.inj hother
      exact hown hrunning halive id hid hstored hvalue
    · have hold : l.proxy.calls q = some other := by rwa [hcalls, Function.update_of_ne hq] at hother
      have hdue := h.due hrunning halive q other id hold hid hstored (hvalues q hvalue)
      have hqid : l.proxy.messageId q = some id := by simp [messageId, hold, hid]
      have hqid' : l'.proxy.messageId q = some id := by simp [messageId, hother, hid]
      -- ids are drawn once, so the call that changes has another one, before and after
      refine ⟨hpending _ hdue.pending fun hsame => hq (hinv'.promises.distinct q p id hqid' ?_),
        hdue.carried.update hcall hcalls (fun hsame => absurd (hinv.promises.distinct q p id hqid ?_) hq) hrequests hworker
          hresponses⟩
      · simp [messageId, hcalls, hsame]
      · simp [messageId, hcall, hsame]

theorem execute (h : l.ResponsesDue) (hinv : LinkInv N l) (cmd : SerializedCommand) : (l.execute cmd).ResponsesDue := by
  have hnew : ∀ {p call}, (l.execute cmd).proxy.calls p = some call → call.point = .created ∨ l.proxy.calls p = some call := by
    intro p call hcall
    rcases calls_create_cases hcall with ⟨-, rfl⟩ | hold
    · exact Or.inl rfl
    · exact Or.inr hold
  refine ⟨fun p call hcall hpoint => ?_, fun hrunning halive p call id hcall hid hstored hvalue => ?_⟩
  · exact h.drawn p call ((hnew hcall).resolve_left hpoint) hpoint
  · have hdue := h.due hrunning halive p call id ((hnew hcall).resolve_left hstored.1) hid hstored hvalue
    refine ⟨hdue.pending, hdue.carried.mono (fun q other hother hother' hactive => ?_) (List.Subset.refl _) rfl
      (List.Subset.refl _)⟩
    have hne : q ≠ l.proxy.promises := by
      rintro rfl
      rw [hinv.promises.fresh _ le_rfl] at hother
      contradiction
    exact Or.inl ⟨q, other, (Function.update_of_ne hne ..).trans hother, hother', hactive⟩

/-- A call that has stored its promise goes to another point. -/
theorem move (h : l.ResponsesDue) (hinv : LinkInv N l) {p : PromiseId} {call : ExecuteCall} {next : ExecutePoint}
    {px' : InstrumentWorkerProxy} {requests commands : List IpcMessage} (hinv' : LinkInv N { l with proxy := px', requests, commands })
    (hcall : l.proxy.calls p = some call) (hstored : call.Stored)
    (hcalls : px'.calls = Function.update l.proxy.calls p (some { call with point := next }))
    (hstop : px'.stopPoint = l.proxy.stopPoint) (hvalues : px'.values = l.proxy.values)
    (hpending : px'.pendingResponses = l.proxy.pendingResponses) (hrequests : l.requests ⊆ requests)
    (hcarried : next ≠ .raised → ∀ id, call.msgId = some id → l.Carried id →
      Carried { l with proxy := px', requests, commands } id) :
    ResponsesDue { l with proxy := px', requests, commands } := by
  refine h.update hinv hinv' hcall hcalls hstop (fun q => by rw [hvalues]; exact id)
    (fun entry hentry _ => by rw [hpending]; exact hentry) hrequests rfl (List.Subset.refl _)
    (fun _ => h.drawn p call hcall hstored.1) fun hrunning halive id hid hstored' hvalue => ?_
  have hdue := h.due hrunning halive p call id hcall hid hstored (by rw [← hvalues]; exact hvalue)
  exact ⟨by rw [hpending]; exact hdue.pending, hcarried hstored'.2.2 id hid hdue.carried⟩

theorem advance (h : l.ResponsesDue) (hinv : LinkInv N l) {p : PromiseId} {sent : Bool}
    (hnext : l.advance N p sent = some l') : l'.ResponsesDue := by
  have hinv' := hinv.advance hnext
  obtain ⟨⟨px', msgs⟩, hadvance, rfl⟩ := Option.map_eq_some_iff.mp hnext
  obtain ⟨call, hcall, hstep⟩ := advance_cases hadvance
  cases hstep with
  | draw hpoint =>
      exact h.update hinv hinv' hcall rfl rfl (fun _ => id) (fun entry hentry _ => hentry) (by simp) rfl
        (List.Subset.refl _) (fun _ => rfl) fun _ _ id _ hstored => absurd rfl hstored.2.1
  | @store m hpoint hm =>
      refine h.update hinv hinv' hcall rfl rfl (fun _ => id) (fun entry hentry hne => ?_) (by simp) rfl
        (List.Subset.refl _) (fun _ => by simp [hm]) fun _ _ id hid _ _ => ⟨?_, ?_⟩
      · exact SortedAssoc.mem_insert_of_ne hinv.promises.sorted p hentry fun hsame => hne (hm.trans (congrArg some hsame.symm))
      · obtain rfl := Option.some.inj (hm.symm.trans hid)
        exact SortedAssoc.mem_of_find? (SortedAssoc.find?_insert_self ..)
      · exact Or.inl ⟨p, _, Function.update_self .., hid, by simp [ExecuteCall.Ended, ExecuteCall.Returned]⟩
  | @encode m hpoint hm =>
      have hstored : call.Stored := by simp [ExecuteCall.Stored, hpoint]
      cases htext : serializeCommand N call.cmd with
      | ok text =>
        simp only [InstrumentWorkerProxy.encode, htext] at hinv' ⊢
        exact h.move hinv hinv' hcall hstored rfl rfl rfl rfl (by simp) fun _ id hid _ =>
          Or.inl ⟨p, _, Function.update_self .., hid, by simp [ExecuteCall.Ended, ExecuteCall.Returned]⟩
      | error e =>
        simp only [InstrumentWorkerProxy.encode, htext] at hinv' ⊢
        exact h.move hinv hinv' hcall hstored rfl rfl rfl rfl (by simp) fun hraised => absurd rfl hraised
  | @send msg stats hpoint =>
      have hstored : call.Stored := by simp [ExecuteCall.Stored, hpoint]
      refine h.move hinv hinv' hcall hstored rfl rfl rfl rfl (by simp) fun _ id hid _ => Or.inr (Or.inl ⟨msg, by simp, ?_⟩)
      obtain ⟨hown, text, -, hmsg⟩ := hinv.encoded p call msg hcall hpoint
      exact ⟨by rw [hmsg]; rfl, Option.some.inj (hown.symm.trans hid)⟩
  | @fail msg hpoint =>
      have hstored : call.Stored := by simp [ExecuteCall.Stored, hpoint]
      exact h.move hinv hinv' hcall hstored rfl rfl rfl rfl (by simp) fun _ id hid _ =>
        Or.inl ⟨p, _, Function.update_self .., hid, by simp [ExecuteCall.Ended, ExecuteCall.Returned]⟩
  | @resolve m hpoint hm =>
      have hstored : call.Stored := by simp [ExecuteCall.Stored, hpoint]
      simp only [List.append_nil] at hinv' ⊢
      cases hfind : SortedAssoc.find? m l.proxy.pendingResponses with
      | some owner =>
        -- the promise under the id is the one this call stored
        obtain rfl : owner = p := by
          refine hinv.promises.distinct owner p m (hinv.promises.owner m owner (SortedAssoc.mem_of_find? hfind)).1 ?_
          simp [messageId, hcall, hm]
        rw [resolveUnsent_some hfind] at hinv' ⊢
        refine h.update hinv hinv' hcall rfl rfl (fun q hvalue => (values_setValue_eq_none .sendFailure hvalue).1)
          (fun entry hentry hne => List.mem_filter.mpr ⟨hentry, ?_⟩) (List.Subset.refl _) rfl (List.Subset.refl _)
          (fun _ => by simp [hm]) fun _ _ id _ _ hvalue => absurd rfl (values_setValue_eq_none .sendFailure hvalue).2
        exact decide_eq_true fun hsame => hne (hm.trans (congrArg some hsame.symm))
      | none =>
        rw [resolveUnsent_none hfind] at hinv' ⊢
        refine h.update hinv hinv' hcall rfl rfl (fun _ => id) (fun entry hentry _ => hentry) (List.Subset.refl _) rfl
          (List.Subset.refl _) (fun _ => by simp [hm]) fun hrunning halive id _ _ hvalue => ?_
        have hdue := h.due hrunning halive p call m hcall hm hstored hvalue
        rw [SortedAssoc.find?_of_mem hinv.promises.sorted hdue.pending] at hfind
        contradiction

theorem waitTimeout (h : l.ResponsesDue) (hinv : LinkInv N l) {p : PromiseId} (hnext : l.waitTimeout p = some l') :
    l'.ResponsesDue := by
  have hinv' := hinv.waitTimeout hnext
  obtain ⟨px', htimeout, rfl⟩ := Option.map_eq_some_iff.mp hnext
  obtain ⟨call, stats, hcall, hpoint, rfl⟩ := waitTimeout_cases htimeout
  have hreturned : call.Returned := Or.inl hpoint
  refine h.move hinv hinv' hcall hreturned.stored rfl rfl rfl rfl (List.Subset.refl _) fun _ id hid hcarried => ?_
  refine hcarried.mono (fun q other hother hid' hactive => ?_) (List.Subset.refl _) rfl (List.Subset.refl _)
  have hne : q ≠ p := by
    rintro rfl
    obtain rfl := Option.some.inj (hcall.symm.trans hother)
    exact hactive (Or.inl hreturned)
  exact Or.inl ⟨q, other, (Function.update_of_ne hne ..).trans hother, hid', hactive⟩

theorem sendSyncContinue (h : l.ResponsesDue) (syncToken : SyncToken) : (l.sendSyncContinue syncToken).ResponsesDue :=
  h.frame rfl id fun _ _ hcarried => hcarried.mono (fun p call hcall hid hactive => Or.inl ⟨p, call, hcall, hid, hactive⟩)
    (List.subset_append_left _ _) rfl (List.Subset.refl _)

theorem workerReceive (h : l.ResponsesDue) (hinv : LinkInv N l) (hnext : l.workerReceive N = some l') :
    l'.ResponsesDue := by
  have hmoved := fun id (hcarried : l.Carried id) => hcarried.workerReceive hinv hnext
  obtain ⟨msg, rest, w, -, hreceive, rfl⟩ := workerReceive_cases hnext
  have hidle := (Instrument.receive_cases hinv.unblocked hreceive).1
  exact h.frame rfl (fun _ => by simp [hidle]) fun halive id hcarried => hmoved id hcarried halive

theorem workerFinish (h : l.ResponsesDue) {plugin : PluginResponse} (hnext : l.workerFinish N plugin true = some l') :
    l'.ResponsesDue := by
  have hmoved := fun id (hcarried : l.Carried id) => hcarried.workerFinish hnext
  obtain ⟨msg, cmd, w, msgs, hphase, -, rfl⟩ := workerFinish_cases hnext
  exact h.frame rfl (fun _ => by simp [hphase]) fun halive id hcarried => hmoved id hcarried halive

theorem workerAck (h : l.ResponsesDue) {delivered : Bool} (hnext : l.workerAck delivered = some l') : l'.ResponsesDue := by
  have hmoved := fun id (hcarried : l.Carried id) => hcarried.workerAck hnext
  obtain ⟨⟨w, msgs⟩, hack, rfl⟩ := Option.map_eq_some_iff.mp hnext
  obtain ⟨_, _, _, hphase, -, -⟩ := Instrument.sendSyncAck_cases hack
  exact h.frame rfl (fun _ => by simp [hphase]) fun _ id hcarried => hmoved id hcarried

theorem stop (h : l.ResponsesDue) (hnext : l.stop = some l') : l'.ResponsesDue := by
  obtain ⟨px', hstop, rfl⟩ := Option.map_eq_some_iff.mp hnext
  have hcalls : px'.calls = l.proxy.calls ∧ px'.stopPoint ≠ .running := by
    rcases stopStep_moves hstop with ⟨-, rfl⟩ | ⟨-, rfl⟩ | ⟨-, rfl⟩
    · exact ⟨rfl, by simp⟩
    · exact ⟨(calls_cleanupPendingPromises _).1, by simp⟩
    · exact ⟨rfl, by simp⟩
  exact ⟨fun p call hcall => h.drawn p call (hcalls.1 ▸ hcall), fun hrunning => absurd hrunning hcalls.2⟩

theorem listen (h : l.ResponsesDue) (hinv : LinkInv N l) {token : Option SyncToken}
    (hnext : l.listen N = some (l', token)) : l'.ResponsesDue := by
  obtain ⟨msg, rest, px', hresponses, hreceive, rfl, -⟩ := listen_cases hnext
  have hcalls := (receive_frame hinv.promises.sorted hreceive).2.1
  refine ⟨fun p call hcall => h.drawn p call (hcalls ▸ hcall), fun hrunning halive p call id hcall hid hstored hvalue => ?_⟩
  have hstop := (receive_frame hinv.promises.sorted hreceive).1
  rcases receive_moves hreceive with ⟨resp, owner, stats, -, -, howner, rfl⟩ | ⟨hnone, rfl⟩
  · obtain ⟨hold, hne⟩ := values_setValue_eq_none (.response msg) hvalue
    have hdue := h.due hrunning halive p call id hcall hid hstored hold
    have hother : msg.id ≠ id := by
      rintro rfl
      have hfind := SortedAssoc.find?_of_mem hinv.promises.sorted hdue.pending
      exact hne (Option.some.inj (hfind.symm.trans howner))
    exact ⟨List.mem_filter.mpr ⟨hdue.pending, decide_eq_true hother.symm⟩, hdue.carried.listen hresponses rfl fun _ => hother⟩
  · have hdue := h.due hrunning halive p call id hcall hid hstored hvalue
    refine ⟨hdue.pending, hdue.carried.listen hresponses hcalls fun htype hsame => ?_⟩
    have hfind := SortedAssoc.find?_of_mem hinv.promises.sorted hdue.pending
    rw [← hsame, hnone htype] at hfind
    contradiction

end ResponsesDue

/-! ### Links at rest -/

/-- Neither the listener nor the worker can go on. -/
structure Rests (N : JsonLibrary) (l : WorkerLink) : Prop where
  listen : l.listen N = none
  receive : l.workerReceive N = none
  finish : ∀ plugin, l.workerFinish N plugin true = none
  ack : l.workerAck true = none

/-- The proxy was stopped, the worker is gone, or the listener cannot decode the next message. -/
def Silent (N : JsonLibrary) (l : WorkerLink) : Prop :=
  l.proxy.stopPoint ≠ .running ∨ l.worker.phase = .exited ∨
    ∃ msg rest, l.responses = msg :: rest ∧ l.proxy.receive N msg = none

/-- A worker that can do nothing more is gone, or it is idle with an empty queue. -/
theorem Rests.idle (h : l.Rests N) (halive : l.worker.phase ≠ .exited) : l.worker.phase = .idle ∧ l.requests = [] := by
  have hidle : l.worker.phase = .idle := by
    cases hphase : l.worker.phase with
    | idle => rfl
    | executing msg cmd =>
        have hfinish := h.finish .zero
        simp only [WorkerLink.workerFinish, hphase, Option.map_eq_none_iff, Instrument.finishCommand] at hfinish
        split at hfinish
        · split at hfinish <;> contradiction
        · contradiction
    | acknowledging msgId token last =>
        have hack := h.ack
        simp [WorkerLink.workerAck, Instrument.sendSyncAck, hphase] at hack
    | exited => exact absurd hphase halive
  refine ⟨hidle, ?_⟩
  cases hrequests : l.requests with
  | nil => rfl
  | cons msg rest =>
      have hreceive := h.receive
      simp [WorkerLink.workerReceive, Instrument.receive, hrequests, hidle] at hreceive

/-- Only on a silent link does a future stay without a value for good. -/
theorem ResponsesDue.silent (h : l.ResponsesDue) (hinv : LinkInv N l) (hrests : l.Rests N) {p : PromiseId}
    {call : ExecuteCall} (hcall : l.proxy.calls p = some call) (hreturned : call.Returned) (hvalue : l.proxy.values p = none) :
    l.Silent N := by
  by_cases hrunning : l.proxy.stopPoint = .running
  · by_cases halive : l.worker.phase = .exited
    · exact Or.inr (Or.inl halive)
    · obtain ⟨hidle, hrequests⟩ := hrests.idle halive
      obtain ⟨id, hid⟩ := Option.isSome_iff_exists.mp (h.drawn p call hcall hreturned.stored.1)
      rcases (h.due hrunning halive p call id hcall hid hreturned.stored hvalue).carried with
        ⟨q, other, hother, hsame, hactive⟩ | ⟨msg, hmsg, -⟩ | ⟨msg, cmd, hphase, -⟩ | ⟨msg, hmsg, -⟩
      · obtain rfl : q = p := by
          refine hinv.promises.distinct q p id ?_ ?_
          · simp [messageId, hother, hsame]
          · simp [messageId, hcall, hid]
        obtain rfl := Option.some.inj (hcall.symm.trans hother)
        exact absurd (Or.inl hreturned) hactive
      · rw [hrequests] at hmsg
        contradiction
      · rw [hidle] at hphase
        contradiction
      -- the response is on its way, so the listener is stuck at the message before it
      · have hlisten := hrests.listen
        cases hresponses : l.responses with
        | nil =>
            rw [hresponses] at hmsg
            contradiction
        | cons first rest =>
            refine Or.inr (Or.inr ⟨first, rest, hresponses, ?_⟩)
            simpa [WorkerLink.listen, hresponses] using hlisten
  · exact Or.inl hrunning

/-- A call of `execute` on a running link can go on until it returns or throws. -/
theorem ResponsesDue.advances (h : l.ResponsesDue) {p : PromiseId} {call : ExecuteCall} (hcall : l.proxy.calls p = some call)
    (hactive : ¬ call.Ended) (hrunning : l.proxy.stopPoint = .running) : l.advance N p true ≠ none := by
  have hdrawn := h.drawn p call hcall
  simp only [ExecuteCall.Ended, ExecuteCall.Returned, not_or] at hactive
  obtain ⟨⟨hreturned, htimedOut⟩, hraised⟩ := hactive
  rw [WorkerLink.advance, ne_eq, Option.map_eq_none_iff, InstrumentWorkerProxy.advance, hcall]
  cases hpoint : call.point with
  | created => simp [hpoint]
  | encoded msg => simp [hpoint, hrunning]
  | numbered | stored | unsent =>
      obtain ⟨id, hid⟩ := Option.isSome_iff_exists.mp (hdrawn (by simp [hpoint]))
      simp [hpoint, hid]
  | returned => exact absurd hpoint hreturned
  | raised => exact absurd hpoint hraised
  | timedOut => exact absurd hpoint htimedOut

end WorkerLink

end InstrumentServer
