import InstrumentServer.Ipc.Codec
import InstrumentServer.Server.ProxyPromises

/-!
# The statistics of a proxy

A command is counted as sent after its send, when its response may already have been handled, and a response is counted after its promise was answered. `CountingProxy` has these moments as states of their own. What is still to be counted can be counted at once: `settled` does so, and takes every step of the finer system to a step of `InstrumentWorkerProxy` or to none. There the balance is an invariant: the sent commands are the completed and the failed ones and those pending entries whose call has sent its message.
-/

namespace InstrumentServer

open Ipc Transition

namespace InstrumentWorkerProxy

/-! ### Calls that have sent their message -/

/-- The call behind the promise is over, whether its send succeeded or not. -/
def departed (px : InstrumentWorkerProxy) (p : PromiseId) : Bool :=
  px.point p = some .returned || px.point p = some .timedOut

/-- The call is between storing its promise and the end of its send. -/
def Underway (px : InstrumentWorkerProxy) (p : PromiseId) : Prop :=
  px.point p = some .stored ∨ (∃ msg, px.point p = some (.encoded msg)) ∨ px.point p = some .unsent

/-- The pending entries whose calls are over. -/
def departedEntries (px : InstrumentWorkerProxy) : Nat :=
  SortedAssoc.total (fun p => (px.departed p).toNat) px.pendingResponses

/-- A response answers a call that is over; commands are valid text. -/
def Answers (px : InstrumentWorkerProxy) : ProxyLabel → Prop
  | .execute cmd => cmd.ValidText
  | .receive msg => msg.type = .response → ∃ p, px.messageId p = some msg.id ∧ px.departed p = true
  | _ => True

/-- The command of a call can be encoded, and its message has the id the call drew. -/
structure CallSound (call : ExecuteCall) : Prop where
  valid : call.cmd.ValidText
  encodes : call.point ≠ .raised
  framed : ∀ msg, call.point = .encoded msg → call.msgId = some msg.id

structure Balance (N : JsonLibrary) (px : InstrumentWorkerProxy) : Prop where
  promises : PromiseInv N px
  name : ByteString.ValidUtf8 px.instrumentName
  calls : ∀ p call, px.calls p = some call → CallSound call
  kept : px.stopPoint = .running → ∀ p m, px.Underway p → px.messageId p = some m → (m, p) ∈ px.pendingResponses
  balance : px.stopPoint = .running →
    px.stats.commandsSent = px.stats.commandsCompleted + px.stats.commandsFailed + px.departedEntries

variable {N : JsonLibrary} {px px' : InstrumentWorkerProxy}

theorem departed_update {p : PromiseId} {call : ExecuteCall}
    (hcalls : px'.calls = Function.update px.calls p (some call)) (q : PromiseId) :
    px'.departed q = if q = p then decide (call.point = .returned) || decide (call.point = .timedOut) else px.departed q := by
  rw [departed, point_update hcalls]
  split
  · simp
  · rfl

theorem departed_of_point {p : PromiseId} {call : ExecuteCall} (hcall : px.calls p = some call) :
    px.departed p = (decide (call.point = .returned) || decide (call.point = .timedOut)) := by
  simp [departed, point, hcall]

theorem Underway.of_other {p q : PromiseId} {call : ExecuteCall}
    (hcalls : px'.calls = Function.update px.calls p (some call)) (hq : q ≠ p) (h : px'.Underway q) : px.Underway q := by
  rwa [Underway, point_update hcalls, if_neg hq] at h

/-- The entries of other calls count as before. -/
theorem total_departed_erase (h : PromiseInv N px) {m : Nat} {p : PromiseId} (hmem : (m, p) ∈ px.pendingResponses)
    (hother : ∀ q, q ≠ p → px'.departed q = px.departed q) :
    SortedAssoc.total (fun q => (px'.departed q).toNat) (SortedAssoc.erase m px.pendingResponses) =
      SortedAssoc.total (fun q => (px.departed q).toNat) (SortedAssoc.erase m px.pendingResponses) := by
  apply SortedAssoc.total_congr
  intro entry hentry
  obtain ⟨hentry, hne⟩ := List.mem_filter.mp hentry
  have hq : entry.2 ≠ p := by
    intro heq
    have howner := (h.owner entry.1 entry.2 hentry).1
    rw [heq, (h.owner m p hmem).1] at howner
    simp [Option.some.inj howner] at hne
  rw [hother entry.2 hq]

/-- What an entry contributes to the count. -/
theorem departedEntries_eq (h : PromiseInv N px) {m : Nat} {p : PromiseId} (hmem : (m, p) ∈ px.pendingResponses) :
    px.departedEntries = (px.departed p).toNat +
      SortedAssoc.total (fun q => (px.departed q).toNat) (SortedAssoc.erase m px.pendingResponses) :=
  SortedAssoc.total_erase_of_mem _ h.sorted hmem

namespace Balance

theorem calls_update (h : Balance N px) {p : PromiseId} {call : ExecuteCall}
    (hcalls : px'.calls = Function.update px.calls p (some call)) (hsound : CallSound call) (q : PromiseId) (call' : ExecuteCall)
    (hcall' : px'.calls q = some call') : CallSound call' := by
  rw [hcalls] at hcall'
  by_cases hq : q = p
  · subst hq
    rw [Function.update_self] at hcall'
    exact Option.some.inj hcall' ▸ hsound
  · rw [Function.update_of_ne hq] at hcall'
    exact h.calls q call' hcall'

/-- A call moves without storing, sending or resolving anything. -/
theorem setCall (h : Balance N px) {p : PromiseId} {call : ExecuteCall} (hpromises : PromiseInv N px')
    (hcalls : px'.calls = Function.update px.calls p (some call)) (hsound : CallSound call)
    (hunderway : px'.Underway p → px.Underway p ∧ call.msgId = px.messageId p)
    (hdeparted : px.departed p = (decide (call.point = .returned) || decide (call.point = .timedOut)))
    (hname : px'.instrumentName = px.instrumentName) (hpending : px'.pendingResponses = px.pendingResponses)
    (hstop : px'.stopPoint = px.stopPoint) (hsent : px'.stats.commandsSent = px.stats.commandsSent)
    (hcompleted : px'.stats.commandsCompleted = px.stats.commandsCompleted)
    (hfailed : px'.stats.commandsFailed = px.stats.commandsFailed) : Balance N px' := by
  have hsame : ∀ q, px'.departed q = px.departed q := by
    intro q
    rw [departed_update hcalls]
    split
    · rename_i hq
      rw [hq, hdeparted]
    · rfl
  refine ⟨hpromises, hname ▸ h.name, h.calls_update hcalls hsound, fun hrunning q m hq hm => ?_, fun hrunning => ?_⟩
  · rw [hpending]
    rw [hstop] at hrunning
    rw [messageId_update hcalls] at hm
    by_cases hqp : q = p
    · subst hqp
      obtain ⟨hbefore, hid⟩ := hunderway hq
      rw [if_pos rfl, hid] at hm
      exact h.kept hrunning q m hbefore hm
    · rw [if_neg hqp] at hm
      exact h.kept hrunning q m (hq.of_other hcalls hqp) hm
  · rw [hstop] at hrunning
    rw [hsent, hcompleted, hfailed, h.balance hrunning, departedEntries, departedEntries, hpending]
    simp only [hsame]

theorem create (h : Balance N px) {cmd : SerializedCommand} (hcmd : cmd.ValidText) : Balance N (px.create cmd) := by
  have hcalls : (px.create cmd).calls = Function.update px.calls px.promises (some ⟨cmd, none, .created⟩) := rfl
  have hnone : px.departed px.promises = false := by simp [departed, h.promises.fresh_point]
  refine h.setCall (h.promises.create cmd) hcalls ⟨hcmd, by simp, by simp⟩ (fun hunder => ?_) hnone rfl rfl rfl rfl rfl rfl
  rw [Underway, point_update hcalls, if_pos rfl] at hunder
  simp at hunder

theorem drawMessageId (h : Balance N px) {p : PromiseId} {call : ExecuteCall} (hcall : px.calls p = some call)
    (hpoint : call.point = .created) : Balance N (px.drawMessageId p call.cmd) := by
  have hcalls : (px.drawMessageId p call.cmd).calls = Function.update px.calls p
      (some ⟨{ call.cmd with id := px.commandId px.nextMessageId }, some px.nextMessageId, .numbered⟩) := rfl
  have hid : ByteString.ValidUtf8 (px.commandId px.nextMessageId) :=
    (h.name.append (ByteString.validUtf8_bytes "-")).append (ByteString.validUtf8_decimal _)
  have hvalid : ({ call.cmd with id := px.commandId px.nextMessageId } : SerializedCommand).ValidText :=
    ⟨hid, (h.calls p call hcall).valid.2⟩
  refine h.setCall (h.promises.drawMessageId hcall hpoint) hcalls ⟨hvalid, by simp, by simp⟩ (fun hunder => ?_)
    (by simp [departed_of_point hcall, hpoint]) rfl rfl rfl rfl rfl rfl
  rw [Underway, point_update hcalls, if_pos rfl] at hunder
  simp at hunder

theorem storePromise (h : Balance N px) {p : PromiseId} {call : ExecuteCall} {m : Nat} (hcall : px.calls p = some call)
    (hpoint : call.point = .numbered) (hm : call.msgId = some m) : Balance N (px.storePromise p call m) := by
  have hcalls : (px.storePromise p call m).calls =
      Function.update px.calls p (some { call with point := .stored }) := rfl
  have hpid : px.messageId p = some m := by simp [messageId, hcall, hm]
  have hearly : px.Early p := by simp [Early, point, hcall, hpoint]
  have hnew : SortedAssoc.find? m px.pendingResponses = none := by
    rw [Option.eq_none_iff_forall_ne_some]
    intro q hq
    obtain ⟨howner, hlate, -⟩ := h.promises.owner m q (SortedAssoc.mem_of_find? hq)
    exact hlate (h.promises.distinct q p m howner hpid ▸ hearly)
  have hsame : ∀ q, (px.storePromise p call m).departed q = px.departed q := by
    intro q
    rw [departed_update hcalls]
    split
    · rename_i hq
      rw [hq, departed_of_point hcall, hpoint]
      rfl
    · rfl
  refine ⟨h.promises.storePromise hcall hpoint hm, h.name, h.calls_update hcalls ⟨(h.calls p call hcall).valid, by simp, by simp⟩,
    fun hrunning q m' hq hm' => ?_, fun hrunning => ?_⟩
  · rw [messageId_update hcalls] at hm'
    by_cases hqp : q = p
    · subst hqp
      rw [if_pos rfl] at hm'
      obtain rfl := Option.some.inj (hm.symm.trans hm')
      exact SortedAssoc.mem_of_find? (SortedAssoc.find?_insert_self m q _)
    · rw [if_neg hqp] at hm'
      have hne : m' ≠ m := fun heq => hqp (h.promises.distinct q p m (heq ▸ hm') hpid)
      exact SortedAssoc.mem_insert_of_ne h.promises.sorted p (h.kept hrunning q m' (hq.of_other hcalls hqp) hm') hne
  · have hentries : (px.storePromise p call m).departedEntries = px.departedEntries := by
      rw [departedEntries, departedEntries]
      simp only [hsame]
      change SortedAssoc.total _ (SortedAssoc.insert m p px.pendingResponses) = _
      rw [SortedAssoc.total_insert_new _ _ hnew, departed_of_point hcall, hpoint]
      simp
    rw [hentries]
    exact h.balance hrunning

theorem encode (h : Balance N px) {p : PromiseId} {call : ExecuteCall} {m : Nat} (hcall : px.calls p = some call)
    (hpoint : call.point = .stored) (hm : call.msgId = some m) : Balance N (px.encode N p call m) := by
  have hsound := h.calls p call hcall
  have hpromises := h.promises.encode m hcall hpoint
  obtain ⟨text, htext⟩ := (serializeCommand_ok_iff N call.cmd).mpr hsound.valid
  rw [InstrumentWorkerProxy.encode, htext] at hpromises ⊢
  refine h.setCall hpromises rfl ⟨hsound.valid, by simp, ?_⟩ (fun _ => ⟨?_, ?_⟩)
    (by simp [departed_of_point hcall, hpoint]) rfl rfl rfl rfl rfl rfl
  · rintro msg hmsg
    obtain rfl := ExecutePoint.encoded.inj hmsg
    exact hm
  · exact Or.inl (by simp [point, hcall, hpoint])
  · simp [messageId, hcall]

/-- A send succeeds and is counted. -/
theorem send (h : Balance N px) {p : PromiseId} {call : ExecuteCall} {msg : IpcMessage} (hcall : px.calls p = some call)
    (hpoint : call.point = .encoded msg) :
    Balance N { px.setCall p { call with point := .returned } with
      stats := { px.stats with commandsSent := px.stats.commandsSent + 1 } } := by
  have hsound := h.calls p call hcall
  have hpid : px.messageId p = some msg.id := by simp [messageId, hcall, hsound.framed msg hpoint]
  have hunder : px.Underway p := Or.inr (Or.inl ⟨msg, by simp [point, hcall, hpoint]⟩)
  generalize hpx' : ({ px.setCall p { call with point := .returned } with
    stats := { px.stats with commandsSent := px.stats.commandsSent + 1 } } : InstrumentWorkerProxy) = px'
  have hcalls : px'.calls = Function.update px.calls p (some { call with point := .returned }) := by rw [← hpx']; rfl
  have hpending : px'.pendingResponses = px.pendingResponses := by rw [← hpx']; rfl
  have hpromises : PromiseInv N px' := h.promises.move .returned hcall (by simp [hpoint]) (by simp) (by rw [← hpx'])
  refine ⟨hpromises, by rw [← hpx']; exact h.name, h.calls_update hcalls ⟨hsound.valid, by simp, by simp⟩,
    fun hrunning q m hq hm => ?_, fun hrunning => ?_⟩
  · rw [← hpx'] at hrunning
    rw [hpending]
    by_cases hqp : q = p
    · subst hqp
      simp [Underway, point_update hcalls] at hq
    · rw [messageId_update hcalls, if_neg hqp] at hm
      exact h.kept hrunning q m (hq.of_other hcalls hqp) hm
  · rw [← hpx'] at hrunning
    have hmem := h.kept hrunning p msg.id hunder hpid
    have hother : ∀ q, q ≠ p → px'.departed q = px.departed q := fun q hq => by rw [departed_update hcalls, if_neg hq]
    have hbefore := departedEntries_eq h.promises hmem
    have hafter := departedEntries_eq hpromises (hpending ▸ hmem)
    rw [hpending, total_departed_erase h.promises hmem hother, departed_update hcalls, if_pos rfl] at hafter
    rw [departed_of_point hcall, hpoint] at hbefore
    have hbalance := h.balance hrunning
    simp only [decide_true, Bool.toNat_true, reduceCtorEq, decide_false, Bool.or_false, Bool.toNat_false]
      at hafter hbefore
    have hstats : px'.stats = { px.stats with commandsSent := px.stats.commandsSent + 1 } := by rw [← hpx']
    rw [hstats]
    dsimp only
    omega

/-- The pending entry of a call that is over is removed, by whoever answers its promise. -/
theorem fulfil (h : Balance N px) {m : Nat} {p : PromiseId} {source : FulfilmentSource} {resp : CommandResponse}
    {stats : ProxyStats} (hmem : (m, p) ∈ px.pendingResponses)
    (hpromises : PromiseInv N ((px.setValue p source resp).erasePending m))
    (hover : ¬ px.Underway p)
    (hstats : stats.commandsSent + px.stats.commandsCompleted + px.stats.commandsFailed + (px.departed p).toNat =
      px.stats.commandsSent + stats.commandsCompleted + stats.commandsFailed) :
    Balance N { (px.setValue p source resp).erasePending m with stats } := by
  refine ⟨hpromises.frame stats _, h.name, h.calls, fun hrunning q m' hq hm' => ?_, fun hrunning => ?_⟩
  · have hpending := h.kept hrunning q m' hq hm'
    have hne : m' ≠ m := by
      rintro rfl
      have howner := (h.promises.owner m' p hmem).1
      exact hover (h.promises.distinct q p m' hm' howner ▸ hq)
    exact List.mem_filter.mpr ⟨hpending, by simpa using hne⟩
  · have hbefore := departedEntries_eq h.promises hmem
    have hbalance := h.balance hrunning
    have hafter : ({ (px.setValue p source resp).erasePending m with stats } : InstrumentWorkerProxy).departedEntries =
        SortedAssoc.total (fun q => (px.departed q).toNat) (SortedAssoc.erase m px.pendingResponses) := rfl
    rw [hafter]
    change stats.commandsSent = stats.commandsCompleted + stats.commandsFailed + _
    omega

/-- A failed send takes its pending entry with it. -/
theorem resolveUnsent (h : Balance N px) {p : PromiseId} {call : ExecuteCall} {m : Nat} (hcall : px.calls p = some call)
    (hpoint : call.point = .unsent) (hm : call.msgId = some m) : Balance N (px.resolveUnsent p call m) := by
  have hpid : px.messageId p = some m := by simp [messageId, hcall, hm]
  have hunder : px.Underway p := Or.inr (Or.inr (by simp [point, hcall, hpoint]))
  have hpromises := h.promises.resolveUnsent m hcall hpoint
  have hcalls : (px.resolveUnsent p call m).calls = Function.update px.calls p (some { call with point := .returned }) := by
    rw [InstrumentWorkerProxy.resolveUnsent]
    split <;> rfl
  have hframe : (px.resolveUnsent p call m).instrumentName = px.instrumentName ∧
      (px.resolveUnsent p call m).stats = px.stats ∧ (px.resolveUnsent p call m).stopPoint = px.stopPoint := by
    rw [InstrumentWorkerProxy.resolveUnsent]
    split <;> exact ⟨rfl, rfl, rfl⟩
  have hpending : (m, p) ∈ px.pendingResponses →
      (px.resolveUnsent p call m).pendingResponses = SortedAssoc.erase m px.pendingResponses := by
    intro hmem
    have hfind : SortedAssoc.find? m (px.setCall p { call with point := .returned }).pendingResponses = some p :=
      SortedAssoc.find?_of_mem h.promises.sorted hmem
    rw [InstrumentWorkerProxy.resolveUnsent, hfind]
    rfl
  refine ⟨hpromises, hframe.1 ▸ h.name, h.calls_update hcalls ⟨(h.calls p call hcall).valid, by simp, by simp⟩,
    fun hrunning q m' hq hm' => ?_, fun hrunning => ?_⟩
  · rw [hframe.2.2] at hrunning
    rw [hpending (h.kept hrunning p m hunder hpid)]
    by_cases hqp : q = p
    · subst hqp
      simp [Underway, point_update hcalls] at hq
    · rw [messageId_update hcalls, if_neg hqp] at hm'
      have hne : m' ≠ m := fun heq => hqp (h.promises.distinct q p m (heq ▸ hm') hpid)
      exact List.mem_filter.mpr ⟨h.kept hrunning q m' (hq.of_other hcalls hqp) hm', by simpa using hne⟩
  · rw [hframe.2.2] at hrunning
    have hmem := h.kept hrunning p m hunder hpid
    have hother : ∀ q, q ≠ p → (px.resolveUnsent p call m).departed q = px.departed q :=
      fun q hq => by rw [departed_update hcalls, if_neg hq]
    have hbefore := departedEntries_eq h.promises hmem
    rw [departed_of_point hcall, hpoint, ← total_departed_erase h.promises hmem hother, ← hpending hmem] at hbefore
    have hbalance := h.balance hrunning
    simp only [reduceCtorEq, decide_false, Bool.or_false, Bool.toNat_false, Nat.zero_add] at hbefore
    rw [hframe.2.1, hbalance, hbefore, departedEntries]

theorem waitTimeout (h : Balance N px) {p : PromiseId} (hnext : px.waitTimeout p = some px') : Balance N px' := by
  have hpromises := h.promises.waitTimeout hnext
  rw [InstrumentWorkerProxy.waitTimeout] at hnext
  split at hnext
  · rename_i cmd m hcall _
    obtain rfl := Option.some.inj hnext
    have hcalls : ({ px.setCall p ⟨cmd, m, .timedOut⟩ with
        stats := { px.stats with commandsTimeout := px.stats.commandsTimeout + 1 } } : InstrumentWorkerProxy).calls =
          Function.update px.calls p (some ⟨cmd, m, .timedOut⟩) := rfl
    refine h.setCall hpromises hcalls ⟨(h.calls p _ hcall).valid, by simp, by simp⟩ (fun hunder => ?_)
      (by simp [departed_of_point hcall]) rfl rfl rfl rfl rfl rfl
    rw [Underway, point_update hcalls, if_pos rfl] at hunder
    simp at hunder
  · contradiction

/-- The response of a call that is over is handled. -/
theorem receive (h : Balance N px) {msg : IpcMessage}
    (hanswers : msg.type = .response → ∃ p, px.messageId p = some msg.id ∧ px.departed p = true)
    (hnext : px.receive N msg = some px') : Balance N px' := by
  rw [InstrumentWorkerProxy.receive] at hnext
  split at hnext
  · rename_i htype
    obtain ⟨q, hq, hdeparted⟩ := hanswers htype
    rw [Except.toOption_eq_some_iff, handleResponseMessage] at hnext
    cases hdecode : deserializeResponse N msg.payload with
    | error e => simp [hdecode, bind, Except.bind] at hnext
    | ok resp =>
        simp only [hdecode, bind, Except.bind] at hnext
        cases hfind : SortedAssoc.find? msg.id px.pendingResponses with
        | none =>
            rw [hfind] at hnext
            exact Except.ok.inj hnext ▸ h
        | some p =>
            have hmem := SortedAssoc.mem_of_find? hfind
            obtain rfl := h.promises.distinct p q msg.id (h.promises.owner _ _ hmem).1 hq
            have hanswered : PromiseInv N ((px.setValue p (.response msg) resp).erasePending msg.id) := by
              apply h.promises.fulfil hmem
              rintro msg' ⟨⟩
              exact ⟨htype, rfl, hdecode⟩
            have hover : ¬ px.Underway p := by
              rintro (hpoint | ⟨msg', hpoint⟩ | hpoint) <;> simp [departed, hpoint] at hdeparted
            rw [hfind] at hnext
            dsimp only at hnext
            split at hnext
            all_goals
              rw [← Except.ok.inj hnext]
              apply h.fulfil hmem hanswered hover
              rw [hdeparted]
              simp only [erasePending, setValue, Bool.toNat_true]
              omega
  · obtain rfl := Option.some.inj hnext
    exact h

/-- Once `stop` has begun, nothing is said of the counters. -/
theorem of_stopping (h : Balance N px) (hpromises : PromiseInv N px') (hname : px'.instrumentName = px.instrumentName)
    (hcalls : px'.calls = px.calls) (hstop : px'.stopPoint ≠ .running) : Balance N px' where
  promises := hpromises
  name := hname ▸ h.name
  calls p call hcall := h.calls p call (hcalls ▸ hcall)
  kept hrunning := absurd hrunning hstop
  balance hrunning := absurd hrunning hstop

theorem stopStep (h : Balance N px) (hnext : px.stopStep = some px') : Balance N px' := by
  have hpromises := h.promises.stopStep hnext
  rcases stopStep_moves hnext with ⟨-, rfl⟩ | ⟨-, rfl⟩ | ⟨-, rfl⟩
  · exact h.of_stopping hpromises rfl rfl (by simp)
  · obtain ⟨hcalls, hname⟩ := calls_cleanupPendingPromises px
    exact h.of_stopping hpromises hname hcalls (by simp)
  · exact h.of_stopping hpromises rfl rfl (by simp)

theorem advance (h : Balance N px) {p : PromiseId} {sent : Bool} {msgs : List IpcMessage}
    (hnext : px.advance N p sent = some (px', msgs)) : Balance N px' := by
  have hpromises := h.promises.advance hnext
  rw [InstrumentWorkerProxy.advance] at hnext
  split at hnext
  · contradiction
  · rename_i call hcall
    split at hnext
    · rename_i hpoint
      obtain ⟨rfl, -⟩ := Prod.mk.inj (Option.some.inj hnext)
      exact h.drawMessageId hcall hpoint
    · rename_i hpoint hm
      obtain ⟨rfl, -⟩ := Prod.mk.inj (Option.some.inj hnext)
      exact h.storePromise hcall hpoint hm
    · rename_i hpoint hm
      obtain ⟨rfl, -⟩ := Prod.mk.inj (Option.some.inj hnext)
      exact h.encode hcall hpoint hm
    · rename_i msg hpoint
      split at hnext
      · contradiction
      · split at hnext
        · obtain ⟨rfl, -⟩ := Prod.mk.inj (Option.some.inj hnext)
          exact h.send hcall hpoint
        · obtain ⟨rfl, -⟩ := Prod.mk.inj (Option.some.inj hnext)
          refine h.setCall hpromises rfl ⟨(h.calls p call hcall).valid, by simp, by simp⟩ (fun _ => ⟨?_, ?_⟩)
            (by simp [departed_of_point hcall, hpoint]) rfl rfl rfl rfl rfl rfl
          · exact Or.inr (Or.inl ⟨msg, by simp [point, hcall, hpoint]⟩)
          · simp [messageId, hcall]
    · rename_i hpoint hm
      obtain ⟨rfl, -⟩ := Prod.mk.inj (Option.some.inj hnext)
      exact h.resolveUnsent hcall hpoint hm
    · contradiction

theorem step (h : Balance N px) {label : ProxyLabel} (hanswers : px.Answers label)
    (hnext : px.step N label = some px') : Balance N px' := by
  cases label with
  | execute cmd =>
      obtain rfl := Option.some.inj hnext
      exact h.create hanswers
  | advance p sent =>
      obtain ⟨⟨px'', msgs⟩, hadvance, rfl⟩ := Option.map_eq_some_iff.mp hnext
      exact h.advance hadvance
  | waitTimeout p => exact h.waitTimeout hnext
  | receive msg => exact h.receive hanswers hnext
  | stop => exact h.stopStep hnext

theorem init (N : JsonLibrary) {instrumentName : ByteString} (hname : ByteString.ValidUtf8 instrumentName) :
    Balance N ({ instrumentName } : InstrumentWorkerProxy) where
  promises := PromiseInv.init N instrumentName
  name := hname
  calls _ _ hcall := by simp at hcall
  kept _ _ _ _ hid := by simp [messageId] at hid
  balance _ := rfl

theorem of_reachable {instrumentName : ByteString} (hname : ByteString.ValidUtf8 instrumentName)
    (hreach : ReachableWhile (system N instrumentName) Answers px) : Balance N px :=
  hreach.invariant (init N hname) fun _ _ _ hinv hanswers hnext => hinv.step hanswers hnext

end Balance

/-! ### Calls that are over -/

/-- A step of a call changes this call, which is not over. -/
theorem calls_advance {p : PromiseId} {call : ExecuteCall} {msgs : List IpcMessage} (h : Advance N px p call px' msgs) :
    (∃ call', px'.calls = Function.update px.calls p (some call')) ∧ call.point ≠ .returned ∧ call.point ≠ .timedOut := by
  cases h with
  | draw hpoint => exact ⟨⟨_, rfl⟩, by simp [hpoint]⟩
  | store hpoint hm => exact ⟨⟨_, rfl⟩, by simp [hpoint]⟩
  | encode hpoint hm =>
      refine ⟨?_, by simp [hpoint]⟩
      rw [encode]
      split <;> exact ⟨_, rfl⟩
  | send stats hpoint => exact ⟨⟨_, rfl⟩, by simp [hpoint]⟩
  | fail hpoint => exact ⟨⟨_, rfl⟩, by simp [hpoint]⟩
  | resolve hpoint hm =>
      refine ⟨?_, by simp [hpoint]⟩
      rw [resolveUnsent]
      split <;> exact ⟨_, rfl⟩

theorem exists_call_of_departed {p : PromiseId} (hdeparted : px.departed p = true) :
    ∃ call, px.calls p = some call ∧ (call.point = .returned ∨ call.point = .timedOut) := by
  cases hcall : px.calls p with
  | none => simp [departed, point, hcall] at hdeparted
  | some call => exact ⟨call, rfl, by simpa [departed_of_point hcall] using hdeparted⟩

/-- A call that is over stays over, under its id. -/
theorem departed_step {label : ProxyLabel} (h : PromiseInv N px) (hnext : px.step N label = some px') {p : PromiseId}
    {m : Nat} (hid : px.messageId p = some m) (hdeparted : px.departed p = true) :
    px'.messageId p = some m ∧ px'.departed p = true := by
  obtain ⟨call, hcall, hpoint⟩ := exists_call_of_departed hdeparted
  have hother : ∀ q call', px'.calls = Function.update px.calls q (some call') → p ≠ q →
      px'.messageId p = some m ∧ px'.departed p = true := by
    intro q call' hcalls hne
    rw [messageId_update hcalls, departed_update hcalls, if_neg hne, if_neg hne]
    exact ⟨hid, hdeparted⟩
  have hframe : px'.calls = px.calls → px'.messageId p = some m ∧ px'.departed p = true := by
    intro hcalls
    rw [messageId, departed, point, hcalls]
    exact ⟨hid, hdeparted⟩
  cases label with
  | execute cmd =>
      obtain rfl := Option.some.inj hnext
      exact hother px.promises _ rfl (h.lt_promises hcall).ne
  | advance q sent =>
      obtain ⟨⟨px'', msgs⟩, hadvance, rfl⟩ := Option.map_eq_some_iff.mp hnext
      obtain ⟨other, hq, hstep⟩ := advance_cases hadvance
      obtain ⟨⟨call', hcalls⟩, hreturned, htimedOut⟩ := calls_advance hstep
      refine hother q call' hcalls ?_
      rintro rfl
      obtain rfl := Option.some.inj (hcall.symm.trans hq)
      exact hpoint.elim hreturned htimedOut
  | waitTimeout q =>
      obtain ⟨timed, stats, hq, -, rfl⟩ := waitTimeout_cases hnext
      by_cases hpq : p = q
      · subst hpq
        have hsame : timed.msgId = some m := by simpa [messageId, hq] using hid
        simp [messageId, departed, point, setCall, hsame]
      · exact hother q _ rfl hpq
  | receive msg =>
      apply hframe
      rcases receive_moves hnext with ⟨resp, q, stats, -, -, -, rfl⟩ | ⟨-, rfl⟩
      · rfl
      · rfl
  | stop =>
      apply hframe
      rcases stopStep_moves hnext with ⟨-, rfl⟩ | ⟨-, rfl⟩ | ⟨-, rfl⟩
      · rfl
      · exact (calls_cleanupPendingPromises px).1
      · rfl

end InstrumentWorkerProxy

end InstrumentServer
