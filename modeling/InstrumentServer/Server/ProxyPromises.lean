import InstrumentServer.Server.InstrumentWorkerProxy
import InstrumentServer.Lib.Json.Text

/-!
# Every future gets its own response once

The invariant ties the three places that know a promise together: the calls of `execute`, `pending_responses_` and the values already given. A pending promise has no value and sits under the id its own call drew; ids are drawn once. Every way to give a value (a response, a failed send, `stop`) goes through the pending entry and removes it, so `fulfil` is the one step that needs an argument.
-/

namespace InstrumentServer

open Ipc Transition

namespace InstrumentWorkerProxy

/-- The message id the call behind a promise drew. -/
def messageId (px : InstrumentWorkerProxy) (p : PromiseId) : Option Nat := (px.calls p).bind ExecuteCall.msgId

def point (px : InstrumentWorkerProxy) (p : PromiseId) : Option ExecutePoint := (px.calls p).map ExecuteCall.point

/-- The promise was given a value. -/
def Fulfilled (px : InstrumentWorkerProxy) (p : PromiseId) : Prop := ∃ f ∈ px.fulfilments, f.promise = p

/-- The call has not yet put its promise into `pending_responses_`. -/
def Early (px : InstrumentWorkerProxy) (p : PromiseId) : Prop :=
  px.point p = none ∨ px.point p = some .created ∨ px.point p = some .numbered

structure PromiseInv (N : JsonLibrary) (px : InstrumentWorkerProxy) : Prop where
  fresh : ∀ p, px.promises ≤ p → px.calls p = none
  undrawn : ∀ p, px.point p = some .created → px.messageId p = none
  below : ∀ p m, px.messageId p = some m → m < px.nextMessageId
  distinct : ∀ p q m, px.messageId p = some m → px.messageId q = some m → p = q
  sorted : SortedAssoc.Sorted px.pendingResponses
  owner : ∀ m p, (m, p) ∈ px.pendingResponses → px.messageId p = some m ∧ ¬ px.Early p ∧ ¬ px.Fulfilled p
  early : ∀ p, px.Early p → ¬ px.Fulfilled p
  once : (px.fulfilments.map Fulfilment.promise).Nodup
  own : ∀ f ∈ px.fulfilments, ∀ msg, f.source = .response msg →
    msg.type = .response ∧ px.messageId f.promise = some msg.id ∧ deserializeResponse N msg.payload = .ok f.value
  values : ∀ p resp, px.values p = some resp ↔ ∃ f ∈ px.fulfilments, f.promise = p ∧ f.value = resp

variable {N : JsonLibrary} {px : InstrumentWorkerProxy}

/-! ### Changing one call -/

theorem messageId_update {px px' : InstrumentWorkerProxy} {p : PromiseId} {call : ExecuteCall}
    (hcalls : px'.calls = Function.update px.calls p (some call)) (q : PromiseId) :
    px'.messageId q = if q = p then call.msgId else px.messageId q := by
  rw [messageId, hcalls]
  by_cases hq : q = p
  · subst hq
    simp
  · rw [Function.update_of_ne hq, if_neg hq, messageId]

theorem point_update {px px' : InstrumentWorkerProxy} {p : PromiseId} {call : ExecuteCall}
    (hcalls : px'.calls = Function.update px.calls p (some call)) (q : PromiseId) :
    px'.point q = if q = p then some call.point else px.point q := by
  rw [point, hcalls]
  by_cases hq : q = p
  · subst hq
    simp
  · rw [Function.update_of_ne hq, if_neg hq, point]

theorem fulfilled_setValue (px : InstrumentWorkerProxy) (p : PromiseId) (source : FulfilmentSource)
    (resp : CommandResponse) (q : PromiseId) :
    (px.setValue p source resp).Fulfilled q ↔ px.Fulfilled q ∨ q = p := by
  change (∃ f ∈ px.fulfilments ++ [⟨p, source, resp⟩], f.promise = q) ↔ px.Fulfilled q ∨ q = p
  simp only [List.mem_append, List.mem_singleton, or_and_right, exists_or, exists_eq_left, Fulfilled, eq_comm (b := q)]

/-- A handled response: decoded, and either given to the promise stored under its id or dropped. -/
theorem handleResponseMessage_cases {px' : InstrumentWorkerProxy} {msg : IpcMessage}
    (hnext : px.handleResponseMessage N msg = .ok px') :
    ∃ resp, deserializeResponse N msg.payload = .ok resp ∧
      ((∃ p stats, SortedAssoc.find? msg.id px.pendingResponses = some p ∧
          px' = { (px.setValue p (.response msg) resp).erasePending msg.id with stats }) ∨
        (SortedAssoc.find? msg.id px.pendingResponses = none ∧ px' = px)) := by
  rw [handleResponseMessage] at hnext
  cases hdecode : deserializeResponse N msg.payload with
  | error e => simp [hdecode, bind, Except.bind] at hnext
  | ok resp =>
      refine ⟨resp, rfl, ?_⟩
      simp only [hdecode, bind, Except.bind] at hnext
      cases hfind : SortedAssoc.find? msg.id px.pendingResponses with
      | none =>
          rw [hfind] at hnext
          exact Or.inr ⟨rfl, (Except.ok.inj hnext).symm⟩
      | some p =>
          rw [hfind] at hnext
          refine Or.inl ⟨p, px'.stats, rfl, ?_⟩
          dsimp only at hnext
          split at hnext <;> rw [← Except.ok.inj hnext]

/-- A handled message: a response given to the promise stored under its id, or nothing that touches the proxy. -/
theorem receive_moves {px' : InstrumentWorkerProxy} {msg : IpcMessage} (hnext : px.receive N msg = some px') :
    (∃ resp p stats, msg.type = .response ∧ deserializeResponse N msg.payload = .ok resp ∧
        SortedAssoc.find? msg.id px.pendingResponses = some p ∧
        px' = { (px.setValue p (.response msg) resp).erasePending msg.id with stats }) ∨
      ((msg.type = .response → SortedAssoc.find? msg.id px.pendingResponses = none) ∧ px' = px) := by
  rw [receive] at hnext
  split at hnext
  · rename_i htype
    obtain ⟨resp, hdecode, ⟨p, stats, hfind, rfl⟩ | ⟨hnone, rfl⟩⟩ :=
      handleResponseMessage_cases (Except.toOption_eq_some_iff.mp hnext)
    · exact Or.inl ⟨resp, p, stats, htype, hdecode, hfind, rfl⟩
    · exact Or.inr ⟨fun _ => hnone, rfl⟩
  · rename_i htype
    exact Or.inr ⟨fun hresponse => absurd hresponse htype, (Option.some.inj hnext).symm⟩

theorem waitTimeout_cases {px' : InstrumentWorkerProxy} {p : PromiseId} (hnext : px.waitTimeout p = some px') :
    ∃ call stats, px.calls p = some call ∧ call.point = .returned ∧
      px' = { px.setCall p { call with point := .timedOut } with stats } := by
  rw [waitTimeout] at hnext
  split at hnext
  · rename_i cmd m hcall _
    exact ⟨_, _, hcall, rfl, (Option.some.inj hnext).symm⟩
  · contradiction

theorem stopStep_moves {px' : InstrumentWorkerProxy} (hnext : px.stopStep = some px') :
    (px.stopPoint = .running ∧ px' = { px with stopPoint := .stopping }) ∨
      (px.stopPoint = .stopping ∧ px' = { px.cleanupPendingPromises with stopPoint := .cleaned }) ∨
      (px.stopPoint = .cleaned ∧ px' = { px with stopPoint := .stopped }) := by
  rw [stopStep] at hnext
  split at hnext
  · rename_i hpoint
    exact Or.inl ⟨hpoint, (Option.some.inj hnext).symm⟩
  · rename_i hpoint
    exact Or.inr (Or.inl ⟨hpoint, (Option.some.inj hnext).symm⟩)
  · rename_i hpoint
    exact Or.inr (Or.inr ⟨hpoint, (Option.some.inj hnext).symm⟩)
  · contradiction

/-- The steps of a call of `execute`, one constructor for each. -/
inductive Advance (N : JsonLibrary) (px : InstrumentWorkerProxy) (p : PromiseId) (call : ExecuteCall) :
    InstrumentWorkerProxy → List IpcMessage → Prop where
  | draw (hpoint : call.point = .created) : Advance N px p call (px.drawMessageId p call.cmd) []
  | store {m : Nat} (hpoint : call.point = .numbered) (hm : call.msgId = some m) :
      Advance N px p call (px.storePromise p call m) []
  | encode {m : Nat} (hpoint : call.point = .stored) (hm : call.msgId = some m) :
      Advance N px p call (px.encode N p call m) []
  | send {msg : IpcMessage} (stats : ProxyStats) (hpoint : call.point = .encoded msg) :
      Advance N px p call { px.setCall p { call with point := .returned } with stats } [msg]
  | fail {msg : IpcMessage} (hpoint : call.point = .encoded msg) :
      Advance N px p call (px.setCall p { call with point := .unsent }) []
  | resolve {m : Nat} (hpoint : call.point = .unsent) (hm : call.msgId = some m) :
      Advance N px p call (px.resolveUnsent p call m) []

theorem advance_cases {px' : InstrumentWorkerProxy} {p : PromiseId} {sent : Bool} {msgs : List IpcMessage}
    (hnext : px.advance N p sent = some (px', msgs)) : ∃ call, px.calls p = some call ∧ Advance N px p call px' msgs := by
  rw [InstrumentWorkerProxy.advance] at hnext
  split at hnext
  · simp at hnext
  · rename_i call hcall
    refine ⟨call, hcall, ?_⟩
    split at hnext
    · rename_i hpoint
      obtain ⟨rfl, rfl⟩ := Prod.mk.inj (Option.some.inj hnext)
      exact .draw hpoint
    · rename_i m hpoint hm
      obtain ⟨rfl, rfl⟩ := Prod.mk.inj (Option.some.inj hnext)
      exact .store hpoint hm
    · rename_i m hpoint hm
      obtain ⟨rfl, rfl⟩ := Prod.mk.inj (Option.some.inj hnext)
      exact .encode hpoint hm
    · rename_i msg hpoint
      split at hnext
      · simp at hnext
      · split at hnext
        · obtain ⟨rfl, rfl⟩ := Prod.mk.inj (Option.some.inj hnext)
          exact .send _ hpoint
        · obtain ⟨rfl, rfl⟩ := Prod.mk.inj (Option.some.inj hnext)
          exact .fail hpoint
    · rename_i m hpoint hm
      obtain ⟨rfl, rfl⟩ := Prod.mk.inj (Option.some.inj hnext)
      exact .resolve hpoint hm
    · simp at hnext

/-- `set_value` does not look at the pending entries. -/
theorem foldl_setValue_pending (entries pending : List (Nat × PromiseId)) (px : InstrumentWorkerProxy) :
    entries.foldl (fun px entry => px.setValue entry.2 .stopped px.stoppedResponse)
        { px with pendingResponses := pending } =
      { entries.foldl (fun px entry => px.setValue entry.2 .stopped px.stoppedResponse) px with
        pendingResponses := pending } :=
  List.foldl_hom (fun px : InstrumentWorkerProxy => { px with pendingResponses := pending }) fun _ _ => rfl

/-- What `set_value` leaves alone, the loop over the pending entries leaves alone. -/
theorem foldl_setValue_frame {α : Type*} {f : InstrumentWorkerProxy → α}
    (hf : ∀ px p source resp, f (setValue px p source resp) = f px) (entries : List (Nat × PromiseId))
    (px : InstrumentWorkerProxy) :
    f (entries.foldl (fun px entry => px.setValue entry.2 .stopped px.stoppedResponse) px) = f px :=
  List.foldlRecOn entries _ (motive := fun after => f after = f px) rfl
    fun after hafter entry _ => (hf after entry.2 _ _).trans hafter

theorem calls_cleanupPendingPromises (px : InstrumentWorkerProxy) :
    px.cleanupPendingPromises.calls = px.calls ∧ px.cleanupPendingPromises.instrumentName = px.instrumentName := by
  constructor
  · exact foldl_setValue_frame (f := InstrumentWorkerProxy.calls) (fun _ _ _ _ => rfl) px.pendingResponses px
  · exact foldl_setValue_frame (f := InstrumentWorkerProxy.instrumentName) (fun _ _ _ _ => rfl) px.pendingResponses px

namespace PromiseInv

theorem init (N : JsonLibrary) (instrumentName : ByteString) :
    PromiseInv N ({ instrumentName } : InstrumentWorkerProxy) where
  fresh _ _ := rfl
  undrawn _ h := by simp [point] at h
  below _ _ h := by simp [messageId] at h
  distinct _ _ _ h := by simp [messageId] at h
  sorted := List.Pairwise.nil
  owner _ _ h := by simp at h
  early _ _ h := by simp [Fulfilled] at h
  once := List.nodup_nil
  own _ h := by simp at h
  values _ _ := by simp

theorem fresh_point (h : PromiseInv N px) : px.point px.promises = none := by
  rw [point, h.fresh _ le_rfl]
  rfl

theorem values_eq_none (h : PromiseInv N px) {p : PromiseId} (hunfulfilled : ¬ px.Fulfilled p) :
    px.values p = none := by
  cases hvalue : px.values p with
  | none => rfl
  | some resp =>
      obtain ⟨f, hf, hfp, -⟩ := (h.values p resp).mp hvalue
      exact absurd ⟨f, hf, hfp⟩ hunfulfilled

/-- A call moves on without drawing an id and without crossing the point where its promise is stored. -/
theorem setCall (h : PromiseInv N px) {px' : InstrumentWorkerProxy} {p : PromiseId} {call : ExecuteCall}
    (hcalls : px'.calls = Function.update px.calls p (some call)) (hsame : call.msgId = px.messageId p)
    (hundrawn : call.point = .created → call.msgId = none)
    (hearly : px.Early p ↔ call.point = .created ∨ call.point = .numbered)
    (hpromises : p < px'.promises ∧ px.promises ≤ px'.promises) (hnext : px'.nextMessageId = px.nextMessageId)
    (hpending : px'.pendingResponses = px.pendingResponses) (hfulfilments : px'.fulfilments = px.fulfilments)
    (hvalues : px'.values = px.values) : PromiseInv N px' := by
  have hid : ∀ q, px'.messageId q = px.messageId q := by
    intro q
    rw [messageId_update hcalls]
    split
    · rename_i hq
      rw [hq, hsame]
    · rfl
  have hearly' : ∀ q, px'.Early q ↔ px.Early q := by
    intro q
    by_cases hq : q = p
    · rw [hq, hearly, Early, point_update hcalls, if_pos rfl]
      simp
    · rw [Early, Early, point_update hcalls, if_neg hq]
  have hfulfilled : ∀ q, px'.Fulfilled q ↔ px.Fulfilled q := by
    intro q
    rw [Fulfilled, Fulfilled, hfulfilments]
  refine ⟨fun q hq => ?_, fun q hq => ?_, fun q m hm => ?_, fun q r m hq hr => ?_, hpending ▸ h.sorted,
    fun m q hmem => ?_, fun q hq => ?_, hfulfilments ▸ h.once, fun f hf msg hmsg => ?_, fun q resp => ?_⟩
  · have hqp : q ≠ p := fun he => absurd hpromises.1 (not_lt.mpr (he ▸ hq))
    rw [hcalls, Function.update_of_ne hqp]
    exact h.fresh q (hpromises.2.trans hq)
  · rw [hid]
    rw [point_update hcalls] at hq
    split at hq
    · rename_i hqp
      rw [hqp, ← hsame]
      exact hundrawn (Option.some.inj hq)
    · exact h.undrawn q hq
  · rw [hnext]
    exact h.below q m (hid q ▸ hm)
  · exact h.distinct q r m (hid q ▸ hq) (hid r ▸ hr)
  · rw [hid, hearly', hfulfilled]
    exact h.owner m q (hpending ▸ hmem)
  · rw [hfulfilled]
    exact h.early q ((hearly' q).mp hq)
  · rw [hid]
    exact h.own f (hfulfilments ▸ hf) msg hmsg
  · rw [hvalues, hfulfilments]
    exact h.values q resp

theorem create (h : PromiseInv N px) (cmd : SerializedCommand) : PromiseInv N (px.create cmd) := by
  have hfresh := h.fresh px.promises le_rfl
  refine h.setCall rfl ?_ (fun _ => rfl) (iff_of_true (Or.inl h.fresh_point) (Or.inl rfl))
    ⟨Nat.lt_succ_self _, Nat.le_succ _⟩ rfl rfl rfl rfl
  simp [messageId, hfresh]

/-- A call past the store moves to another point past it. -/
theorem move (h : PromiseInv N px) (next : ExecutePoint) {px' : InstrumentWorkerProxy} {p : PromiseId}
    {call : ExecuteCall} (hcall : px.calls p = some call) (hlate : call.point ≠ .created ∧ call.point ≠ .numbered)
    (hnext : next ≠ .created ∧ next ≠ .numbered)
    (hpx' : px' = { px.setCall p { call with point := next } with stats := px'.stats }) : PromiseInv N px' := by
  have hp : p < px.promises := by
    by_contra hp
    simp [h.fresh p (not_lt.mp hp)] at hcall
  rw [hpx']
  refine h.setCall rfl (by simp [messageId, hcall]) (fun hcreated => absurd hcreated hnext.1) ?_
    ⟨hp, le_rfl⟩ rfl rfl rfl rfl
  refine iff_of_false ?_ (by simpa using hnext)
  simpa [Early, point, hcall] using hlate

theorem lt_promises (h : PromiseInv N px) {p : PromiseId} {call : ExecuteCall} (hcall : px.calls p = some call) :
    p < px.promises := by
  by_contra hp
  simp [h.fresh p (not_lt.mp hp)] at hcall

theorem drawMessageId (h : PromiseInv N px) {p : PromiseId} {call : ExecuteCall} (hcall : px.calls p = some call)
    (hpoint : call.point = .created) : PromiseInv N (px.drawMessageId p call.cmd) := by
  have hcalls : (px.drawMessageId p call.cmd).calls = Function.update px.calls p
      (some ⟨{ call.cmd with id := px.commandId px.nextMessageId }, some px.nextMessageId, .numbered⟩) := rfl
  have hid := messageId_update hcalls
  have hcreated : px.point p = some .created := by simp [point, hcall, hpoint]
  have hnone : px.messageId p = none := h.undrawn p hcreated
  have hearly : ∀ q, (px.drawMessageId p call.cmd).Early q ↔ px.Early q := by
    intro q
    rw [Early, Early, point_update hcalls]
    by_cases hq : q = p
    · subst hq
      simp [hcreated]
    · rw [if_neg hq]
  -- a drawn id stays, and the new one is larger than all of them
  have hkeep : ∀ q m, px.messageId q = some m → (px.drawMessageId p call.cmd).messageId q = some m := by
    intro q m hq
    rw [hid, if_neg, hq]
    rintro rfl
    simp [hnone] at hq
  have hback : ∀ q m, (px.drawMessageId p call.cmd).messageId q = some m →
      (q = p ∧ m = px.nextMessageId) ∨ (px.messageId q = some m ∧ m < px.nextMessageId) := by
    intro q m hq
    rw [hid] at hq
    split at hq
    · rename_i hqp
      exact Or.inl ⟨hqp, (Option.some.inj hq).symm⟩
    · exact Or.inr ⟨hq, h.below q m hq⟩
  refine ⟨fun q hq => ?_, fun q hq => ?_, fun q m hm => ?_, fun q r m hq hr => ?_, h.sorted, fun m q hmem => ?_,
    fun q hq => h.early q ((hearly q).mp hq), h.once, fun f hf msg hmsg => ?_, h.values⟩
  · have hqp : q ≠ p := fun he => absurd (h.lt_promises hcall) (not_lt.mpr (he ▸ hq))
    rw [hcalls, Function.update_of_ne hqp]
    exact h.fresh q hq
  · rw [point_update hcalls] at hq
    split at hq
    · simp at hq
    · rename_i hqp
      rw [hid, if_neg hqp]
      exact h.undrawn q hq
  · rcases hback q m hm with ⟨-, rfl⟩ | ⟨-, hlt⟩
    · exact Nat.lt_succ_self _
    · exact Nat.lt_succ_of_lt hlt
  · rcases hback q m hq with ⟨hqp, hm⟩ | ⟨hq', hlt⟩ <;> rcases hback r m hr with ⟨hrp, hm'⟩ | ⟨hr', hlt'⟩
    · rw [hqp, hrp]
    · omega
    · omega
    · exact h.distinct q r m hq' hr'
  · obtain ⟨howner, hlate, hunfulfilled⟩ := h.owner m q hmem
    exact ⟨hkeep q m howner, fun he => hlate ((hearly q).mp he), hunfulfilled⟩
  · obtain ⟨htype, howner, hdecode⟩ := h.own f hf msg hmsg
    exact ⟨htype, hkeep _ _ howner, hdecode⟩

theorem storePromise (h : PromiseInv N px) {p : PromiseId} {call : ExecuteCall} {m : Nat}
    (hcall : px.calls p = some call) (hpoint : call.point = .numbered) (hm : call.msgId = some m) :
    PromiseInv N (px.storePromise p call m) := by
  have hcalls : (px.storePromise p call m).calls =
      Function.update px.calls p (some { call with point := .stored }) := rfl
  have hid : ∀ q, (px.storePromise p call m).messageId q = px.messageId q := by
    intro q
    rw [messageId_update hcalls]
    split
    · rename_i hq
      rw [hq, messageId, hcall]
      rfl
    · rfl
  have hnumbered : px.point p = some .numbered := by simp [point, hcall, hpoint]
  have hpid : px.messageId p = some m := by simp [messageId, hcall, hm]
  have hstored : ¬ (px.storePromise p call m).Early p := by simp [Early, point_update hcalls]
  have hearly : ∀ q, (px.storePromise p call m).Early q → px.Early q := by
    intro q hq
    rw [Early, point_update hcalls] at hq
    split at hq
    · simp at hq
    · exact hq
  refine ⟨fun q hq => ?_, fun q hq => ?_, fun q m' hm' => h.below q m' (hid q ▸ hm'),
    fun q r m' hq hr => h.distinct q r m' (hid q ▸ hq) (hid r ▸ hr), SortedAssoc.sorted_insert h.sorted m p,
    fun m' q hmem => ?_, fun q hq => h.early q (hearly q hq), h.once, fun f hf msg hmsg => ?_, h.values⟩
  · have hqp : q ≠ p := fun he => absurd (h.lt_promises hcall) (not_lt.mpr (he ▸ hq))
    rw [hcalls, Function.update_of_ne hqp]
    exact h.fresh q hq
  · rw [hid]
    rw [point_update hcalls] at hq
    split at hq
    · simp at hq
    · exact h.undrawn q hq
  · rw [hid]
    rcases SortedAssoc.mem_insert hmem with hnew | hold
    · obtain ⟨rfl, rfl⟩ := Prod.mk.inj hnew
      exact ⟨hpid, hstored, h.early q (Or.inr (Or.inr hnumbered))⟩
    · obtain ⟨howner, hlate, hunfulfilled⟩ := h.owner m' q hold
      exact ⟨howner, fun he => hlate (hearly q he), hunfulfilled⟩
  · rw [hid]
    exact h.own f hf msg hmsg

/-- Giving a pending promise its value and removing its entry, whoever does it. -/
theorem fulfil (h : PromiseInv N px) {m : Nat} {p : PromiseId} (hmem : (m, p) ∈ px.pendingResponses)
    {source : FulfilmentSource} {resp : CommandResponse}
    (hsource : ∀ msg, source = .response msg →
      msg.type = .response ∧ msg.id = m ∧ deserializeResponse N msg.payload = .ok resp) :
    PromiseInv N ((px.setValue p source resp).erasePending m) := by
  obtain ⟨howner, hlate, hunfulfilled⟩ := h.owner m p hmem
  have hnone : px.values p = none := h.values_eq_none hunfulfilled
  have hnew : ∀ f ∈ px.fulfilments, f.promise ≠ p := fun f hf hfp => hunfulfilled ⟨f, hf, hfp⟩
  have hfulfilled : ∀ q, ((px.setValue p source resp).erasePending m).Fulfilled q ↔ px.Fulfilled q ∨ q = p :=
    fulfilled_setValue px p source resp
  refine ⟨h.fresh, h.undrawn, h.below, h.distinct, h.sorted.filter _, fun m' q hmem' => ?_, fun q hq => ?_, ?_,
    fun f hf msg hmsg => ?_, fun q resp' => ?_⟩
  · obtain ⟨hold, hne⟩ := List.mem_filter.mp hmem'
    obtain ⟨howner', hlate', hunfulfilled'⟩ := h.owner m' q hold
    refine ⟨howner', hlate', fun hf => ?_⟩
    rcases (hfulfilled q).mp hf with hf | rfl
    · exact hunfulfilled' hf
    · simp only [ne_eq, decide_not, Bool.not_eq_eq_eq_not, Bool.not_true, decide_eq_false_iff_not] at hne
      exact hne (Option.some.inj (howner'.symm.trans howner))
  · intro hf
    rcases (hfulfilled q).mp hf with hf | rfl
    · exact h.early q hq hf
    · exact hlate hq
  · change ((px.fulfilments ++ [(⟨p, source, resp⟩ : Fulfilment)]).map Fulfilment.promise).Nodup
    rw [List.map_append, List.nodup_append]
    refine ⟨h.once, by simp, fun q hq q' hq' => ?_⟩
    obtain ⟨f, hf, rfl⟩ := List.mem_map.mp hq
    obtain rfl : q' = p := by simpa using hq'
    exact hnew f hf
  · rcases List.mem_append.mp hf with hf | hf
    · exact h.own f hf msg hmsg
    · obtain rfl := List.mem_singleton.mp hf
      obtain ⟨htype, rfl, hdecode⟩ := hsource msg hmsg
      exact ⟨htype, howner, hdecode⟩
  · change (if (px.values p).isSome then px.values else Function.update px.values p (some resp)) q = some resp' ↔ _
    rw [if_neg (by simp [hnone])]
    by_cases hq : q = p
    · subst hq
      rw [Function.update_self]
      constructor
      · intro heq
        exact ⟨⟨q, source, resp⟩, by simp [setValue, erasePending], rfl, Option.some.inj heq⟩
      · rintro ⟨f, hf, hfp, rfl⟩
        rcases List.mem_append.mp hf with hf | hf
        · exact absurd hfp (hnew f hf)
        · rw [List.mem_singleton.mp hf]
    · rw [Function.update_of_ne hq, h.values]
      constructor
      · rintro ⟨f, hf, hfq, hvalue⟩
        exact ⟨f, List.mem_append_left _ hf, hfq, hvalue⟩
      · rintro ⟨f, hf, hfq, hvalue⟩
        rcases List.mem_append.mp hf with hf | hf
        · exact ⟨f, hf, hfq, hvalue⟩
        · rw [List.mem_singleton.mp hf] at hfq
          exact absurd hfq.symm hq

/-- Statistics and the progress of `stop` play no part. -/
theorem frame (h : PromiseInv N px) (stats : ProxyStats) (stopPoint : StopPoint) :
    PromiseInv N { px with stats, stopPoint } :=
  ⟨h.fresh, h.undrawn, h.below, h.distinct, h.sorted, h.owner, h.early, h.once, h.own, h.values⟩

theorem cleanupPendingPromises (h : PromiseInv N px) : PromiseInv N px.cleanupPendingPromises := by
  -- the loop gives the values one by one; removing each entry at once comes to the same
  have hloop : ∀ entries (px : InstrumentWorkerProxy), px.pendingResponses = entries → PromiseInv N px →
      PromiseInv N { entries.foldl (fun px entry => px.setValue entry.2 .stopped px.stoppedResponse) px with
        pendingResponses := [] } := by
    intro entries
    induction entries with
    | nil =>
        intro px hentries h
        have heq : px = { px with pendingResponses := [] } := by rw [← hentries]
        exact heq ▸ h
    | cons entry entries ih =>
        intro px hentries h
        obtain ⟨m, p⟩ := entry
        have hafter : ∀ entry ∈ entries, m < entry.1 := by
          have hsorted := h.sorted
          rw [hentries] at hsorted
          exact (List.pairwise_cons.mp hsorted).1
        have hrest : ((px.setValue p .stopped px.stoppedResponse).erasePending m).pendingResponses = entries := by
          change px.pendingResponses.filter (fun entry => entry.1 ≠ m) = entries
          rw [hentries, List.filter_cons_of_neg (by simp), List.filter_eq_self]
          intro entry hentry
          simpa using (hafter entry hentry).ne'
        have hstep := ih _ hrest (h.fulfil (hentries ▸ List.mem_cons_self) (by simp))
        rw [erasePending, foldl_setValue_pending] at hstep
        exact hstep
  exact hloop px.pendingResponses px rfl h

theorem encode (h : PromiseInv N px) {p : PromiseId} {call : ExecuteCall} (m : Nat) (hcall : px.calls p = some call)
    (hpoint : call.point = .stored) : PromiseInv N (px.encode N p call m) := by
  have hlate : call.point ≠ .created ∧ call.point ≠ .numbered := by simp [hpoint]
  rw [InstrumentWorkerProxy.encode]
  split
  · exact h.move (.encoded _) hcall hlate (by simp) rfl
  · exact h.move .raised hcall hlate (by simp) rfl

theorem resolveUnsent (h : PromiseInv N px) {p : PromiseId} {call : ExecuteCall} (m : Nat)
    (hcall : px.calls p = some call) (hpoint : call.point = .unsent) : PromiseInv N (px.resolveUnsent p call m) := by
  have hmoved : PromiseInv N (px.setCall p { call with point := .returned }) :=
    h.move .returned hcall (by simp [hpoint]) (by simp) rfl
  rw [InstrumentWorkerProxy.resolveUnsent]
  split
  · rename_i owner howner
    exact hmoved.fulfil (SortedAssoc.mem_of_find? howner) (by simp)
  · exact hmoved

theorem advance (h : PromiseInv N px) {px' : InstrumentWorkerProxy} {p : PromiseId} {sent : Bool}
    {msgs : List IpcMessage} (hnext : px.advance N p sent = some (px', msgs)) : PromiseInv N px' := by
  obtain ⟨call, hcall, hstep⟩ := advance_cases hnext
  cases hstep with
  | draw hpoint => exact h.drawMessageId hcall hpoint
  | store hpoint hm => exact h.storePromise hcall hpoint hm
  | encode hpoint hm => exact h.encode _ hcall hpoint
  | send stats hpoint => exact h.move .returned hcall (by simp [hpoint]) (by simp) rfl
  | fail hpoint => exact h.move .unsent hcall (by simp [hpoint]) (by simp) rfl
  | resolve hpoint hm => exact h.resolveUnsent _ hcall hpoint

theorem waitTimeout (h : PromiseInv N px) {px' : InstrumentWorkerProxy} {p : PromiseId}
    (hnext : px.waitTimeout p = some px') : PromiseInv N px' := by
  obtain ⟨call, stats, hcall, hpoint, rfl⟩ := waitTimeout_cases hnext
  exact h.move .timedOut hcall (by simp [hpoint]) (by simp) rfl

theorem receive (h : PromiseInv N px) {px' : InstrumentWorkerProxy} {msg : IpcMessage}
    (hnext : px.receive N msg = some px') : PromiseInv N px' := by
  rcases receive_moves hnext with ⟨resp, p, stats, htype, hdecode, hfind, rfl⟩ | ⟨-, rfl⟩
  · refine (h.fulfil (SortedAssoc.mem_of_find? hfind) ?_).frame stats _
    rintro msg' ⟨⟩
    exact ⟨htype, rfl, hdecode⟩
  · exact h

theorem stopStep (h : PromiseInv N px) {px' : InstrumentWorkerProxy} (hnext : px.stopStep = some px') :
    PromiseInv N px' := by
  rcases stopStep_moves hnext with ⟨-, rfl⟩ | ⟨-, rfl⟩ | ⟨-, rfl⟩
  · exact h.frame _ _
  · exact h.cleanupPendingPromises.frame _ _
  · exact h.frame _ _

theorem step (h : PromiseInv N px) {px' : InstrumentWorkerProxy} {label : ProxyLabel}
    (hnext : px.step N label = some px') : PromiseInv N px' := by
  cases label with
  | execute cmd =>
      obtain rfl := Option.some.inj hnext
      exact h.create cmd
  | advance p sent =>
      obtain ⟨⟨px'', msgs⟩, hadvance, rfl⟩ := Option.map_eq_some_iff.mp hnext
      exact h.advance hadvance
  | waitTimeout p => exact h.waitTimeout hnext
  | receive msg => exact h.receive hnext
  | stop => exact h.stopStep hnext

theorem of_reachable {instrumentName : ByteString} (hreach : Reachable (system N instrumentName) px) :
    PromiseInv N px :=
  hreach.invariant (PromiseInv.init N instrumentName) fun _ _ _ hinv hnext => hinv.step hnext

end PromiseInv

/-- What the futures of one proxy may rely on in one state. -/
structure DeliversOnce (N : JsonLibrary) (px : InstrumentWorkerProxy) : Prop where
  /-- no promise is given a value twice -/
  once : (px.fulfilments.map Fulfilment.promise).Nodup
  /-- a value that came from the worker came in a response with the id that this very call drew -/
  own : ∀ f ∈ px.fulfilments, ∀ msg, f.source = .response msg →
    msg.type = .response ∧ px.messageId f.promise = some msg.id ∧ deserializeResponse N msg.payload = .ok f.value
  /-- a response to a call that timed out goes to no other call -/
  late : ∀ p, px.point p = some .timedOut → ∀ f ∈ px.fulfilments, ∀ msg, f.source = .response msg →
    px.messageId p = some msg.id → f.promise = p
  pending : ∀ m p, (m, p) ∈ px.pendingResponses → px.values p = none ∧ ¬ px.Fulfilled p
  /-- what a future returns is what its promise was given -/
  values : ∀ p resp, px.values p = some resp ↔ ∃ f ∈ px.fulfilments, f.promise = p ∧ f.value = resp

end InstrumentWorkerProxy

open InstrumentWorkerProxy

/-- In every interleaving of the threads of a proxy, every future gets its own response once. -/
theorem proxy_delivers_once {N : JsonLibrary} {instrumentName : ByteString} {px : InstrumentWorkerProxy}
    (hreach : Reachable (system N instrumentName) px) : DeliversOnce N px := by
  have h := PromiseInv.of_reachable hreach
  refine ⟨h.once, h.own, fun p _ f hf msg hmsg hp => ?_, fun m p hmem => ?_, h.values⟩
  · exact h.distinct f.promise p msg.id (h.own f hf msg hmsg).2.1 hp
  · obtain ⟨-, -, hunfulfilled⟩ := h.owner m p hmem
    exact ⟨h.values_eq_none hunfulfilled, hunfulfilled⟩

namespace InstrumentWorkerProxy

/-- A response to message `id` as the worker writes it. -/
def okResponse (id : Nat) : IpcMessage :=
  .frame .response id 0 (Json.Text.write (.object (responseFields { success := true })))

def readCommand : SerializedCommand := { instrumentName := bytes "dmm", verb := bytes "READ", params := .empty }

/-- Two calls draw their ids in the other order than they were made, one send fails, the other call times out, and then its response arrives twice. -/
def lateResponseRun : List ProxyLabel :=
  let cmd : SerializedCommand := { instrumentName := bytes "dmm", verb := bytes "READ", params := .empty }
  [.execute cmd, .execute cmd, .advance 1 true, .advance 0 true, .advance 1 true, .advance 0 true, .advance 1 true,
    .advance 0 true, .advance 0 false, .advance 1 true, .advance 0 false, .waitTimeout 1, .receive (okResponse 1),
    .receive (okResponse 1), .stop, .stop]

end InstrumentWorkerProxy

theorem proxy_delivers_once_lateResponseRun :
    ∃ px, (system .compact (bytes "dmm")).run lateResponseRun = some px ∧ DeliversOnce .compact px ∧
      px.point 1 = some .timedOut ∧ px.messageId 1 = some 1 ∧
      px.fulfilments.map (fun f => (f.promise, f.source)) = [(0, .sendFailure), (1, .response (okResponse 1))] := by
  have hview : ((system .compact (bytes "dmm")).run lateResponseRun).map
      (fun px => (px.point 1, px.messageId 1, px.fulfilments.map fun f => (f.promise, f.source))) =
      some (some .timedOut, some 1, [(0, .sendFailure), (1, .response (okResponse 1))]) := by decide +kernel
  obtain ⟨px, hrun, hview⟩ := Option.map_eq_some_iff.mp hview
  obtain ⟨hpoint, hview⟩ := Prod.mk.inj hview
  obtain ⟨hid, hfulfilments⟩ := Prod.mk.inj hview
  exact ⟨px, hrun, proxy_delivers_once (reachable_of_run hrun), hpoint, hid, hfulfilments⟩

end InstrumentServer
