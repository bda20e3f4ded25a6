import InstrumentServer.Server.ProxyPromises

/-!
# Stopping a proxy under its callers

`stop` answers every stored promise and then releases `ipc_queue_`, but no lock spans a call of `execute`: a call may store its promise after the answers were given, and it may come to its send after the queue is gone. `InOrder` rules out exactly these two: a send that succeeds for a promise `stop` did not see, and a queue released under a call that has not sent. In every run that keeps to it a call finds the queue at its send, and when all have returned every future has its value.

A promise that is stored stays in `pending_responses_` until it is given its value. The invariant adds what the answers of `stop` leave behind: from then on only a call that has not come back has its promise there.
-/

namespace InstrumentServer

open Ipc Transition

namespace ExecutePoint

/-- The call dereferences `ipc_queue_` next. -/
def atSend : ExecutePoint → Bool
  | .encoded _ => true
  | _ => false

/-- The call has its send before it. -/
def beforeSend : ExecutePoint → Bool
  | .created => true
  | .numbered => true
  | .stored => true
  | .encoded _ => true
  | _ => false

/-- The call gave its future to the caller. -/
def gaveFuture : ExecutePoint → Bool
  | .returned => true
  | .timedOut => true
  | _ => false

/-- The call has come to its end, by returning or by an exception. -/
def ended : ExecutePoint → Bool
  | .raised => true
  | point => point.gaveFuture

theorem beforeSend_of_atSend {point : ExecutePoint} (h : point.atSend = true) : point.beforeSend = true := by
  cases point <;> simp_all [atSend, beforeSend]

end ExecutePoint

namespace InstrumentWorkerProxy

def Pending (px : InstrumentWorkerProxy) (p : PromiseId) : Prop := ∃ entry ∈ px.pendingResponses, entry.2 = p

instance (px : InstrumentWorkerProxy) (p : PromiseId) : Decidable (px.Pending p) :=
  inferInstanceAs (Decidable (∃ entry ∈ px.pendingResponses, entry.2 = p))

/-- What a proxy owes its callers when it is stopped. -/
structure StopsCleanly (px : InstrumentWorkerProxy) : Prop where
  /-- no call comes to its send when the queue is released -/
  queue : px.stopPoint = .stopped → ∀ p point, px.point p = some point → point.atSend = false
  /-- when `stop` and every call have come to their end, every future has a value -/
  answered : px.stopPoint = .stopped → (∀ p point, px.point p = some point → point.ended = true) →
    ∀ p point, px.point p = some point → point.gaveFuture = true → (px.values p).isSome

/-- No call begins on a released queue, no send succeeds between the answers of `stop` and the release for a promise that is still pending, and the queue is released when no call has its send before it. -/
def InOrder (px : InstrumentWorkerProxy) : ProxyLabel → Prop
  | .execute _ => px.stopPoint ≠ .stopped
  | .advance p sent =>
      px.stopPoint = .cleaned → sent = true → (∃ point ∈ px.point p, point.atSend = true) → ¬ px.Pending p
  | .stop => px.stopPoint = .cleaned → ∀ p < px.promises, ∀ point ∈ px.point p, point.beforeSend = false
  | _ => True

instance (px : InstrumentWorkerProxy) : (label : ProxyLabel) → Decidable (px.InOrder label)
  | .execute _ => inferInstanceAs (Decidable (px.stopPoint ≠ .stopped))
  | .advance p sent => inferInstanceAs (Decidable
      (px.stopPoint = .cleaned → sent = true → (∃ point ∈ px.point p, point.atSend = true) → ¬ px.Pending p))
  | .stop => inferInstanceAs (Decidable
      (px.stopPoint = .cleaned → ∀ p < px.promises, ∀ point ∈ px.point p, point.beforeSend = false))
  | .waitTimeout _ => inferInstanceAs (Decidable True)
  | .receive _ => inferInstanceAs (Decidable True)

/-- `stop` has answered the stored promises. -/
def Drained (px : InstrumentWorkerProxy) : Prop := px.stopPoint = .cleaned ∨ px.stopPoint = .stopped

structure StopInv (px : InstrumentWorkerProxy) : Prop where
  /-- a stored promise waits in `pending_responses_` for its value -/
  kept : ∀ p, ¬ px.Early p → px.Fulfilled p ∨ px.Pending p
  /-- what is pending after the answers belongs to a call that has not given its future away -/
  drained : px.Drained → ∀ p, px.Pending p → ∀ point, px.point p = some point → point.gaveFuture = false
  /-- on a released queue no call has its send before it -/
  released : px.stopPoint = .stopped → ∀ p point, px.point p = some point → point.beforeSend = false

variable {N : JsonLibrary} {px px' : InstrumentWorkerProxy}

theorem PromiseInv.pending_key (h : PromiseInv N px) {p : PromiseId} {m : Nat} (hp : px.messageId p = some m)
    (hpending : px.Pending p) : (m, p) ∈ px.pendingResponses := by
  obtain ⟨⟨m', q⟩, hmem, rfl⟩ := hpending
  obtain rfl : m' = m := Option.some.inj ((h.owner m' q hmem).1.symm.trans hp)
  exact hmem

/-- Once its entry is erased a promise is not pending any more. -/
theorem PromiseInv.not_pending_erase (h : PromiseInv N px) {p : PromiseId} {m : Nat} (hp : px.messageId p = some m)
    (source : FulfilmentSource) (resp : CommandResponse) (owner : PromiseId) :
    ¬ ((px.setValue owner source resp).erasePending m).Pending p := by
  rintro ⟨entry, hmem, rfl⟩
  obtain ⟨hold, hne⟩ := List.mem_filter.mp hmem
  exact absurd (Option.some.inj ((h.owner _ _ hold).1.symm.trans hp)) (by simpa using hne)

/-- A call at its send that comes back at once was told that the message is on the queue. -/
theorem sent_of_send {p : PromiseId} {sent : Bool} {call : ExecuteCall} {msg : IpcMessage} {stats : ProxyStats}
    {msgs : List IpcMessage} (hcall : px.calls p = some call) (hpoint : call.point = .encoded msg)
    (hnext : px.advance N p sent = some ({ px.setCall p { call with point := .returned } with stats }, msgs)) :
    sent = true := by
  by_contra hfailed
  rw [InstrumentWorkerProxy.advance, hcall] at hnext
  simp only [hpoint, if_neg hfailed] at hnext
  split at hnext
  · simp at hnext
  · have hcalls := congrArg (fun after => after.1.point p) (Option.some.inj hnext)
    simp [point, setCall] at hcalls

/-! ### The answers of `stop` -/

theorem fulfilled_foldl_setValue (entries : List (Nat × PromiseId)) (px : InstrumentWorkerProxy) (q : PromiseId) :
    (entries.foldl (fun px entry => px.setValue entry.2 .stopped px.stoppedResponse) px).Fulfilled q ↔
      px.Fulfilled q ∨ ∃ entry ∈ entries, entry.2 = q := by
  induction entries generalizing px with
  | nil => simp
  | cons entry entries ih =>
      rw [List.foldl_cons, ih, fulfilled_setValue, List.exists_mem_cons_iff, or_assoc, eq_comm (a := q)]

theorem point_cleanupPendingPromises (px : InstrumentWorkerProxy) (p : PromiseId) :
    px.cleanupPendingPromises.point p = px.point p := by
  rw [point, point]
  exact foldl_setValue_frame (f := fun px => (px.calls p).map ExecuteCall.point) (fun _ _ _ _ => rfl)
    px.pendingResponses px

/-- Every pending promise is answered. -/
theorem fulfilled_cleanupPendingPromises (px : InstrumentWorkerProxy) (p : PromiseId) :
    px.cleanupPendingPromises.Fulfilled p ↔ px.Fulfilled p ∨ px.Pending p :=
  fulfilled_foldl_setValue px.pendingResponses px p

namespace StopInv

theorem init (instrumentName : ByteString) : StopInv ({ instrumentName } : InstrumentWorkerProxy) where
  kept _ hlate := absurd (Or.inl rfl) hlate
  drained hdrained := by simp [Drained] at hdrained
  released hstopped := by simp at hstopped

/-- A call moves on while nothing is stored and nothing is answered. -/
theorem move (h : StopInv px) {p : PromiseId} {call : ExecuteCall}
    (hcalls : px'.calls = Function.update px.calls p (some call))
    (hpending : px'.pendingResponses = px.pendingResponses) (hfulfilments : px'.fulfilments = px.fulfilments)
    (hstop : px'.stopPoint = px.stopPoint)
    (hlate : px.Early p → call.point = .created ∨ call.point = .numbered)
    (hdrained : px.Drained → px.Pending p → call.point.gaveFuture = false)
    (hreleased : px.stopPoint = .stopped → call.point.beforeSend = false) : StopInv px' := by
  have hsame : ∀ q, px'.Pending q ↔ px.Pending q := fun q => by rw [Pending, Pending, hpending]
  refine ⟨fun q hq => ?_, fun hdrained' q hq point hpoint => ?_, fun hstopped q point hpoint => ?_⟩
  · rw [hsame, Fulfilled, hfulfilments]
    refine h.kept q fun hearly => hq ?_
    rw [Early, point_update hcalls]
    by_cases hqp : q = p
    · subst hqp
      simpa using hlate hearly
    · rwa [if_neg hqp]
  · rw [Drained, hstop] at hdrained'
    rw [hsame] at hq
    rw [point_update hcalls] at hpoint
    split at hpoint
    · rename_i hqp
      rw [← Option.some.inj hpoint]
      exact hdrained hdrained' (hqp ▸ hq)
    · exact h.drained hdrained' q hq point hpoint
  · rw [hstop] at hstopped
    rw [point_update hcalls] at hpoint
    split at hpoint
    · rw [← Option.some.inj hpoint]
      exact hreleased hstopped
    · exact h.released hstopped q point hpoint

theorem storePromise (h : StopInv px) (hpromise : PromiseInv N px) {p : PromiseId} {call : ExecuteCall} {m : Nat}
    (hcall : px.calls p = some call) (hpoint : call.point = .numbered) (hm : call.msgId = some m) :
    StopInv (px.storePromise p call m) := by
  have hcalls : (px.storePromise p call m).calls =
      Function.update px.calls p (some { call with point := .stored }) := rfl
  have hnumbered : px.point p = some .numbered := by simp [point, hcall, hpoint]
  have hid : px.messageId p = some m := by simp [messageId, hcall, hm]
  refine ⟨fun q hq => ?_, fun hdrained q hq point hpoint' => ?_, fun hstopped => ?_⟩
  · by_cases hqp : q = p
    · subst hqp
      exact Or.inr ⟨(m, q), SortedAssoc.mem_of_find? (SortedAssoc.find?_insert_self m q _), rfl⟩
    · have hlate : ¬ px.Early q := by
        rwa [Early, point_update hcalls, if_neg hqp] at hq
      refine (h.kept q hlate).imp_right ?_
      rintro ⟨⟨m', q'⟩, hmem, rfl⟩
      refine ⟨(m', q'), SortedAssoc.mem_insert_of_ne hpromise.sorted p hmem fun hkey => hqp ?_, rfl⟩
      exact hpromise.distinct q' p m (hkey ▸ (hpromise.owner m' q' hmem).1) hid
  · rw [point_update hcalls] at hpoint'
    split at hpoint'
    · rw [← Option.some.inj hpoint']
      rfl
    · rename_i hqp
      obtain ⟨entry, hmem, rfl⟩ := hq
      rcases SortedAssoc.mem_insert hmem with rfl | hold
      · exact absurd rfl hqp
      · exact h.drained hdrained _ ⟨entry, hold, rfl⟩ point hpoint'
  · have hsent := h.released hstopped p .numbered hnumbered
    simp [ExecutePoint.beforeSend] at hsent

/-- A pending promise is given its value and its entry goes. -/
theorem fulfil (h : StopInv px) (hpromise : PromiseInv N px) {m : Nat} {p : PromiseId}
    (hmem : (m, p) ∈ px.pendingResponses) (source : FulfilmentSource) (resp : CommandResponse) (stats : ProxyStats) :
    StopInv { (px.setValue p source resp).erasePending m with stats } := by
  refine ⟨fun q hq => ?_, fun hdrained q hq => h.drained hdrained q ?_, h.released⟩
  · rcases h.kept q hq with hfulfilled | ⟨⟨m', q'⟩, hmem', rfl⟩
    · exact Or.inl ((fulfilled_setValue px p source resp q).mpr (Or.inl hfulfilled))
    · by_cases hkey : m' = m
      · subst hkey
        refine Or.inl ((fulfilled_setValue px p source resp q').mpr (Or.inr ?_))
        exact hpromise.distinct q' p m' (hpromise.owner m' q' hmem').1 (hpromise.owner m' p hmem).1
      · exact Or.inr ⟨(m', q'), List.mem_filter.mpr ⟨hmem', by simpa using hkey⟩, rfl⟩
  · obtain ⟨entry, hentry, rfl⟩ := hq
    exact ⟨entry, (List.mem_filter.mp hentry).1, rfl⟩

theorem resolveUnsent (h : StopInv px) (hpromise : PromiseInv N px) {p : PromiseId} {call : ExecuteCall} {m : Nat}
    (hcall : px.calls p = some call) (hpoint : call.point = .unsent) (hm : call.msgId = some m) :
    StopInv (px.resolveUnsent p call m) := by
  have hid : px.messageId p = some m := by simp [messageId, hcall, hm]
  have hlate : ¬ px.Early p := by simp [Early, point, hcall, hpoint]
  rw [InstrumentWorkerProxy.resolveUnsent]
  cases hfind : SortedAssoc.find? m (px.setCall p { call with point := .returned }).pendingResponses with
  | some owner =>
      -- the value may as well be given before the call moves on
      have hgiven := h.fulfil hpromise (SortedAssoc.mem_of_find? hfind) .sendFailure (px.sendFailure call.cmd) px.stats
      refine hgiven.move rfl rfl rfl rfl (fun hearly => absurd hearly hlate) (fun _ hpending => ?_) (fun _ => rfl)
      exact absurd hpending (hpromise.not_pending_erase hid .sendFailure (px.sendFailure call.cmd) owner)
  | none =>
      refine h.move rfl rfl rfl rfl (fun hearly => absurd hearly hlate) (fun _ hpending => ?_) (fun _ => rfl)
      have hsome := SortedAssoc.find?_of_mem hpromise.sorted (hpromise.pending_key hid hpending)
      exact absurd (hfind.symm.trans hsome) (by simp)

theorem encode (h : StopInv px) {p : PromiseId} {call : ExecuteCall} (m : Nat) (hcall : px.calls p = some call)
    (hpoint : call.point = .stored) : StopInv (px.encode N p call m) := by
  have hstored : px.point p = some .stored := by simp [point, hcall, hpoint]
  have hlate : ¬ px.Early p := by simp [Early, hstored]
  have hheld : px.stopPoint ≠ .stopped := fun hstopped => by
    simpa [ExecutePoint.beforeSend] using h.released hstopped p .stored hstored
  rw [InstrumentWorkerProxy.encode]
  split
  · exact h.move rfl rfl rfl rfl (fun hearly => absurd hearly hlate) (fun _ _ => rfl)
      (fun hstopped => absurd hstopped hheld)
  · exact h.move rfl rfl rfl rfl (fun hearly => absurd hearly hlate) (fun _ _ => rfl) (fun _ => rfl)

theorem advance (h : StopInv px) (hpromise : PromiseInv N px) {p : PromiseId} {sent : Bool} {msgs : List IpcMessage}
    (hok : px.InOrder (.advance p sent)) (hnext : px.advance N p sent = some (px', msgs)) : StopInv px' := by
  obtain ⟨call, hcall, hstep⟩ := advance_cases hnext
  have hat : px.point p = some call.point := by simp [point, hcall]
  cases hstep with
  | draw hpoint =>
      refine h.move rfl rfl rfl rfl (fun _ => Or.inr rfl) (fun _ _ => rfl) (fun hstopped => ?_)
      simpa [hpoint, ExecutePoint.beforeSend] using h.released hstopped p _ hat
  | store hpoint hm => exact h.storePromise hpromise hcall hpoint hm
  | encode hpoint hm => exact h.encode _ hcall hpoint
  | send stats hpoint =>
      have hlate : ¬ px.Early p := by simp [Early, hat, hpoint]
      have hheld : px.stopPoint ≠ .stopped := fun hstopped => by
        simpa [hpoint, ExecutePoint.beforeSend] using h.released hstopped p _ hat
      refine h.move rfl rfl rfl rfl (fun hearly => absurd hearly hlate) (fun hdrained hpending => ?_) (fun _ => rfl)
      rcases hdrained with hcleaned | hstopped
      · exact absurd hpending (hok hcleaned (sent_of_send hcall hpoint hnext) ⟨_, hat, by rw [hpoint]; rfl⟩)
      · exact absurd hstopped hheld
  | fail hpoint =>
      have hlate : ¬ px.Early p := by simp [Early, hat, hpoint]
      exact h.move rfl rfl rfl rfl (fun hearly => absurd hearly hlate) (fun _ _ => rfl) (fun _ => rfl)
  | resolve hpoint hm => exact h.resolveUnsent hpromise hcall hpoint hm

theorem waitTimeout (h : StopInv px) {p : PromiseId} (hnext : px.waitTimeout p = some px') : StopInv px' := by
  obtain ⟨call, stats, hcall, hpoint, rfl⟩ := waitTimeout_cases hnext
  have hat : px.point p = some .returned := by simp [point, hcall, hpoint]
  have hlate : ¬ px.Early p := by simp [Early, hat]
  refine h.move rfl rfl rfl rfl (fun hearly => absurd hearly hlate) (fun hdrained hpending => ?_) (fun _ => rfl)
  simpa [ExecutePoint.gaveFuture] using h.drained hdrained p hpending _ hat

theorem receive (h : StopInv px) (hpromise : PromiseInv N px) {msg : IpcMessage}
    (hnext : px.receive N msg = some px') : StopInv px' := by
  rcases receive_moves hnext with ⟨resp, p, stats, -, -, hfind, rfl⟩ | ⟨-, rfl⟩
  · exact h.fulfil hpromise (SortedAssoc.mem_of_find? hfind) (.response msg) resp stats
  · exact h

theorem stopStep (h : StopInv px) (hpromise : PromiseInv N px) (hok : px.InOrder .stop)
    (hnext : px.stopStep = some px') : StopInv px' := by
  rcases stopStep_moves hnext with ⟨-, rfl⟩ | ⟨-, rfl⟩ | ⟨hcleaned, rfl⟩
  · exact ⟨h.kept, fun hdrained => by simp [Drained] at hdrained, fun hstopped => by simp at hstopped⟩
  · refine ⟨fun p hlate => Or.inl ?_, fun _ p hpending => ?_, fun hstopped => by simp at hstopped⟩
    · have hlate' : ¬ px.Early p := by
        change ¬ px.cleanupPendingPromises.Early p at hlate
        rwa [Early, point_cleanupPendingPromises] at hlate
      exact (fulfilled_cleanupPendingPromises px p).mpr (h.kept p hlate')
    · simp [Pending, cleanupPendingPromises] at hpending
  · refine ⟨h.kept, fun _ => h.drained (Or.inl hcleaned), fun _ p point hpoint => ?_⟩
    obtain ⟨call, hcall, -⟩ := Option.map_eq_some_iff.mp hpoint
    exact hok hcleaned p (hpromise.lt_promises hcall) point hpoint

theorem step (h : StopInv px) (hpromise : PromiseInv N px) {label : ProxyLabel} (hok : px.InOrder label)
    (hnext : px.step N label = some px') : StopInv px' := by
  cases label with
  | execute cmd =>
      obtain rfl := Option.some.inj hnext
      exact h.move rfl rfl rfl rfl (fun _ => Or.inl rfl) (fun _ _ => rfl) (fun hstopped => absurd hstopped hok)
  | advance p sent =>
      obtain ⟨⟨px'', msgs⟩, hadvance, rfl⟩ := Option.map_eq_some_iff.mp hnext
      exact h.advance hpromise hok hadvance
  | waitTimeout p => exact h.waitTimeout hnext
  | receive msg => exact h.receive hpromise hnext
  | stop => exact h.stopStep hpromise hok hnext

theorem of_reachable {instrumentName : ByteString} (hreach : ReachableWhile (system N instrumentName) InOrder px) :
    StopInv px := by
  induction hreach with
  | init => exact StopInv.init instrumentName
  | step hreach hok hnext ih => exact ih.step (PromiseInv.of_reachable hreach.reachable) hok hnext

end StopInv

/-- In every run that keeps to the order, `stop` takes the queue from no call and leaves no future without a value. -/
theorem stops_cleanly {instrumentName : ByteString} (hreach : ReachableWhile (system N instrumentName) InOrder px) :
    StopsCleanly px := by
  have h := StopInv.of_reachable hreach
  have hpromise := PromiseInv.of_reachable hreach.reachable
  refine ⟨fun hstopped p point hpoint => ?_, fun hstopped _ p point hpoint hgave => ?_⟩
  · cases hat : point.atSend with
    | false => rfl
    | true => rw [← ExecutePoint.beforeSend_of_atSend hat, h.released hstopped p point hpoint]
  · have hlate : ¬ px.Early p := by
      rintro (hnone | hcreated | hnumbered)
      · simp [hnone] at hpoint
      · obtain rfl := Option.some.inj (hcreated.symm.trans hpoint)
        simp [ExecutePoint.gaveFuture] at hgave
      · obtain rfl := Option.some.inj (hnumbered.symm.trans hpoint)
        simp [ExecutePoint.gaveFuture] at hgave
    rcases h.kept p hlate with ⟨f, hf, hfp⟩ | hpending
    · rw [(hpromise.values p f.value).mpr ⟨f, hf, hfp, rfl⟩]
      rfl
    · simp [h.drained (Or.inr hstopped) p hpending point hpoint] at hgave

/-- The steps of a call from its first to its send. -/
def toItsEnd (p : PromiseId) : List ProxyLabel := List.replicate 4 (.advance p true)

/-- One call is answered by the worker, one by `stop`, and one stores its promise after the answers and cannot send. -/
def orderlyStop : List ProxyLabel :=
  [.execute readCommand, .execute readCommand, .execute readCommand] ++ toItsEnd 0 ++ toItsEnd 1 ++
    [.receive (okResponse 1), .stop, .stop, .advance 2 true, .advance 2 true, .advance 2 true, .advance 2 false,
      .advance 2 true, .stop]

theorem stops_cleanly_orderlyStop :
    ∃ px, ReachableWhile (system .compact (bytes "dmm")) InOrder px ∧ px.stopPoint = .stopped ∧
      px.fulfilments.map (fun f => (f.promise, f.source)) =
        [(0, .response (okResponse 1)), (1, .stopped), (2, .sendFailure)] ∧ StopsCleanly px := by
  obtain ⟨px, hreach, hview⟩ := @ReachableWhile.of_any _ _ (system .compact (bytes "dmm")) InOrder _ orderlyStop
    (fun px => px.stopPoint = .stopped && px.fulfilments.map (fun f => (f.promise, f.source)) =
      [(0, .response (okResponse 1)), (1, .stopped), (2, .sendFailure)]) (by decide +kernel)
  obtain ⟨hstopped, hfulfilments⟩ : px.stopPoint = .stopped ∧ px.fulfilments.map (fun f => (f.promise, f.source)) =
      [(0, .response (okResponse 1)), (1, .stopped), (2, .sendFailure)] := by simpa using hview
  exact ⟨px, hreach, hstopped, hfulfilments, stops_cleanly hreach⟩

/-- One call comes to its send when the queue is released, and in another run a call stores its promise after `stop` gave its answers, sends, and returns a future that no one will give a value. -/
theorem stop_races_execute :
    (∃ px, Reachable (system .compact (bytes "dmm")) px ∧ px.stopPoint = .stopped ∧
      (px.point 0).map ExecutePoint.atSend = some true ∧ ¬ StopsCleanly px) ∧
    ∃ px, Reachable (system .compact (bytes "dmm")) px ∧ px.stopPoint = .stopped ∧ px.promises = 1 ∧
      px.point 0 = some .returned ∧ px.values 0 = none ∧ ¬ StopsCleanly px := by
  constructor
  · obtain ⟨px, hreach, hview⟩ := @ReachableWhile.of_any _ _ (system .compact (bytes "dmm")) (fun _ _ => True) _
      ([.execute readCommand] ++ List.replicate 3 (.advance 0 true) ++ [.stop, .stop, .stop])
      (fun px => px.stopPoint = .stopped && (px.point 0).map ExecutePoint.atSend = some true) (by decide +kernel)
    obtain ⟨hstopped, hat⟩ : px.stopPoint = .stopped ∧ (px.point 0).map ExecutePoint.atSend = some true := by
      simpa using hview
    refine ⟨px, hreach, hstopped, hat, fun hclean => ?_⟩
    obtain ⟨point, hpoint, hsend⟩ := Option.map_eq_some_iff.mp hat
    rw [hclean.queue hstopped 0 point hpoint] at hsend
    simp at hsend
  · obtain ⟨px, hreach, hview⟩ := @ReachableWhile.of_any _ _ (system .compact (bytes "dmm")) (fun _ _ => True) _
      ([.execute readCommand, .stop, .stop] ++ toItsEnd 0 ++ [.stop])
      (fun px => px.stopPoint = .stopped && px.promises = 1 && px.point 0 = some .returned && px.values 0 = none)
      (by decide +kernel)
    obtain ⟨⟨⟨hstopped, hone⟩, hreturned⟩, hnone⟩ : ((px.stopPoint = .stopped ∧ px.promises = 1) ∧
        px.point 0 = some .returned) ∧ px.values 0 = none := by simpa using hview
    refine ⟨px, hreach, hstopped, hone, hreturned, hnone, fun hclean => ?_⟩
    have hended : ∀ p point, px.point p = some point → point.ended = true := by
      intro p point hpoint
      obtain ⟨call, hcall, -⟩ := Option.map_eq_some_iff.mp hpoint
      have hlt := (PromiseInv.of_reachable hreach).lt_promises hcall
      obtain rfl : p = 0 := Nat.lt_one_iff.mp (hone ▸ hlt)
      obtain rfl := Option.some.inj (hreturned.symm.trans hpoint)
      rfl
    have hsome := hclean.answered hstopped hended 0 .returned hreturned rfl
    simp [hnone] at hsome

end InstrumentWorkerProxy

end InstrumentServer
