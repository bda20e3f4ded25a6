import InstrumentServer.Server.MeasurementProgress

/-!
# Where measurements end

`MeasurementProgress` bounds the steps that are left once the scripts make no further call; here is where the last of them leads. A run holds futures of calls that have returned, and the future of the call its thread is in belongs to no other run, so no other thread gives it up. A run that is not over can therefore go on, unless its thread is at a link that has fallen silent: the proxy was stopped, the worker is gone, or the listener cannot decode a message.

So the runs never keep each other from their end.
-/

namespace InstrumentServer

open Ipc Transition InstrumentWorkerProxy

/-! ### Calls that are given up -/

namespace WorkerLink

variable {N : JsonLibrary} {l l' : WorkerLink}

/-- No call is given up on the way from one link to the other. -/
def SparesCalls (l l' : WorkerLink) : Prop :=
  ∀ p, l'.proxy.point p = some .timedOut → l.proxy.point p = some .timedOut

theorem SparesCalls.of_calls (hcalls : l'.proxy.calls = l.proxy.calls) : SparesCalls l l' := by
  intro p hpoint
  rwa [point, hcalls] at hpoint

theorem SparesCalls.of_update {p : PromiseId} {call : ExecuteCall}
    (hcalls : l'.proxy.calls = Function.update l.proxy.calls p (some call)) (hpoint : call.point ≠ .timedOut) :
    SparesCalls l l' := by
  intro q hq
  rw [point_update hcalls] at hq
  split at hq
  · exact absurd (Option.some.inj hq) hpoint
  · exact hq

theorem sparesCalls_execute (l : WorkerLink) (cmd : SerializedCommand) : SparesCalls l (l.execute cmd) := by
  intro p hpoint
  obtain ⟨call, hcall, hpoint⟩ := Option.map_eq_some_iff.mp hpoint
  rcases calls_create_cases hcall with ⟨-, rfl⟩ | hold
  · contradiction
  · exact Option.map_eq_some_iff.mpr ⟨call, hold, hpoint⟩

theorem sparesCalls_advance {p : PromiseId} {sent : Bool} (hnext : l.advance N p sent = some l') : SparesCalls l l' := by
  obtain ⟨⟨px', msgs⟩, hadvance, rfl⟩ := Option.map_eq_some_iff.mp hnext
  obtain ⟨call, hcall, hstep⟩ := advance_cases hadvance
  have hcalls : ∃ call', px'.calls = Function.update l.proxy.calls p (some call') ∧ call'.point ≠ .timedOut := by
    cases hstep with
    | draw hpoint | store hpoint | send _ hpoint | fail hpoint => exact ⟨_, rfl, by simp⟩
    | encode hpoint =>
        rw [InstrumentWorkerProxy.encode]
        split <;> exact ⟨_, rfl, by simp⟩
    | resolve hpoint =>
        rw [InstrumentWorkerProxy.resolveUnsent]
        split <;> exact ⟨{ call with point := .returned }, rfl, by simp⟩
  obtain ⟨call', hcalls, hpoint⟩ := hcalls
  exact .of_update hcalls hpoint

theorem sparesCalls_listen {token : Option SyncToken} (hnext : l.listen N = some (l', token)) : SparesCalls l l' := by
  obtain ⟨msg, rest, px', -, hreceive, rfl, -⟩ := listen_cases hnext
  exact .of_calls (receive_cases hreceive).1

end WorkerLink

/-! ### The futures of a run -/

namespace MeasurementRun

variable {run run' : MeasurementRun} {future : FutureRef}

/-- The run got the future back from `execute`. -/
def Holds (run : MeasurementRun) (future : FutureRef) : Prop :=
  (∃ token, future ∈ run.ctx.tokenFutures token) ∨ future ∈ run.futures ∨ ∃ token i, .await token i future ∈ run.todo

theorem Holds.mono (h : run'.Holds future) (htokens : ∀ token, run'.ctx.tokenFutures token ⊆ run.ctx.tokenFutures token)
    (hfutures : run'.futures ⊆ run.futures) (htodo : run'.todo ⊆ run.todo) : run.Holds future := by
  rcases h with ⟨token, htoken⟩ | hfuture | ⟨token, i, haction⟩
  · exact Or.inl ⟨token, htokens token htoken⟩
  · exact Or.inr (Or.inl (hfutures hfuture))
  · exact Or.inr (Or.inr ⟨token, i, htodo haction⟩)

/-- Nothing new is waited for. -/
theorem Holds.of_begin (h : run'.Holds future) (htokens : run'.ctx.tokenFutures = run.ctx.tokenFutures)
    (hfutures : run'.futures = run.futures) (htodo : ∀ token i, .await token i future ∉ run'.todo) : run.Holds future := by
  rcases h with ⟨token, htoken⟩ | hfuture | ⟨token, i, haction⟩
  · exact Or.inl ⟨token, htokens ▸ htoken⟩
  · exact Or.inr (Or.inl (hfutures ▸ hfuture))
  · exact absurd haction (htodo token i)

theorem holds_beginEnqueue {expects : ByteString → ByteString → Bool} {found : Bool} {op : EnqueueOp}
    (h : (run.beginEnqueue expects found op).Holds future) : run.Holds future := by
  rcases run.beginEnqueue_cases found op with heq | ⟨todo, heq, htodo⟩
  · rwa [heq] at h
  · rw [heq] at h
    refine h.of_begin rfl rfl fun token i haction => ?_
    obtain ⟨entry, held, heq, -⟩ := htodo _ haction
    contradiction

theorem holds_beginSync {expects : ByteString → ByteString → Bool} {op : EnqueueOp}
    (h : (run.beginSync expects op).Holds future) : run.Holds future := by
  cases op with
  | call allInstruments single =>
      rw [beginSync] at h
      split at h
      · exact h
      · exact h.of_begin rfl rfl (by simp)
  | parallel allInstruments calls =>
      simp only [beginSync] at h
      split at h
      · exact h
      · exact h.of_begin rfl rfl (by simp)

/-- The monitor waits for the futures of the tokens. -/
theorem holds_monitor {phase : RunPhase}
    (h : Holds { run with phase, todo := run.ctx.tokenOrder.flatMap (tokenActions run.ctx) } future) : run.Holds future := by
  rcases h with htoken | hfuture | ⟨token, i, haction⟩
  · exact Or.inl htoken
  · exact Or.inr (Or.inl hfuture)
  · obtain ⟨token', -, hmem⟩ := List.mem_flatMap.mp haction
    have hzip : (future, i) ∈ (run.ctx.tokenFutures token').zipIdx := by
      simp only [tokenActions, List.mem_append, List.mem_map, List.mem_singleton, reduceCtorEq, and_false, exists_false,
        or_false, RunAction.await.injEq] at hmem
      obtain ⟨⟨other, j⟩, hzip, -, rfl, rfl⟩ := hmem
      exact hzip
    exact Or.inl ⟨token', List.fst_mem_of_mem_zipIdx hzip⟩

/-- A step gives a run the future of the call that its thread was in and that has returned, or no new one. -/
theorem Holds.of_move {expects : ByteString → ByteString → Bool} {enqueueMode : Bool} {s t : ServerState} {c : Nat}
    {label : ServerLabel} (hmove : ServerState.RunMove expects enqueueMode s t c run label run') (h : run'.Holds future) :
    run.Holds future ∨
      (label = .endCall c ∧ run.inCall = some future ∧ (s.links future.1).proxy.point future.2 = some .returned) := by
  cases hmove with
  | rest | done | fail | dispatch | send => exact Or.inl h
  | beginEnqueue => exact Or.inl (holds_beginEnqueue h)
  | beginSync => exact Or.inl (holds_beginSync h)
  | monitor => exact Or.inl (holds_monitor h)
  | finish hcall htodo => exact Or.inl (h.mono (fun _ => List.nil_subset _) (List.Subset.refl _) (List.Subset.refl _))
  | await hcall htodo =>
      refine Or.inl (h.mono (fun token => ?_) (List.Subset.refl _) (htodo ▸ List.subset_cons_self ..))
      rw [(tokens_fill ..).2.2]
      exact List.Subset.refl _
  | noWorker hcall htodo | release hcall htodo | clear hcall htodo | skip hcall htodo | endBlock hcall htodo =>
      exact Or.inl (h.mono (fun _ => List.Subset.refl _) (List.Subset.refl _) (htodo ▸ List.subset_cons_self ..))
  | recordCall hcall htodo =>
      exact Or.inl (h.mono (fun _ => List.Subset.refl _) (List.nil_subset _) (htodo ▸ List.subset_cons_self ..))
  | recordBlock hcall htodo hfutures =>
      exact Or.inl (h.mono (fun _ => List.Subset.refl _) (hfutures ▸ List.subset_cons_self ..) (List.Subset.refl _))
  | @sent new hcall hpoint =>
      by_cases hnew : new = future
      · subst hnew
        exact Or.inr ⟨rfl, hcall, hpoint⟩
      · refine Or.inl ?_
        rw [sent] at h
        split at h
        · rename_i token entry held todo htodo
          refine @Holds.mono run { run with todo } future ?_ (fun _ => List.Subset.refl _) (List.Subset.refl _)
            (htodo ▸ List.subset_cons_self ..)
          rcases h with ⟨token', htoken⟩ | hrest
          · refine Or.inl ⟨token', ?_⟩
            by_cases htokens : token' = token
            · subst htokens
              simpa [RuntimeContext.dispatch, RuntimeContext.pushFuture, RuntimeContext.pushResult, Ne.symm hnew] using htoken
            · simpa [RuntimeContext.dispatch, RuntimeContext.pushFuture, RuntimeContext.pushResult, htokens] using htoken
          · exact Or.inr hrest
        · rename_i cmd todo htodo
          refine @Holds.mono run { run with todo } future ?_ (fun _ => List.Subset.refl _) (List.Subset.refl _)
            (htodo ▸ List.subset_cons_self ..)
          rcases h with htoken | hfuture | haction
          · exact Or.inl htoken
          · refine Or.inr (Or.inl ?_)
            simpa [Ne.symm hnew] using hfuture
          · exact Or.inr (Or.inr haction)
        · exact h
  | raised hcall hpoint =>
      refine Or.inl ?_
      rw [raised] at h
      split at h
      · exact h.mono (fun _ => List.Subset.refl _) (List.Subset.refl _) (List.nil_subset _)
      · exact h.mono (fun _ => List.Subset.refl _) (List.nil_subset _) (List.nil_subset _)

/-- An operation begins with the futures the run has. -/
theorem frame_beginEnqueue (expects : ByteString → ByteString → Bool) (found : Bool) (op : EnqueueOp) :
    (run.beginEnqueue expects found op).inCall = run.inCall ∧ (run.beginEnqueue expects found op).futures = run.futures := by
  rcases run.beginEnqueue_cases found op with heq | ⟨todo, heq, -⟩ <;>
  · rw [heq]
    exact ⟨rfl, rfl⟩

theorem frame_beginSync (expects : ByteString → ByteString → Bool) (op : EnqueueOp) :
    (run.beginSync expects op).inCall = run.inCall ∧ (run.beginSync expects op).futures = run.futures := by
  rcases run.beginSync_cases op with heq | ⟨todo, -, heq | ⟨instruments, heq⟩⟩ <;>
  · rw [heq]
    exact ⟨rfl, rfl⟩

/-- The futures of the synchronous path come from calls that have returned. -/
theorem futures_of_move {expects : ByteString → ByteString → Bool} {enqueueMode : Bool} {s t : ServerState} {c : Nat}
    {label : ServerLabel} (hmove : ServerState.RunMove expects enqueueMode s t c run label run')
    (h : future ∈ run'.futures) : future ∈ run.futures ∨
      (label = .endCall c ∧ run.inCall = some future ∧ (s.links future.1).proxy.point future.2 = some .returned) := by
  cases hmove with
  | beginEnqueue hmode hscript op found => exact Or.inl ((frame_beginEnqueue expects found op).2 ▸ h)
  | beginSync hmode hscript op => exact Or.inl ((frame_beginSync expects op).2 ▸ h)
  | recordCall => contradiction
  | recordBlock hcall htodo hfutures => exact Or.inl (hfutures ▸ List.mem_cons_of_mem _ h)
  | sent hcall hpoint =>
      rw [sent] at h
      split at h
      · exact Or.inl h
      · rcases List.mem_append.mp h with hold | hnew
        · exact Or.inl hold
        · rw [List.mem_singleton.mp hnew]
          exact Or.inr ⟨rfl, hcall, hpoint⟩
      · exact Or.inl h
  | raised =>
      rw [raised] at h
      split at h
      · exact Or.inl h
      · contradiction
  | rest | monitor | done | fail | finish | dispatch | noWorker | await | release | clear | send | skip | endBlock =>
      exact Or.inl h

/-- Only an action enters `execute`. -/
theorem inCall_of_move {expects : ByteString → ByteString → Bool} {enqueueMode : Bool} {s t : ServerState} {c : Nat}
    {label : ServerLabel} (hmove : ServerState.RunMove expects enqueueMode s t c run label run')
    (hcall : run'.inCall = some future) : run.inCall = some future ∨ ∃ found, label = .act c found := by
  cases hmove with
  | @dispatch _ _ _ found | @send _ _ found => exact Or.inr ⟨found, rfl⟩
  | beginEnqueue hmode hscript op found => exact Or.inl ((frame_beginEnqueue expects found op).1 ▸ hcall)
  | beginSync hmode hscript op => exact Or.inl ((frame_beginSync expects op).1 ▸ hcall)
  | sent =>
      rw [sent] at hcall
      split at hcall
      · contradiction
      · contradiction
      · exact Or.inl hcall
  | raised =>
      rw [raised] at hcall
      split at hcall <;> contradiction
  | rest | monitor | done | fail | finish | noWorker | await | release | clear | skip | recordCall | recordBlock | endBlock =>
      exact Or.inl hcall

/-- The script failed, or everything it asked for is done. -/
def Over (run : MeasurementRun) : Prop := run.phase = .done ∨ run.phase = .failed

/-- The future that keeps the thread of a run: that of the call it is in, or the one it waits for. `call` in synchronous mode is not kept, it gives up. -/
def keptBy? (run : MeasurementRun) : Option FutureRef :=
  match run.inCall, run.todo with
  | some future, _ => some future
  | none, .await _ _ future :: _ => some future
  | none, .awaitBlock :: _ => run.futures.head?
  | none, _ => none

end MeasurementRun

/-! ### What a step does to the links -/

namespace ServerState

variable {N : JsonLibrary} {expects : ByteString → ByteString → Bool} {enqueueMode : Nat → Bool} {s t : ServerState}
  {label : ServerLabel}

/-- The ways a step can change the link of an instrument. -/
inductive LinkChange (N : JsonLibrary) (s : ServerState) (inst : ByteString) : ServerLabel → WorkerLink → Prop
  | effect {label : ServerLabel} {k : Nat} {l : WorkerLink} (heffect : LinkEffect (s.links inst) k l) :
      LinkChange N s inst label l
  | waitTimeout {c : Nat} {p : PromiseId} {l : WorkerLink} (hfuture : (inst, p) ∈ (s.runs c).futures)
      (hnext : (s.links inst).waitTimeout p = some l) : LinkChange N s inst (.timeout c) l
  | advance {p : PromiseId} {sent : Bool} {l : WorkerLink} (hnext : (s.links inst).advance N p sent = some l) :
      LinkChange N s inst (.advance inst p sent) l
  | listen {token : Option SyncToken} {l : WorkerLink} (hnext : (s.links inst).listen N = some (l, token)) :
      LinkChange N s inst (.listen inst) l
  | listenRelease {token : SyncToken} {l : WorkerLink} (hnext : (s.links inst).listen N = some (l, some token)) :
      LinkChange N s inst (.listen inst) (l.sendSyncContinue token)
  | workerReceive {l : WorkerLink} (hnext : (s.links inst).workerReceive N = some l) :
      LinkChange N s inst (.workerReceive inst) l
  | workerFinish {plugin : PluginResponse} {delivered : Bool} {l : WorkerLink}
      (hnext : (s.links inst).workerFinish N plugin delivered = some l) :
      LinkChange N s inst (.workerFinish inst plugin delivered) l
  | workerAck {delivered : Bool} {l : WorkerLink} (hnext : (s.links inst).workerAck delivered = some l) :
      LinkChange N s inst (.workerAck inst delivered) l
  | stop {l : WorkerLink} (hnext : (s.links inst).stop = some l) : LinkChange N s inst (.stop inst) l

/-- A step changes one link at most. -/
theorem linkChange_step (hnext : s.step N expects enqueueMode label = some t) :
    ∃ inst l, t.links = Function.update s.links inst l ∧ LinkChange N s inst label l := by
  have hsame : ∃ inst l, s.links = Function.update s.links inst l ∧ LinkChange N s inst label l :=
    ⟨[], s.links [], (Function.update_eq_self ..).symm, .effect .rest⟩
  cases label with
  | begin c op found =>
      obtain ⟨run, -, rfl⟩ := Option.map_eq_some_iff.mp hnext
      exact hsame
  | endScript c =>
      obtain ⟨run, -, rfl⟩ := Option.map_eq_some_iff.mp hnext
      exact hsame
  | fail c =>
      obtain ⟨run, -, rfl⟩ := Option.map_eq_some_iff.mp hnext
      exact hsame
  | act c found =>
      obtain ⟨_, inst, l, _, -, hlinks, heffect, -⟩ := (act_acts hnext).pays
      exact ⟨inst, l, hlinks, .effect heffect⟩
  | endCall c =>
      obtain ⟨_, -, ⟨-, rfl⟩ | ⟨-, rfl⟩⟩ := endCall_cases hnext
      · exact hsame
      · exact hsame
  | timeout c =>
      rw [step, timeout] at hnext
      split at hnext
      · rename_i name params todo future futures hcall htodo hfutures
        obtain ⟨l, hl, rfl⟩ := Option.map_eq_some_iff.mp hnext
        exact ⟨future.1, l, rfl, .waitTimeout (hfutures ▸ List.mem_cons_self ..) hl⟩
      · contradiction
  | listen inst =>
      obtain ⟨⟨l, token⟩, hl, rfl⟩ := Option.map_eq_some_iff.mp hnext
      cases token with
      | none => exact ⟨inst, l, rfl, .listen hl⟩
      | some token =>
          refine ⟨inst, _, rfl, ?_⟩
          split
          · exact .listenRelease hl
          · exact .listen hl
  | advance inst p sent =>
      obtain ⟨l, hl, rfl⟩ := Option.map_eq_some_iff.mp hnext
      exact ⟨inst, l, rfl, .advance hl⟩
  | workerReceive inst =>
      obtain ⟨l, hl, rfl⟩ := Option.map_eq_some_iff.mp hnext
      exact ⟨inst, l, rfl, .workerReceive hl⟩
  | workerFinish inst plugin delivered =>
      obtain ⟨l, hl, rfl⟩ := Option.map_eq_some_iff.mp hnext
      exact ⟨inst, l, rfl, .workerFinish hl⟩
  | workerAck inst delivered =>
      obtain ⟨l, hl, rfl⟩ := Option.map_eq_some_iff.mp hnext
      exact ⟨inst, l, rfl, .workerAck hl⟩
  | stop inst =>
      obtain ⟨l, hl, rfl⟩ := Option.map_eq_some_iff.mp hnext
      exact ⟨inst, l, rfl, .stop hl⟩

/-- A call is given up by a run that waits for its future. -/
theorem LinkChange.timedOut {inst : ByteString} {l : WorkerLink} (h : LinkChange N s inst label l) {p : PromiseId}
    (hpoint : l.proxy.point p = some .timedOut) :
    (s.links inst).proxy.point p = some .timedOut ∨ ∃ c, label = .timeout c ∧ (inst, p) ∈ (s.runs c).futures := by
  cases h with
  | effect heffect =>
      cases heffect with
      | rest | release => exact Or.inl hpoint
      | execute cmd => exact Or.inl ((s.links inst).sparesCalls_execute cmd p hpoint)
  | @waitTimeout c q _ hfuture hnext =>
      obtain ⟨px', htimeout, rfl⟩ := Option.map_eq_some_iff.mp hnext
      obtain ⟨call, stats, hcall, -, rfl⟩ := waitTimeout_cases htimeout
      by_cases hq : p = q
      · subst hq
        exact Or.inr ⟨c, rfl, hfuture⟩
      · refine Or.inl ?_
        rwa [point_update rfl, if_neg hq] at hpoint
  | advance hnext => exact Or.inl (WorkerLink.sparesCalls_advance hnext p hpoint)
  | listen hnext | listenRelease hnext => exact Or.inl (WorkerLink.sparesCalls_listen hnext p hpoint)
  | workerReceive hnext =>
      obtain ⟨_, _, _, -, -, rfl⟩ := WorkerLink.workerReceive_cases hnext
      exact Or.inl hpoint
  | workerFinish hnext =>
      obtain ⟨_, _, _, _, -, -, rfl⟩ := WorkerLink.workerFinish_cases hnext
      exact Or.inl hpoint
  | workerAck hnext =>
      obtain ⟨_, -, rfl⟩ := Option.map_eq_some_iff.mp hnext
      exact Or.inl hpoint
  | stop hnext => exact Or.inl (WorkerLink.SparesCalls.of_calls (WorkerLink.calls_stop hnext) p hpoint)

theorem timedOut_step (hnext : s.step N expects enqueueMode label = some t) {future : FutureRef}
    (hpoint : (t.links future.1).proxy.point future.2 = some .timedOut) :
    (s.links future.1).proxy.point future.2 = some .timedOut ∨ ∃ c, label = .timeout c ∧ future ∈ (s.runs c).futures := by
  obtain ⟨inst, l, hlinks, hchange⟩ := linkChange_step hnext
  rw [hlinks] at hpoint
  by_cases hinst : future.1 = inst
  · subst hinst
    rw [Function.update_self] at hpoint
    exact hchange.timedOut hpoint
  · rw [Function.update_of_ne hinst] at hpoint
    exact Or.inl hpoint

/-- A run that gives a call up waits for no other. -/
theorem futures_timeout {c : Nat} (hnext : s.timeout c = some t) : (t.runs c).futures = [] := by
  obtain ⟨name, params, todo, future, l, -, -, -, rfl⟩ := timeout_cases hnext
  have hrun : ∀ run, ((s.setLink future.1 l).setRun c run).runs c = run := fun run => Function.update_self ..
  rw [hrun]
  rfl

theorem LinkChange.responsesDue {inst : ByteString} {l : WorkerLink} (h : LinkChange N s inst label l)
    (hinv : LinkInv N (s.links inst)) (hdue : (s.links inst).ResponsesDue) (hdelivers : Delivers label) : l.ResponsesDue := by
  cases h with
  | effect heffect =>
      cases heffect with
      | rest => exact hdue
      | execute cmd => exact hdue.execute hinv cmd
      | release token => exact hdue.sendSyncContinue token
  | waitTimeout hfuture hnext => exact hdue.waitTimeout hinv hnext
  | advance hnext => exact hdue.advance hinv hnext
  | listen hnext => exact hdue.listen hinv hnext
  | listenRelease hnext => exact (hdue.listen hinv hnext).sendSyncContinue _
  | workerReceive hnext => exact hdue.workerReceive hinv hnext
  | workerFinish hnext =>
      obtain rfl := hdelivers
      exact hdue.workerFinish hnext
  | workerAck hnext => exact hdue.workerAck hnext
  | stop hnext => exact hdue.stop hnext

/-- A call goes on, or it stays as it is. -/
theorem callsEvolve_step (hlinks : ∀ inst, LinkInv N (s.links inst)) (hnext : s.step N expects enqueueMode label = some t)
    (inst : ByteString) : CallsEvolve (s.links inst).proxy (t.links inst).proxy := by
  by_cases hstop : ∃ inst', label = .stop inst'
  · obtain ⟨inst', rfl⟩ := hstop
    obtain ⟨l, hl, rfl⟩ := Option.map_eq_some_iff.mp hnext
    exact (Function.forall_update_iff s.links fun inst l => CallsEvolve (s.links inst).proxy l.proxy).mpr
      ⟨callsEvolve_of_eq (WorkerLink.calls_stop hl), fun _ _ => callsEvolve_of_eq rfl⟩ inst
  · exact (grows_of_move (hlinks inst) (step_linkMove hnext (fun inst' heq => hstop ⟨inst', heq⟩) inst)).calls

/-! ### What holds along a run -/

theorem responsesDue_of_reachable (hreach : ReachableWhile (system N expects enqueueMode) (fun _ => Delivers) s)
    (inst : ByteString) : (s.links inst).ResponsesDue := by
  induction hreach generalizing inst with
  | init => exact .init inst
  | @step s t label hreach hdelivers hnext ih =>
      obtain ⟨changed, l, hlinks, hchange⟩ := linkChange_step hnext
      have hdue := hchange.responsesDue (linkInv_of_reachable hreach.reachable changed) (ih changed) hdelivers
      rw [hlinks]
      exact (Function.forall_update_iff s.links fun _ l => l.ResponsesDue).mpr ⟨hdue, fun inst _ => ih inst⟩ inst

theorem linksBusy_of_reachable (hreach : Reachable (system N expects enqueueMode) s) : s.LinksBusy := by
  refine hreach.invariant ?_ fun s t label hbusy hnext => ?_
  · have hidle : ∀ inst : ByteString, WorkerLink.remaining { proxy := { instrumentName := inst } } = 0 := fun _ => rfl
    simp [LinksBusy, FinitelyBusy, system, hidle]
  · obtain ⟨inst, l, hlinks, -⟩ := linkChange_step hnext
    rw [LinksBusy, hlinks]
    exact hbusy.update inst l

theorem orderly_of_reachable (hreach : Reachable (system N expects enqueueMode) s) (c : Nat) : (s.runs c).Orderly := by
  have hall : ∀ c, (s.runs c).Orderly :=
    @Reachable.invariant _ _ _ (fun s => ∀ c, (s.runs c).Orderly) (fun _ => .init)
      (fun _ _ _ horderly hnext c => (horderly c).move (step_runMove hnext c)) s hreach
  exact hall c

/-- The futures of the runs: what a run holds has returned, no other run knows it, and `call` and `execute_parallel_buffer` wait for none that was given up. -/
structure FutureInv (s : ServerState) : Prop where
  inside : ∀ c future, (s.runs c).inCall = some future →
    ∃ call, (s.links future.1).proxy.calls future.2 = some call ∧ call.point ≠ .timedOut
  held : ∀ c future, (s.runs c).Holds future →
    ∃ call, (s.links future.1).proxy.calls future.2 = some call ∧ call.Returned
  waiting : ∀ c, ∀ future ∈ (s.runs c).futures, (s.links future.1).proxy.point future.2 ≠ some .timedOut
  alone : ∀ c c' future, (s.runs c).inCall = some future → (s.runs c').inCall = some future → c' = c
  apart : ∀ c c' future, (s.runs c).inCall = some future → ¬ (s.runs c').Holds future
  own : ∀ c c' future, (s.runs c).Holds future → (s.runs c').Holds future → c' = c

namespace FutureInv

theorem init : FutureInv (system N expects enqueueMode).init := by
  have hnone : ∀ c future, ¬ ((system N expects enqueueMode).init.runs c).Holds future := by
    simp [MeasurementRun.Holds, system]
  refine ⟨fun c future hcall => ?_, fun c future hholds => absurd hholds (hnone c future), fun c future hmem => ?_,
    fun c c' future hcall => ?_, fun c c' future _ => hnone c' future, fun c c' future hholds => absurd hholds (hnone c future)⟩
  · contradiction
  · contradiction
  · contradiction

/-- The promise of a call that begins belongs to no call yet. -/
theorem not_called (hlinks : ∀ inst, LinkInv N (s.links inst)) {future : FutureRef}
    (hnew : future.2 = (s.links future.1).proxy.promises) (call : ExecuteCall) :
    (s.links future.1).proxy.calls future.2 ≠ some call := by
  rw [(hlinks future.1).promises.fresh _ hnew.ge]
  exact (Option.some_ne_none call).symm

/-- A future that is new to a run comes from a call that begins. -/
theorem entered (hnext : s.step N expects enqueueMode label = some t) {c : Nat} {future : FutureRef}
    (hcall : (t.runs c).inCall = some future) : (s.runs c).inCall = some future ∨
      ((∃ found, label = .act c found) ∧ future.2 = (s.links future.1).proxy.promises ∧
        ∃ cmd, t.links future.1 = (s.links future.1).execute cmd) := by
  rcases MeasurementRun.inCall_of_move (step_runMove hnext c) hcall with hold | ⟨found, rfl⟩
  · exact Or.inl hold
  · exact Or.inr ⟨⟨found, rfl⟩, (act_acts hnext).enters future hcall⟩

/-- What a run holds stays with it, and what it gets back was its own. -/
theorem holds_step (hnext : s.step N expects enqueueMode label = some t) {c : Nat} {future : FutureRef}
    (hholds : (t.runs c).Holds future) : (s.runs c).Holds future ∨
      (label = .endCall c ∧ (s.runs c).inCall = some future ∧ (s.links future.1).proxy.point future.2 = some .returned) :=
  hholds.of_move (step_runMove hnext c)

theorem inside_step (h : s.FutureInv) (hlinks : ∀ inst, LinkInv N (s.links inst))
    (hnext : s.step N expects enqueueMode label = some t) {c : Nat} {future : FutureRef}
    (hcall : (t.runs c).inCall = some future) :
    ∃ call, (t.links future.1).proxy.calls future.2 = some call ∧ call.point ≠ .timedOut := by
  rcases entered hnext hcall with hold | ⟨-, hnew, cmd, hexecute⟩
  · obtain ⟨call, hfound, hpoint⟩ := h.inside c future hold
    obtain ⟨call', hfound', -⟩ := callsEvolve_step hlinks hnext future.1 future.2 call hfound
    refine ⟨call', hfound', fun htimedOut => ?_⟩
    have hpoint' : (t.links future.1).proxy.point future.2 = some .timedOut := by simp [point, hfound', htimedOut]
    rcases timedOut_step hnext hpoint' with hbefore | ⟨c', -, hmem⟩
    · simp [point, hfound, hpoint] at hbefore
    · exact h.apart c c' future hold (Or.inr (Or.inl hmem))
  · refine ⟨⟨cmd, none, .created⟩, ?_, by simp⟩
    rw [hexecute, hnew]
    exact Function.update_self ..

theorem held_step (h : s.FutureInv) (hlinks : ∀ inst, LinkInv N (s.links inst))
    (hnext : s.step N expects enqueueMode label = some t) {c : Nat} {future : FutureRef}
    (hholds : (t.runs c).Holds future) :
    ∃ call, (t.links future.1).proxy.calls future.2 = some call ∧ call.Returned := by
  have hbefore : ∃ call, (s.links future.1).proxy.calls future.2 = some call ∧ call.Returned := by
    rcases holds_step hnext hholds with hold | ⟨-, -, hpoint⟩
    · exact h.held c future hold
    · obtain ⟨call, hfound, hpoint⟩ := Option.map_eq_some_iff.mp hpoint
      exact ⟨call, hfound, Or.inl hpoint⟩
  obtain ⟨call, hfound, hreturned⟩ := hbefore
  obtain ⟨call', hfound', hevolves⟩ := callsEvolve_step hlinks hnext future.1 future.2 call hfound
  exact ⟨call', hfound', hevolves.returned hreturned⟩

theorem waiting_step (h : s.FutureInv) (hnext : s.step N expects enqueueMode label = some t) {c : Nat} {future : FutureRef}
    (hmem : future ∈ (t.runs c).futures) : (t.links future.1).proxy.point future.2 ≠ some .timedOut := by
  intro htimedOut
  rcases timedOut_step hnext htimedOut with hbefore | ⟨c', rfl, hmem'⟩ <;>
  rcases MeasurementRun.futures_of_move (step_runMove hnext c) hmem with hold | ⟨heq, hcall, hpoint⟩
  · exact h.waiting c future hold hbefore
  · rw [hpoint] at hbefore
    contradiction
  -- the run that gave the call up is the one that waited for it
  · obtain rfl := h.own c c' future (Or.inr (Or.inl hold)) (Or.inr (Or.inl hmem'))
    rw [futures_timeout hnext] at hmem
    contradiction
  · contradiction

theorem step (h : s.FutureInv) (hlinks : ∀ inst, LinkInv N (s.links inst)) (horderly : ∀ c, (s.runs c).Orderly)
    (hnext : s.step N expects enqueueMode label = some t) : t.FutureInv := by
  refine ⟨fun c future => h.inside_step hlinks hnext, fun c future => h.held_step hlinks hnext,
    fun c future => h.waiting_step hnext, fun c c' future hcall hcall' => ?_, fun c c' future hcall hholds => ?_,
    fun c c' future hholds hholds' => ?_⟩
  · rcases entered hnext hcall with hold | ⟨⟨found, rfl⟩, hnew, -⟩ <;>
    rcases entered hnext hcall' with hold' | ⟨⟨found', heq⟩, hnew', -⟩
    · exact h.alone c c' future hold hold'
    · obtain ⟨call, hfound, -⟩ := h.inside c future hold
      exact absurd hfound (not_called hlinks hnew' call)
    · obtain ⟨call, hfound, -⟩ := h.inside c' future hold'
      exact absurd hfound (not_called hlinks hnew call)
    · exact (ServerLabel.act.inj heq).1.symm
  · rcases entered hnext hcall with hold | ⟨⟨found, rfl⟩, hnew, -⟩ <;>
    rcases holds_step hnext hholds with hold' | ⟨heq, hold', -⟩
    · exact h.apart c c' future hold hold'
    -- the thread that gets the future back has left the call
    · obtain rfl := h.alone c c' future hold hold'
      subst heq
      obtain ⟨call, hfound, -⟩ := h.inside c' future hold
      exact not_called hlinks ((endCall_acts (horderly c') hnext).enters future hcall).1 call hfound
    · obtain ⟨call, hfound, -⟩ := h.held c' future hold'
      exact not_called hlinks hnew call hfound
    · contradiction
  · rcases holds_step hnext hholds with hold | ⟨-, hcall, -⟩ <;>
    rcases holds_step hnext hholds' with hold' | ⟨-, hcall', -⟩
    · exact h.own c c' future hold hold'
    · exact absurd hold (h.apart c' c future hcall')
    · exact absurd hold' (h.apart c c' future hcall)
    · exact h.alone c c' future hcall hcall'

end FutureInv

theorem futureInv_of_reachable (hreach : Reachable (system N expects enqueueMode) s) : s.FutureInv := by
  induction hreach with
  | init => exact .init
  | step hreach _ hnext ih => exact ih.step (linkInv_of_reachable hreach) (orderly_of_reachable hreach) hnext

/-! ### Where no step is left -/

theorem rests_of_atRest {R : Finset Nat} (hrest : (system N expects enqueueMode).AtRest (Closing R) s) (inst : ByteString) :
    (s.links inst).Rests N where
  listen := Option.map_eq_none_iff.mp (hrest (.listen inst) trivial)
  receive := Option.map_eq_none_iff.mp (hrest (.workerReceive inst) trivial)
  finish plugin := Option.map_eq_none_iff.mp (hrest (.workerFinish inst plugin true) rfl)
  ack := Option.map_eq_none_iff.mp (hrest (.workerAck inst true) trivial)

/-- A thread that is kept inside `execute` is at a link that was stopped. -/
theorem silent_of_inCall (hreach : ReachableWhile (system N expects enqueueMode) (fun _ => Delivers) s) {R : Finset Nat}
    (hrest : (system N expects enqueueMode).AtRest (Closing R) s) {c : Nat} (hc : c ∈ R) {future : FutureRef}
    (hcall : (s.runs c).inCall = some future) : (s.links future.1).Silent N := by
  obtain ⟨call, hfound, htimedOut⟩ := (futureInv_of_reachable hreach.reachable).inside c future hcall
  refine Or.inl fun hrunning => ?_
  have hleave : s.endCall c = none := hrest (.endCall c) hc
  have hactive : ¬ call.Ended := by
    rintro ((hpoint | hpoint) | hpoint)
    · simp [endCall, hcall, point, hfound, hpoint] at hleave
    · exact htimedOut hpoint
    · simp [endCall, hcall, point, hfound, hpoint] at hleave
  exact (responsesDue_of_reachable hreach future.1).advances hfound hactive hrunning
    (Option.map_eq_none_iff.mp (hrest (.advance future.1 future.2 true) trivial))

/-- A future that a run holds gets its value, unless the link is silent. -/
theorem silent_of_holds (hreach : ReachableWhile (system N expects enqueueMode) (fun _ => Delivers) s) {R : Finset Nat}
    (hrest : (system N expects enqueueMode).AtRest (Closing R) s) {c : Nat} {future : FutureRef}
    (hholds : (s.runs c).Holds future) (hvalue : (s.links future.1).proxy.values future.2 = none) :
    (s.links future.1).Silent N := by
  obtain ⟨call, hfound, hreturned⟩ := (futureInv_of_reachable hreach.reachable).held c future hholds
  exact (responsesDue_of_reachable hreach future.1).silent (linkInv_of_reachable hreach.reachable future.1)
    (rests_of_atRest hrest future.1) hfound hreturned hvalue

/-- `call` in synchronous mode can always go on: it gets its response, or it gives up. -/
theorem awaitCall_moves (hreach : Reachable (system N expects enqueueMode) s) {c : Nat} {name : CallName} {params : ParamMap}
    {todo : List RunAction} (hcall : (s.runs c).inCall = none) (htodo : (s.runs c).todo = .awaitCall name params :: todo) :
    s.act c true ≠ none ∨ s.timeout c ≠ none := by
  have hfutureInv := futureInv_of_reachable hreach
  cases hfutures : (s.runs c).futures with
  | nil => exact Or.inl (by simp [act, hcall, htodo, hfutures])
  | cons future futures =>
      cases hvalue : (s.links future.1).proxy.values future.2 with
      | some resp => exact Or.inl (by simp [act, hcall, htodo, hfutures, hvalue])
      | none =>
          have hmem : future ∈ (s.runs c).futures := hfutures ▸ List.mem_cons_self ..
          obtain ⟨⟨cmd, msgId, callPoint⟩, hfound, hreturned⟩ := hfutureInv.held c future (Or.inr (Or.inl hmem))
          have hpoint : callPoint = .returned := by
            refine hreturned.resolve_right fun htimedOut => hfutureInv.waiting c future hmem ?_
            rw [point, hfound]
            exact congrArg some htimedOut
          refine Or.inr ?_
          simp [timeout, WorkerLink.waitTimeout, InstrumentWorkerProxy.waitTimeout, hcall, htodo, hfutures, hfound, hvalue, hpoint]

/-- A run that cannot go on is over, or kept by a future at a silent link. -/
theorem over_or_silent (hreach : ReachableWhile (system N expects enqueueMode) (fun _ => Delivers) s) {R : Finset Nat}
    (hrest : (system N expects enqueueMode).AtRest (Closing R) s) {c : Nat} (hc : c ∈ R) :
    (s.runs c).Over ∨ ∃ future ∈ (s.runs c).keptBy?, (s.links future.1).Silent N := by
  have hact : ∀ found, s.act c found = none := fun found => hrest (.act c found) hc
  cases hcall : (s.runs c).inCall with
  | some future => exact Or.inr ⟨future, by simp [MeasurementRun.keptBy?, hcall], silent_of_inCall hreach hrest hc hcall⟩
  | none =>
      cases htodo : (s.runs c).todo with
      | nil =>
          refine Or.inl ?_
          cases hphase : (s.runs c).phase with
          | script =>
              have hend : (s.runs c).endScript (enqueueMode c) = none := Option.map_eq_none_iff.mp (hrest (.endScript c) hc)
              simp [MeasurementRun.endScript, MeasurementRun.AtScript, hphase, htodo, hcall] at hend
          | monitor =>
              have hdone := hact true
              simp [act, hcall, htodo, hphase] at hdone
          | done => exact Or.inl hphase
          | failed => exact Or.inr hphase
      | cons action todo =>
          refine Or.inr ?_
          cases action with
          | dispatch | release | clear | send =>
              have hmoves := hact true
              simp [act, hcall, htodo] at hmoves
          | await token i future =>
              have hwaits := hact true
              refine ⟨future, by simp [MeasurementRun.keptBy?, hcall, htodo], ?_⟩
              refine silent_of_holds hreach hrest (Or.inr (Or.inr ⟨token, i, htodo ▸ List.mem_cons_self ..⟩)) ?_
              refine Option.eq_none_iff_forall_ne_some.mpr fun resp hvalue => ?_
              simp [act, hcall, htodo, hvalue] at hwaits
          | awaitCall name params =>
              rcases awaitCall_moves hreach.reachable hcall htodo with hmoves | hmoves
              · exact absurd (hact true) hmoves
              · exact absurd (hrest (.timeout c) hc) hmoves
          | awaitBlock =>
              have hwaits := hact true
              cases hfutures : (s.runs c).futures with
              | nil => simp [act, hcall, htodo, hfutures] at hwaits
              | cons future futures =>
                  refine ⟨future, by simp [MeasurementRun.keptBy?, hcall, htodo, hfutures], ?_⟩
                  refine silent_of_holds hreach hrest (Or.inr (Or.inl (hfutures ▸ List.mem_cons_self ..))) ?_
                  refine Option.eq_none_iff_forall_ne_some.mpr fun resp hvalue => ?_
                  simp [act, hcall, htodo, hfutures, hvalue] at hwaits

end ServerState

/-- Two jobs have a command for one instrument on the way. -/
def twoJobsSent : List ServerLabel :=
  [.begin 0 (.call [bytes "DMM"] ⟨bytes "DMM.MEASURE", .positional []⟩) true] ++ ServerState.sentTo 0 (bytes "DMM") 0 ++
    [.begin 1 (.call [bytes "DMM"] ⟨bytes "DMM.READ", .positional []⟩) true] ++ ServerState.sentTo 1 (bytes "DMM") 1

end InstrumentServer
