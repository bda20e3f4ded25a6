import InstrumentServer.Lib.Progress
import InstrumentServer.Server.AwaitedResponses
import InstrumentServer.Server.Measurement
import InstrumentServer.Server.ResultBookkeeping

/-!
# The steps a measurement has left

Once the scripts make no further call, everything that is still to be done on the server and in the workers is counted: the actions of the runs, the calls of `execute`, the messages in the queues and the command in each worker. Every step makes the count smaller, however the threads are interleaved.
-/

namespace InstrumentServer

open Ipc Transition InstrumentWorkerProxy

/-! ### What is left to do on a link -/

/-- The steps a call of `execute` still sets off, on both sides of the queues. -/
def ExecutePoint.remaining : ExecutePoint → Nat
  | .created => 11
  | .numbered => 10
  | .stored => 9
  | .encoded _ => 8
  | .unsent => 1
  | .returned | .raised | .timedOut => 0

/-- An acknowledgement may make the listener release the barrier. -/
def WorkerPhase.remaining : WorkerPhase → Nat
  | .executing _ _ => 6
  | .acknowledging _ _ _ => 3
  | .idle | .exited => 0

def callSteps (call : Option ExecuteCall) : Nat := (call.map fun call => call.point.remaining).getD 0

def requestSteps (msg : IpcMessage) : Nat := if msg.type = .command then 7 else 1

theorem requestSteps_le (msg : IpcMessage) : requestSteps msg ≤ 7 := by
  rw [requestSteps]
  split <;> omega

namespace WorkerLink

variable {N : JsonLibrary} {l l' : WorkerLink}

def remaining (l : WorkerLink) : Nat :=
  ∑ p ∈ Finset.range l.proxy.promises, callSteps (l.proxy.calls p) + (l.requests.map requestSteps).sum +
    2 * l.responses.length + l.worker.phase.remaining

theorem remaining_execute (l : WorkerLink) (cmd : SerializedCommand) : (l.execute cmd).remaining = l.remaining + 11 := by
  have hold : ∑ p ∈ Finset.range l.proxy.promises,
      callSteps (Function.update l.proxy.calls l.proxy.promises (some ⟨cmd, none, .created⟩) p) =
        ∑ p ∈ Finset.range l.proxy.promises, callSteps (l.proxy.calls p) :=
    Finset.sum_congr rfl fun p hp => by rw [Function.update_of_ne (Finset.mem_range.mp hp).ne]
  have hsum : ∑ p ∈ Finset.range (l.proxy.promises + 1),
      callSteps (Function.update l.proxy.calls l.proxy.promises (some ⟨cmd, none, .created⟩) p) =
        ∑ p ∈ Finset.range l.proxy.promises, callSteps (l.proxy.calls p) + 11 := by
    rw [Finset.sum_range_succ, hold, Function.update_self]
    rfl
  show ∑ p ∈ Finset.range (l.proxy.promises + 1),
    callSteps (Function.update l.proxy.calls l.proxy.promises (some ⟨cmd, none, .created⟩) p) + _ + _ + _ = _
  rw [hsum, remaining]
  simp only [WorkerLink.execute, create, setCall]
  omega

theorem remaining_sendSyncContinue (l : WorkerLink) (syncToken : SyncToken) :
    (l.sendSyncContinue syncToken).remaining = l.remaining + 1 := by
  simp only [WorkerLink.sendSyncContinue, remaining, List.map_append, List.sum_append, List.map_cons, List.map_nil,
    List.sum_cons, List.sum_nil, requestSteps, reduceCtorEq, if_false]
  omega

/-- A call moves on, and what it sends weighs less than the step it took. -/
theorem remaining_update (hinv : LinkInv N l) {p : PromiseId} {call call' : ExecuteCall} {px' : InstrumentWorkerProxy}
    {msgs commands : List IpcMessage} (hcall : l.proxy.calls p = some call)
    (hcalls : px'.calls = Function.update l.proxy.calls p (some call')) (hpromises : px'.promises = l.proxy.promises)
    (hless : call'.point.remaining + (msgs.map requestSteps).sum < call.point.remaining) :
    remaining { l with proxy := px', requests := l.requests ++ msgs, commands } < l.remaining := by
  have hp : p ∈ Finset.range l.proxy.promises := Finset.mem_range.mpr (hinv.promises.lt_promises hcall)
  have hsum : ∑ q ∈ Finset.range l.proxy.promises, callSteps (px'.calls q) + (msgs.map requestSteps).sum <
      ∑ q ∈ Finset.range l.proxy.promises, callSteps (l.proxy.calls q) := by
    rw [hcalls]
    exact sum_update_add_lt hp (by rw [hcall]; exact hless)
  simp only [remaining, hpromises, List.map_append, List.sum_append]
  omega

theorem remaining_advance (hinv : LinkInv N l) {p : PromiseId} {sent : Bool} (hnext : l.advance N p sent = some l') :
    l'.remaining < l.remaining := by
  obtain ⟨⟨px', msgs⟩, hadvance, rfl⟩ := Option.map_eq_some_iff.mp hnext
  obtain ⟨call, hcall, hstep⟩ := advance_cases hadvance
  cases hstep with
  | draw hpoint => exact remaining_update hinv hcall rfl rfl (by simp [hpoint, ExecutePoint.remaining])
  | store hpoint hm => exact remaining_update hinv hcall rfl rfl (by simp [hpoint, ExecutePoint.remaining])
  | @encode m hpoint hm =>
      cases htext : serializeCommand N call.cmd with
      | ok text =>
          simp only [InstrumentWorkerProxy.encode, htext]
          exact remaining_update hinv hcall rfl rfl (by simp [hpoint, ExecutePoint.remaining])
      | error e =>
          simp only [InstrumentWorkerProxy.encode, htext]
          exact remaining_update hinv hcall rfl rfl (by simp [hpoint, ExecutePoint.remaining])
  | @send msg stats hpoint =>
      refine remaining_update hinv hcall rfl rfl ?_
      have hmsg := requestSteps_le msg
      simp only [hpoint, ExecutePoint.remaining, List.map_cons, List.map_nil, List.sum_cons, List.sum_nil]
      omega
  | fail hpoint => exact remaining_update hinv hcall rfl rfl (by simp [hpoint, ExecutePoint.remaining])
  | @resolve m hpoint hm =>
      cases hfind : SortedAssoc.find? m l.proxy.pendingResponses with
      | some owner =>
          rw [resolveUnsent_some hfind]
          exact remaining_update hinv hcall rfl rfl (by simp [hpoint, ExecutePoint.remaining])
      | none =>
          rw [resolveUnsent_none hfind]
          exact remaining_update hinv hcall rfl rfl (by simp [hpoint, ExecutePoint.remaining])

theorem remaining_waitTimeout {p : PromiseId} (hnext : l.waitTimeout p = some l') :
    l'.remaining = l.remaining := by
  obtain ⟨px', htimeout, rfl⟩ := Option.map_eq_some_iff.mp hnext
  obtain ⟨call, stats, hcall, hpoint, rfl⟩ := waitTimeout_cases htimeout
  have hsum : ∀ q, callSteps (Function.update l.proxy.calls p (some { call with point := .timedOut }) q) =
      callSteps (l.proxy.calls q) := by
    intro q
    by_cases hq : q = p
    · rw [hq, Function.update_self, hcall]
      simp [callSteps, ExecutePoint.remaining, hpoint]
    · rw [Function.update_of_ne hq]
  simp only [remaining, setCall, hsum]

/-- A message that the listener takes leaves room for a release. -/
theorem remaining_listen {token : Option SyncToken} (hnext : l.listen N = some (l', token)) :
    l'.remaining + 2 = l.remaining := by
  obtain ⟨msg, rest, px', hresponses, hreceive, rfl, -⟩ := listen_cases hnext
  have hproxy : px'.calls = l.proxy.calls ∧ px'.promises = l.proxy.promises := by
    rcases receive_moves hreceive with ⟨resp, p, stats, -, -, -, rfl⟩ | ⟨-, rfl⟩
    · exact ⟨rfl, rfl⟩
    · exact ⟨rfl, rfl⟩
  simp only [remaining, hproxy.1, hproxy.2, hresponses, List.length_cons]
  omega

theorem remaining_workerReceive (hinv : LinkInv N l) (hnext : l.workerReceive N = some l') : l'.remaining < l.remaining := by
  obtain ⟨msg, rest, w, hrequests, hreceive, rfl⟩ := workerReceive_cases hnext
  obtain ⟨hidle, -, hcases⟩ := Instrument.receive_cases hinv.unblocked hreceive
  have hphase : w.phase.remaining < requestSteps msg := by
    rcases hcases with ⟨-, hphase⟩ | ⟨htype, cmd, -, hphase⟩ | hphase
    · rw [hphase, requestSteps]
      split <;> simp [WorkerPhase.remaining]
    · simp [hphase, htype, requestSteps, WorkerPhase.remaining]
    · rw [hphase, requestSteps]
      split <;> simp [WorkerPhase.remaining]
  have hbefore : l.worker.phase.remaining = 0 := by rw [hidle, WorkerPhase.remaining]
  simp only [remaining, hrequests, hbefore, List.map_cons, List.sum_cons]
  omega

theorem remaining_workerFinish {plugin : PluginResponse} {delivered : Bool}
    (hnext : l.workerFinish N plugin delivered = some l') : l'.remaining < l.remaining := by
  obtain ⟨msg, cmd, w, msgs, hphase, hfinish, rfl⟩ := workerFinish_cases hnext
  have hless : 2 * msgs.length + w.phase.remaining < 6 := by
    rw [Instrument.finishCommand, hphase] at hfinish
    dsimp only at hfinish
    split at hfinish
    · split at hfinish <;>
      · obtain ⟨rfl, rfl⟩ := Prod.mk.inj (Option.some.inj hfinish)
        simp [WorkerPhase.remaining]
    · obtain ⟨rfl, rfl⟩ := Prod.mk.inj (Option.some.inj hfinish)
      simp [WorkerPhase.remaining]
  have hlength : (if delivered then l.responses ++ msgs else l.responses).length ≤ l.responses.length + msgs.length := by
    split
    · exact (List.length_append ..).le
    · exact Nat.le_add_right _ _
  have hbefore : l.worker.phase.remaining = 6 := by rw [hphase, WorkerPhase.remaining]
  simp only [remaining, hbefore]
  omega

theorem remaining_workerAck {delivered : Bool} (hnext : l.workerAck delivered = some l') : l'.remaining < l.remaining := by
  obtain ⟨⟨w, msgs⟩, hack, rfl⟩ := Option.map_eq_some_iff.mp hnext
  obtain ⟨id, token, last, hphase, rfl, rfl⟩ := Instrument.sendSyncAck_cases hack
  have hlength : (if delivered then l.responses ++ [{ type := .syncAck, id, syncToken := token }] else l.responses).length ≤
      l.responses.length + 1 := by
    split
    · exact (List.length_append ..).le
    · exact Nat.le_add_right _ _
  have hbefore : l.worker.phase.remaining = 3 := by rw [hphase, WorkerPhase.remaining]
  have hafter : WorkerPhase.idle.remaining = 0 := rfl
  simp only [remaining, hbefore, hafter]
  omega

end WorkerLink

/-! ### What is left to do in a run -/

/-- An action that enters `execute` pays for the call, for its own end and for the future it leaves behind. -/
def RunAction.remaining : RunAction → Nat
  | .dispatch _ _ _ | .send _ => 14
  | .release _ _ => 2
  | .await _ _ _ | .clear _ | .awaitCall _ _ | .awaitBlock => 1

/-- What the monitor will do for the tokens of the context. -/
def tokenSteps (ctx : RuntimeContext FutureRef) : Nat :=
  (ctx.tokenOrder.map fun token => (ctx.tokenFutures token).length + 2 * (ctx.tokenInstruments token).length + 1).sum

namespace MeasurementRun

/-- The monitor goes through the tokens when the script has ended. -/
def phaseSteps (tokens : Nat) : RunPhase → Nat
  | .script => 2 + tokens
  | .monitor => 1
  | .done | .failed => 0

def remaining (run : MeasurementRun) : Nat :=
  (run.todo.map RunAction.remaining).sum + run.futures.length + (if run.inCall.isSome then 0 else 12) +
    phaseSteps (tokenSteps run.ctx) run.phase

theorem sum_tokenActions (ctx : RuntimeContext FutureRef) :
    ((ctx.tokenOrder.flatMap (tokenActions ctx)).map RunAction.remaining).sum = tokenSteps ctx := by
  rw [tokenSteps]
  induction ctx.tokenOrder with
  | nil => rfl
  | cons token order ih =>
      have htoken : ((tokenActions ctx token).map RunAction.remaining).sum =
          (ctx.tokenFutures token).length + 2 * (ctx.tokenInstruments token).length + 1 := by
        simp [tokenActions, RunAction.remaining, List.map_const', Function.comp_def, Nat.mul_comm, Nat.add_assoc]
      rw [List.flatMap_cons, List.map_append, List.sum_append, ih, htoken]
      rfl

/-- A response goes into the results and leaves the tokens alone. -/
theorem tokens_fill (ctx : RuntimeContext FutureRef) (token : SyncToken) (i : Nat) (resp : CommandResponse) :
    (ctx.fill token i (some resp)).tokenOrder = ctx.tokenOrder ∧
      (ctx.fill token i (some resp)).tokenInstruments = ctx.tokenInstruments ∧
        (ctx.fill token i (some resp)).tokenFutures = ctx.tokenFutures := by
  simp only [RuntimeContext.fill]
  split <;> exact ⟨rfl, rfl, rfl⟩

/-- The tokens of a run are different, and a thread inside `execute` is at an action that calls it. -/
structure Orderly (run : MeasurementRun) : Prop where
  distinct : run.ctx.tokenOrder.Nodup
  below : ∀ token ∈ run.ctx.tokenOrder, token < run.ctx.nextSyncToken
  calling : ∀ future, run.inCall = some future →
    (∃ token entry held todo, run.todo = .dispatch token entry held :: todo) ∨ ∃ cmd todo, run.todo = .send cmd :: todo

variable {run run' : MeasurementRun}

/-- A future is recorded under one token. -/
theorem tokenSteps_dispatch_le (hdistinct : run.ctx.tokenOrder.Nodup) (token : SyncToken) (cr : CallResult)
    (future : FutureRef) : tokenSteps (run.ctx.dispatch token cr (.sent future)) ≤ tokenSteps run.ctx + 1 := by
  refine sum_map_le (i := token) hdistinct ?_ fun other hother => ?_
  · simp [RuntimeContext.dispatch, RuntimeContext.pushFuture, RuntimeContext.pushResult]
    omega
  · simp [RuntimeContext.dispatch, RuntimeContext.pushFuture, RuntimeContext.pushResult, hother]

/-- An action is done, and nothing else is new. -/
theorem remaining_pop {action : RunAction} {todo : List RunAction} (htodo : run.todo = action :: todo)
    (hcall : run'.inCall = run.inCall) (htodo' : run'.todo = todo) (hfutures : run'.futures.length ≤ run.futures.length)
    (hphase : run'.phase = run.phase) (hctx : tokenSteps run'.ctx = tokenSteps run.ctx) :
    run'.remaining + action.remaining ≤ run.remaining := by
  simp only [remaining, htodo, hcall, htodo', hphase, hctx, List.map_cons, List.sum_cons]
  omega

/-- `call` in synchronous mode is done, with a response or without. -/
theorem remaining_recordCall {name : CallName} {params : ParamMap} {todo : List RunAction}
    (htodo : run.todo = .awaitCall name params :: todo) (resp : CommandResponse) :
    ({ run.recordCall name params resp with todo } : MeasurementRun).remaining < run.remaining := by
  have hpop := @remaining_pop run { run.recordCall name params resp with todo } _ _ htodo rfl rfl (Nat.zero_le _) rfl rfl
  rw [RunAction.remaining] at hpop
  exact hpop

theorem remaining_sent (h : run.Orderly) {future : FutureRef} (hcall : run.inCall = some future) :
    (run.sent future).remaining < run.remaining := by
  rcases h.calling future hcall with ⟨token, entry, held, todo, htodo⟩ | ⟨cmd, todo, htodo⟩
  · have hsteps := tokenSteps_dispatch_le h.distinct token entry.result future
    simp only [sent, remaining, phaseSteps, htodo, hcall, List.map_cons, List.sum_cons, RunAction.remaining]
    cases run.phase <;> simp <;> omega
  · simp only [sent, remaining, phaseSteps, htodo, hcall, List.map_cons, List.sum_cons, RunAction.remaining, List.length_append]
    simp
    omega

theorem remaining_raised (h : run.Orderly) {future : FutureRef} (hcall : run.inCall = some future) :
    run.raised.remaining < run.remaining := by
  rcases h.calling future hcall with ⟨token, entry, held, todo, htodo⟩ | ⟨cmd, todo, htodo⟩
  · have hsteps : tokenSteps (run.ctx.dispatch token entry.result .raised) = tokenSteps run.ctx := rfl
    simp only [raised, remaining, phaseSteps, htodo, hcall, List.map_cons, List.sum_cons, RunAction.remaining, hsteps]
    cases run.phase <;> simp <;> omega
  · simp only [raised, remaining, phaseSteps, htodo, hcall, List.map_cons, List.sum_cons, RunAction.remaining]
    simp
    omega

namespace Orderly

theorem init : Orderly {} := ⟨List.nodup_nil, by simp, by simp⟩

/-- The thread is outside `execute`, and the tokens are as before. -/
theorem keep (h : run.Orderly) (horder : run'.ctx.tokenOrder = run.ctx.tokenOrder)
    (hnext : run.ctx.nextSyncToken ≤ run'.ctx.nextSyncToken) (hcall : run'.inCall = none) : run'.Orderly := by
  refine ⟨horder ▸ h.distinct, fun token htoken => ?_, by simp [hcall]⟩
  exact (h.below token (horder ▸ htoken)).trans_le hnext

theorem move (h : run.Orderly) {expects : ByteString → ByteString → Bool} {enqueueMode : Bool} {s t : ServerState} {c : Nat}
    {label : ServerLabel} (hmove : ServerState.RunMove expects enqueueMode s t c run label run') : run'.Orderly := by
  cases hmove with
  | rest => exact h
  | beginEnqueue hmode hscript op found =>
      rcases run.beginEnqueue_cases found op with heq | ⟨todo, heq, -⟩
      · rwa [heq]
      · rw [heq]
        refine ⟨?_, fun token htoken => ?_, fun future hcall => ?_⟩
        · refine List.nodup_append.mpr ⟨h.distinct, List.nodup_singleton _, fun token htoken other hother => ?_⟩
          rw [List.mem_singleton.mp hother]
          exact (h.below token htoken).ne
        · rcases List.mem_append.mp htoken with hold | hnew
          · exact (h.below token hold).trans (Nat.lt_succ_self _)
          · rw [List.mem_singleton.mp hnew]
            exact Nat.lt_succ_self _
        · have hnone : run.inCall = some future := hcall
          rw [hscript.2.2] at hnone
          contradiction
  | beginSync hmode hscript op found =>
      rcases run.beginSync_cases op with heq | ⟨todo, -, heq | ⟨instruments, heq⟩⟩
      · rwa [heq]
      · rw [heq]
        exact h.keep rfl le_rfl hscript.2.2
      · rw [heq]
        exact h.keep rfl (Nat.le_succ _) hscript.2.2
  | monitor hmode hscript => exact h.keep rfl le_rfl hscript.2.2
  | done hmode hscript => exact h.keep rfl le_rfl hscript.2.2
  | fail hscript => exact h.keep rfl le_rfl hscript.2.2
  | finish hcall => exact ⟨List.nodup_nil, by simp [RuntimeContext.clearTokens], by simp [hcall]⟩
  | dispatch hcall htodo => exact ⟨h.distinct, h.below, fun _ _ => Or.inl ⟨_, _, _, _, htodo⟩⟩
  | send hcall htodo => exact ⟨h.distinct, h.below, fun _ _ => Or.inr ⟨_, _, htodo⟩⟩
  | noWorker hcall => exact h.keep (RuntimeContext.tokenOrder_dispatch ..) (RuntimeContext.nextSyncToken_dispatch ..).ge hcall
  | await hcall => exact h.keep (tokens_fill ..).1 (RuntimeContext.nextSyncToken_fill ..).ge hcall
  | release hcall | clear hcall | skip hcall | recordCall hcall | recordBlock hcall | endBlock hcall =>
      exact h.keep rfl le_rfl hcall
  | @sent future hcall hpoint =>
      rcases h.calling future hcall with ⟨token, entry, held, todo, htodo⟩ | ⟨cmd, todo, htodo⟩
      · rw [sent, htodo]
        exact h.keep (RuntimeContext.tokenOrder_dispatch ..) (RuntimeContext.nextSyncToken_dispatch ..).ge rfl
      · rw [sent, htodo]
        exact h.keep rfl le_rfl rfl
  | @raised future hcall hpoint =>
      rcases h.calling future hcall with ⟨token, entry, held, todo, htodo⟩ | ⟨cmd, todo, htodo⟩
      · rw [raised, htodo]
        exact h.keep (RuntimeContext.tokenOrder_dispatch ..) (RuntimeContext.nextSyncToken_dispatch ..).ge rfl
      · rw [raised, htodo]
        exact h.keep rfl le_rfl rfl

end Orderly

end MeasurementRun

/-! ### What a run does to the links -/

/-- What a step of a run puts on a link: nothing, a call of `execute` or a release. -/
inductive LinkEffect (l : WorkerLink) : Nat → WorkerLink → Prop
  | rest : LinkEffect l 0 l
  | execute (cmd : SerializedCommand) : LinkEffect l 11 (l.execute cmd)
  | release (syncToken : SyncToken) : LinkEffect l 1 (l.sendSyncContinue syncToken)

theorem LinkEffect.remaining {l l' : WorkerLink} {k : Nat} (h : LinkEffect l k l') : l'.remaining = l.remaining + k := by
  cases h with
  | rest => rfl
  | execute cmd => exact l.remaining_execute cmd
  | release syncToken => exact l.remaining_sendSyncContinue syncToken

namespace ServerState

variable {N : JsonLibrary} {expects : ByteString → ByteString → Bool} {enqueueMode : Nat → Bool} {s t : ServerState}

/-- Run `c` moves, and pays for what it puts on a link; it enters `execute` with a call of its own. -/
structure Acts (s t : ServerState) (c : Nat) : Prop where
  pays : ∃ run inst l k, t.runs = Function.update s.runs c run ∧ t.links = Function.update s.links inst l ∧
    LinkEffect (s.links inst) k l ∧ run.remaining + k < (s.runs c).remaining
  enters : ∀ future, (t.runs c).inCall = some future →
    future.2 = (s.links future.1).proxy.promises ∧ ∃ cmd, t.links future.1 = (s.links future.1).execute cmd

theorem acts_setRun {c : Nat} {run : MeasurementRun} (hcall : run.inCall = none)
    (hless : run.remaining < (s.runs c).remaining) : Acts s (s.setRun c run) c := by
  refine ⟨⟨run, [], s.links [], 0, rfl, (Function.update_eq_self ..).symm, .rest, hless⟩, fun future hinside => ?_⟩
  have hrun : (s.setRun c run).runs c = run := Function.update_self ..
  rw [hrun, hcall] at hinside
  contradiction

theorem acts_execute {c : Nat} {run : MeasurementRun} {cmd : SerializedCommand} (hcall : (s.runs c).inCall = none)
    (htodo : run.todo = (s.runs c).todo) (hfutures : run.futures = (s.runs c).futures)
    (hphase : run.phase = (s.runs c).phase) (hctx : run.ctx = (s.runs c).ctx) : Acts s (s.execute c run cmd) c := by
  refine ⟨⟨_, cmd.instrumentName, _, 11, rfl, rfl, .execute cmd, ?_⟩, fun future hentered => ?_⟩
  rotate_left
  · obtain rfl : (cmd.instrumentName, (s.links cmd.instrumentName).proxy.promises) = future := by
      simpa [execute, setRun] using hentered
    exact ⟨rfl, cmd, Function.update_self ..⟩
  have hinside : (some (cmd.instrumentName, (s.links cmd.instrumentName).proxy.promises)).isSome = true := rfl
  simp only [MeasurementRun.remaining, htodo, hfutures, hphase, hctx, hcall, hinside, Option.isSome_none, Bool.false_eq_true,
    if_true, if_false]
  omega

/-- The next action is done, with no link involved. -/
theorem acts_pop {c : Nat} {run : MeasurementRun} {action : RunAction} {todo : List RunAction}
    (htodo : (s.runs c).todo = action :: todo) (hcall : (s.runs c).inCall = none) (hcall' : run.inCall = none) (htodo' : run.todo = todo)
    (hfutures : run.futures.length ≤ (s.runs c).futures.length) (hphase : run.phase = (s.runs c).phase)
    (hctx : tokenSteps run.ctx = tokenSteps (s.runs c).ctx) : Acts s (s.setRun c run) c := by
  have hless := MeasurementRun.remaining_pop htodo (hcall'.trans hcall.symm) htodo' hfutures hphase hctx
  have hpositive : 0 < action.remaining := by cases action <;> simp [RunAction.remaining]
  exact acts_setRun hcall' (by omega)

theorem act_acts {c : Nat} {found : Bool} (hnext : s.act c found = some t) : Acts s t c := by
  rw [act] at hnext
  dsimp only at hnext
  split at hnext
  · contradiction
  · rename_i hcall htodo
    obtain ⟨hphase, heq⟩ := Option.ite_none_right_eq_some.mp hnext
    obtain rfl := Option.some.inj heq
    refine acts_setRun hcall ?_
    simp [MeasurementRun.remaining, MeasurementRun.phaseSteps, hphase]
  · rename_i token entry held todo hcall htodo
    split at hnext
    · obtain rfl := Option.some.inj hnext
      exact acts_execute hcall rfl rfl rfl rfl
    · obtain rfl := Option.some.inj hnext
      exact acts_pop htodo hcall hcall rfl le_rfl rfl rfl
  · rename_i token i future todo hcall htodo
    split at hnext
    · rename_i resp hvalue
      obtain rfl := Option.some.inj hnext
      refine acts_pop htodo hcall hcall rfl le_rfl rfl ?_
      obtain ⟨horder, hinstruments, hfutures⟩ := MeasurementRun.tokens_fill (s.runs c).ctx token i resp
      simp only [tokenSteps, horder, hinstruments, hfutures]
    · contradiction
  · rename_i token inst todo hcall htodo
    obtain rfl := Option.some.inj hnext
    split
    · refine ⟨⟨{ s.runs c with todo }, inst, _, 1, rfl, rfl, .release token, ?_⟩, fun future hentered => ?_⟩
      rotate_left
      · have hinside : (s.runs c).inCall = some future := by simpa [setRun, setLink] using hentered
        rw [hcall] at hinside
        contradiction
      have hless := @MeasurementRun.remaining_pop _ { s.runs c with todo } _ _ htodo rfl rfl le_rfl rfl rfl
      rw [RunAction.remaining] at hless
      omega
    · exact acts_pop htodo hcall hcall rfl le_rfl rfl rfl
  · rename_i token todo hcall htodo
    obtain rfl := Option.some.inj hnext
    exact acts_pop htodo hcall hcall rfl le_rfl rfl rfl
  · rename_i cmd todo hcall htodo
    obtain rfl := Option.some.inj hnext
    split
    · exact acts_execute hcall rfl rfl rfl rfl
    · exact acts_pop htodo hcall hcall rfl le_rfl rfl rfl
  · rename_i name params todo hcall htodo
    split at hnext
    · obtain rfl := Option.some.inj hnext
      exact acts_pop htodo hcall hcall rfl (Nat.zero_le _) rfl rfl
    · split at hnext
      · obtain rfl := Option.some.inj hnext
        exact acts_pop htodo hcall hcall rfl (Nat.zero_le _) rfl rfl
      · contradiction
  · rename_i todo hcall htodo
    split at hnext
    · obtain rfl := Option.some.inj hnext
      exact acts_pop htodo hcall hcall rfl le_rfl rfl rfl
    · rename_i future futures hfutures
      split at hnext
      · obtain rfl := Option.some.inj hnext
        refine acts_setRun hcall ?_
        have hctx : ∀ cr, tokenSteps ((s.runs c).ctx.record cr) = tokenSteps (s.runs c).ctx := fun _ => rfl
        simp only [MeasurementRun.remaining, hfutures, hctx, List.length_cons]
        omega
      · contradiction

theorem endScript_acts {c : Nat} {run : MeasurementRun} (hnext : (s.runs c).endScript (enqueueMode c) = some run) :
    Acts s (s.setRun c run) c := by
  obtain ⟨⟨hphase, htodo, hcall⟩, heq⟩ := Option.ite_none_right_eq_some.mp hnext
  obtain rfl := Option.some.inj heq
  rw [List.isEmpty_iff] at htodo
  refine acts_setRun (by split <;> exact hcall) ?_
  split
  · have htokens := MeasurementRun.sum_tokenActions (s.runs c).ctx
    simp only [MeasurementRun.remaining, MeasurementRun.phaseSteps, htokens, htodo, hphase, List.map_nil, List.sum_nil]
    omega
  · simp only [MeasurementRun.remaining, MeasurementRun.phaseSteps, hphase]
    omega

theorem fail_acts {c : Nat} {run : MeasurementRun} (hnext : (s.runs c).fail = some run) : Acts s (s.setRun c run) c := by
  obtain ⟨⟨hphase, -, hcall⟩, heq⟩ := Option.ite_none_right_eq_some.mp hnext
  obtain rfl := Option.some.inj heq
  refine acts_setRun hcall ?_
  simp only [MeasurementRun.remaining, MeasurementRun.phaseSteps, hphase]
  omega

theorem endCall_acts {c : Nat} (horderly : (s.runs c).Orderly) (hnext : s.endCall c = some t) : Acts s t c := by
  obtain ⟨future, hcall, ⟨-, rfl⟩ | ⟨-, rfl⟩⟩ := endCall_cases hnext
  · refine acts_setRun ?_ (MeasurementRun.remaining_sent horderly hcall)
    rcases horderly.calling future hcall with ⟨token, entry, held, todo, htodo⟩ | ⟨cmd, todo, htodo⟩ <;>
    simp [MeasurementRun.sent, htodo]
  · refine acts_setRun ?_ (MeasurementRun.remaining_raised horderly hcall)
    rcases horderly.calling future hcall with ⟨token, entry, held, todo, htodo⟩ | ⟨cmd, todo, htodo⟩ <;>
    simp [MeasurementRun.raised, htodo]

/-! ### The steps that remain -/

/-- No response is lost on its way from the worker. -/
def Delivers : ServerLabel → Prop
  | .workerFinish _ _ delivered => delivered = true
  | _ => True

/-- The scripts make no further call, nobody stops a proxy, and the runs of `R` go on. -/
def Closing (R : Finset Nat) (_ : ServerState) : ServerLabel → Prop
  | .begin _ _ _ | .stop _ => False
  | .endScript c | .fail c | .act c _ | .endCall c | .timeout c => c ∈ R
  | .workerFinish _ _ delivered => delivered = true
  | .advance _ _ _ | .listen _ | .workerReceive _ | .workerAck _ _ => True

instance : DecidablePred Delivers
  | .workerFinish _ _ delivered => inferInstanceAs (Decidable (delivered = true))
  | .begin _ _ _ | .stop _ | .endScript _ | .fail _ | .act _ _ | .endCall _ | .timeout _ | .advance _ _ _ | .listen _
  | .workerReceive _ | .workerAck _ _ => isTrue trivial

instance (R : Finset Nat) (s : ServerState) (label : ServerLabel) : Decidable (Closing R s label) :=
  match label with
  | .begin _ _ _ | .stop _ => isFalse id
  | .endScript c | .fail c | .act c _ | .endCall c | .timeout c => inferInstanceAs (Decidable (c ∈ R))
  | .workerFinish _ _ delivered => inferInstanceAs (Decidable (delivered = true))
  | .advance _ _ _ | .listen _ | .workerReceive _ | .workerAck _ _ => isTrue trivial

theorem Closing.delivers {R : Finset Nat} {label : ServerLabel} (h : Closing R s label) : Delivers label := by
  cases label <;> first | exact h | trivial

/-- The steps that the runs of `R` and all links still have to do. -/
noncomputable def remaining (R : Finset Nat) (s : ServerState) : Nat :=
  ∑ c ∈ R, (s.runs c).remaining + ∑ᶠ inst, (s.links inst).remaining

def LinksBusy (s : ServerState) : Prop := FinitelyBusy WorkerLink.remaining s.links

/-- A run of `R` pays for what a link may grow by. -/
theorem remaining_lt_of_run {R : Finset Nat} {c k : Nat} {run : MeasurementRun} {inst : ByteString} {l : WorkerLink}
    (hfinite : s.LinksBusy) (hc : c ∈ R) (hruns : t.runs = Function.update s.runs c run)
    (hlinks : t.links = Function.update s.links inst l) (hlink : l.remaining ≤ (s.links inst).remaining + k)
    (hless : run.remaining + k < (s.runs c).remaining) : t.remaining R < s.remaining R := by
  have hsum : ∑ j ∈ R, (Function.update s.runs c run j).remaining + k < ∑ j ∈ R, (s.runs j).remaining :=
    sum_update_add_lt hc hless
  have hrest := finsum_update_le hfinite hlink
  rw [remaining, remaining, hruns, hlinks]
  omega

theorem Acts.remaining_lt {R : Finset Nat} {c : Nat} (h : Acts s t c) (hfinite : s.LinksBusy) (hc : c ∈ R) :
    t.remaining R < s.remaining R := by
  obtain ⟨run, inst, l, k, hruns, hlinks, heffect, hless⟩ := h.pays
  exact remaining_lt_of_run hfinite hc hruns hlinks heffect.remaining.le hless

/-- A worker, a listener or a thread in `execute` moves. -/
theorem remaining_lt_of_link {R : Finset Nat} {inst : ByteString} {l : WorkerLink} (hfinite : s.LinksBusy)
    (hruns : t.runs = s.runs) (hlinks : t.links = Function.update s.links inst l)
    (hless : l.remaining < (s.links inst).remaining) : t.remaining R < s.remaining R := by
  have hrest := finsum_update_lt hfinite hless
  rw [remaining, remaining, hruns, hlinks]
  omega

/-- Every step that remains makes the count smaller. -/
theorem remaining_step {R : Finset Nat} {label : ServerLabel} (hlinks : ∀ inst, LinkInv N (s.links inst))
    (horderly : ∀ c, (s.runs c).Orderly) (hfinite : s.LinksBusy) (hclosing : Closing R s label)
    (hnext : s.step N expects enqueueMode label = some t) : t.remaining R < s.remaining R := by
  cases label with
  | begin c op found => exact hclosing.elim
  | stop inst => exact hclosing.elim
  | endScript c =>
      obtain ⟨run, hrun, rfl⟩ := Option.map_eq_some_iff.mp hnext
      exact (endScript_acts hrun).remaining_lt hfinite hclosing
  | fail c =>
      obtain ⟨run, hrun, rfl⟩ := Option.map_eq_some_iff.mp hnext
      exact (fail_acts hrun).remaining_lt hfinite hclosing
  | act c found => exact (act_acts hnext).remaining_lt hfinite hclosing
  | endCall c => exact (endCall_acts (horderly c) hnext).remaining_lt hfinite hclosing
  | timeout c =>
      obtain ⟨name, params, todo, future, l, -, htodo, hl, rfl⟩ := timeout_cases hnext
      have hless := MeasurementRun.remaining_recordCall htodo (timeoutResponse future.1)
      exact remaining_lt_of_run (k := 0) hfinite hclosing rfl rfl (WorkerLink.remaining_waitTimeout hl).le hless
  | advance inst p sent =>
      obtain ⟨l, hl, rfl⟩ := Option.map_eq_some_iff.mp hnext
      exact remaining_lt_of_link hfinite rfl rfl (WorkerLink.remaining_advance (hlinks inst) hl)
  | listen inst =>
      obtain ⟨⟨l, token⟩, hl, rfl⟩ := Option.map_eq_some_iff.mp hnext
      have hlistened := WorkerLink.remaining_listen hl
      cases token with
      | none =>
          have hless : l.remaining < (s.links inst).remaining := by omega
          exact remaining_lt_of_link hfinite rfl rfl hless
      | some token =>
          refine remaining_lt_of_link hfinite rfl rfl ?_
          dsimp only
          split
          · have hreleased := l.remaining_sendSyncContinue token
            omega
          · omega
  | workerReceive inst =>
      obtain ⟨l, hl, rfl⟩ := Option.map_eq_some_iff.mp hnext
      exact remaining_lt_of_link hfinite rfl rfl (WorkerLink.remaining_workerReceive (hlinks inst) hl)
  | workerFinish inst plugin delivered =>
      obtain ⟨l, hl, rfl⟩ := Option.map_eq_some_iff.mp hnext
      exact remaining_lt_of_link hfinite rfl rfl (WorkerLink.remaining_workerFinish hl)
  | workerAck inst delivered =>
      obtain ⟨l, hl, rfl⟩ := Option.map_eq_some_iff.mp hnext
      exact remaining_lt_of_link hfinite rfl rfl (WorkerLink.remaining_workerAck hl)

end ServerState

end InstrumentServer
