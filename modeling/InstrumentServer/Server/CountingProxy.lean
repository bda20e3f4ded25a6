import InstrumentServer.Server.ProxyStatistics

/-!
# The counters between two locks

`execute` counts a send after it, under `stats_mutex_` alone, and `handle_response_message` counts a response after it has answered the promise, still holding `pending_mutex_`. Here these moments are states: calls whose send is not yet counted, and a handler that is about to count. The steps of `execute` that take `pending_mutex_` wait for the handler.

`settled` counts everything at once. It maps the runs of this system to runs of `InstrumentWorkerProxy`, so the balance there is the balance here in every state where nothing is in progress.
-/

namespace InstrumentServer

open Ipc Transition

structure CountingProxy where
  proxy : InstrumentWorkerProxy
  /-- the ids of the COMMANDs that were put on the queue -/
  queued : List Nat := []
  /-- the calls whose send has succeeded and is not yet counted -/
  uncounted : List PromiseId := []
  /-- the handler has answered a promise, with this success, and has not yet counted -/
  counting : Option Bool := none

namespace CountingProxy

inductive CountingLabel where
  | execute (cmd : SerializedCommand)
  | advance (p : PromiseId) (sent : Bool)
  | countSent (p : PromiseId)
  | waitTimeout (p : PromiseId)
  | receive (msg : IpcMessage)
  | countResponse
  | stop

/-- The next step of a call, as in `InstrumentWorkerProxy.advance`, except that a successful send is not counted. -/
def advance (N : JsonLibrary) (s : CountingProxy) (p : PromiseId) (sent : Bool) : Option CountingProxy :=
  match s.proxy.calls p with
  | none => none
  | some call =>
      match call.point, sent with
      | .encoded msg, true =>
          if s.proxy.stopPoint = .stopped then none
          else
            some ⟨s.proxy.setCall p { call with point := .returned }, msg.id :: s.queued, p :: s.uncounted, s.counting⟩
      | point, sent =>
          if s.counting.isSome ∧ (point = .numbered ∨ point = .unsent) then none
          else (s.proxy.advance N p sent).map fun next => { s with proxy := next.1 }

/-- `stats_.commands_sent++` -/
def countSent (s : CountingProxy) (p : PromiseId) : Option CountingProxy :=
  if p ∈ s.uncounted then
    some ⟨{ s.proxy with stats := { s.proxy.stats with commandsSent := s.proxy.stats.commandsSent + 1 } }, s.queued,
      s.uncounted.erase p, s.counting⟩
  else none

/-- `execute_sync` gives up on a call that has returned. -/
def waitTimeout (s : CountingProxy) (p : PromiseId) : Option CountingProxy :=
  if p ∈ s.uncounted then none else (s.proxy.waitTimeout p).map fun next => { s with proxy := next }

/-- `handle_response_message` up to the counters. -/
def handleResponseMessage (N : JsonLibrary) (s : CountingProxy) (msg : IpcMessage) : Except JsonError CountingProxy := do
  let resp ← deserializeResponse N msg.payload
  match SortedAssoc.find? msg.id s.proxy.pendingResponses with
  | some p =>
      return ⟨(s.proxy.setValue p (.response msg) resp).erasePending msg.id, s.queued, s.uncounted, some resp.success⟩
  | none => return s

/-- One message after the other: the listener is one thread. -/
def receive (N : JsonLibrary) (s : CountingProxy) (msg : IpcMessage) : Option CountingProxy :=
  if s.counting.isSome then none
  else
    match msg.type with
    | .response => (s.handleResponseMessage N msg).toOption
    | _ => some s

def countAnswer (stats : ProxyStats) (success : Bool) : ProxyStats :=
  if success then { stats with commandsCompleted := stats.commandsCompleted + 1 }
  else { stats with commandsFailed := stats.commandsFailed + 1 }

/-- `stats_.commands_completed++` or `stats_.commands_failed++` -/
def countResponse (s : CountingProxy) : Option CountingProxy :=
  s.counting.map fun success =>
    ⟨{ s.proxy with stats := countAnswer s.proxy.stats success }, s.queued, s.uncounted, none⟩

/-- Answering the pending promises takes `pending_mutex_`. -/
def stop (s : CountingProxy) : Option CountingProxy :=
  if s.counting.isSome ∧ s.proxy.stopPoint = .stopping then none
  else s.proxy.stopStep.map fun next => { s with proxy := next }

def step (N : JsonLibrary) (s : CountingProxy) : CountingLabel → Option CountingProxy
  | .execute cmd => some { s with proxy := s.proxy.create cmd }
  | .advance p sent => s.advance N p sent
  | .countSent p => s.countSent p
  | .waitTimeout p => s.waitTimeout p
  | .receive msg => s.receive N msg
  | .countResponse => s.countResponse
  | .stop => s.stop

/-- Every interleaving of the threads of one proxy, counters included. -/
def system (N : JsonLibrary) (instrumentName : ByteString) : System CountingProxy CountingLabel where
  init := { proxy := { instrumentName } }
  step := step N

/-- Commands are valid text, and a response has the id of a COMMAND that was put on the queue. -/
def AnswersQueued (s : CountingProxy) : CountingLabel → Prop
  | .execute cmd => cmd.ValidText
  | .receive msg => msg.type = .response → msg.id ∈ s.queued
  | _ => True

/-- No `execute` and no handler of a message is in progress. -/
structure Quiet (s : CountingProxy) : Prop where
  calls : ∀ p call, s.proxy.calls p = some call →
    call.point = .returned ∨ call.point = .raised ∨ call.point = .timedOut
  uncounted : s.uncounted = []
  counting : s.counting = none

/-! ### Counting at once -/

def settledStats (s : CountingProxy) : ProxyStats :=
  let stats := { s.proxy.stats with commandsSent := s.proxy.stats.commandsSent + s.uncounted.length }
  match s.counting with
  | some success => countAnswer stats success
  | none => stats

def withStats (px : InstrumentWorkerProxy) (stats : ProxyStats) : InstrumentWorkerProxy := { px with stats }

/-- The proxy with everything counted that is still to be counted. -/
def settled (s : CountingProxy) : InstrumentWorkerProxy := withStats s.proxy s.settledStats

/-- The step of the proxy that a step is, if it is more than counting. -/
def CountingLabel.coarse : CountingLabel → Option InstrumentWorkerProxy.ProxyLabel
  | .execute cmd => some (.execute cmd)
  | .advance p sent => some (.advance p sent)
  | .waitTimeout p => some (.waitTimeout p)
  | .receive msg => some (.receive msg)
  | .stop => some .stop
  | .countSent _ | .countResponse => none

variable {N : JsonLibrary} {s t : CountingProxy}

/-- Apart from a successful send, a step of a call neither looks at the counters nor changes them. -/
theorem advance_withStats {px : InstrumentWorkerProxy} {p : PromiseId} {sent : Bool} (stats : ProxyStats)
    (hsend : ∀ call msg, px.calls p = some call → call.point = .encoded msg → sent = false) :
    (withStats px stats).advance N p sent =
        (px.advance N p sent).map (fun next => (withStats next.1 stats, next.2)) ∧
      ∀ next, px.advance N p sent = some next → next.1.stats = px.stats := by
  have hcalls : (withStats px stats).calls = px.calls := rfl
  rw [InstrumentWorkerProxy.advance, InstrumentWorkerProxy.advance, hcalls]
  cases hcall : px.calls p with
  | none => simp
  | some call =>
      obtain ⟨cmd, msgId, point⟩ := call
      cases point with
      | created => exact ⟨rfl, by rintro next ⟨⟩; rfl⟩
      | numbered =>
          cases msgId with
          | none => simp
          | some m => exact ⟨rfl, by rintro next ⟨⟩; rfl⟩
      | stored =>
          cases msgId with
          | none => simp
          | some m =>
              simp only [InstrumentWorkerProxy.encode]
              cases serializeCommand N cmd <;> exact ⟨rfl, by rintro next ⟨⟩; rfl⟩
      | encoded msg =>
          obtain rfl := hsend _ msg hcall rfl
          have hstop : (withStats px stats).stopPoint = px.stopPoint := rfl
          simp only [hstop]
          split
          · simp
          · exact ⟨rfl, by rintro next ⟨⟩; rfl⟩
      | unsent =>
          cases msgId with
          | none => simp
          | some m =>
              simp only [InstrumentWorkerProxy.resolveUnsent]
              have hpending : ((withStats px stats).setCall p ⟨cmd, some m, .returned⟩).pendingResponses =
                  (px.setCall p ⟨cmd, some m, .returned⟩).pendingResponses := rfl
              rw [hpending]
              cases SortedAssoc.find? m (px.setCall p ⟨cmd, some m, .returned⟩).pendingResponses <;>
                exact ⟨rfl, by rintro next ⟨⟩; rfl⟩
      | returned => simp
      | raised => simp
      | timedOut => simp

theorem cleanup_withStats (px : InstrumentWorkerProxy) (stats : ProxyStats) :
    (withStats px stats).cleanupPendingPromises = withStats px.cleanupPendingPromises stats ∧
      px.cleanupPendingPromises.stats = px.stats := by
  have hfold : px.pendingResponses.foldl (fun px entry => px.setValue entry.2 .stopped px.stoppedResponse)
      (withStats px stats) =
        withStats (px.pendingResponses.foldl (fun px entry => px.setValue entry.2 .stopped px.stoppedResponse) px) stats :=
    List.foldl_hom (fun px => withStats px stats) fun _ _ => rfl
  have hpending : (withStats px stats).pendingResponses = px.pendingResponses := rfl
  refine ⟨?_, InstrumentWorkerProxy.foldl_setValue_frame (f := InstrumentWorkerProxy.stats) (fun _ _ _ _ => rfl) _ px⟩
  rw [InstrumentWorkerProxy.cleanupPendingPromises, hpending, hfold]
  rfl

theorem stopStep_withStats {px px' : InstrumentWorkerProxy} (stats : ProxyStats) (hnext : px.stopStep = some px') :
    (withStats px stats).stopStep = some (withStats px' stats) ∧ px'.stats = px.stats := by
  have hpoint : (withStats px stats).stopPoint = px.stopPoint := rfl
  rw [InstrumentWorkerProxy.stopStep] at hnext ⊢
  rw [hpoint]
  split at hnext
  · obtain rfl := Option.some.inj hnext
    exact ⟨rfl, rfl⟩
  · obtain ⟨hclean, hstats⟩ := cleanup_withStats px stats
    obtain rfl := Option.some.inj hnext
    dsimp only
    rw [hclean]
    exact ⟨rfl, hstats⟩
  · obtain rfl := Option.some.inj hnext
    exact ⟨rfl, rfl⟩
  · contradiction

/-- A step that leaves the counters and what is to be counted alone. -/
theorem settled_of_stats {next : InstrumentWorkerProxy} (hstats : next.stats = s.proxy.stats) :
    settled { s with proxy := next } = withStats next s.settledStats := by
  rw [settled, settledStats, settledStats]
  dsimp only
  rw [hstats]

theorem settled_advance {p : PromiseId} {sent : Bool} (hnext : s.advance N p sent = some t) :
    (settled s).step N (.advance p sent) = some (settled t) := by
  rw [advance] at hnext
  cases hcall : s.proxy.calls p with
  | none =>
      rw [hcall] at hnext
      contradiction
  | some call =>
      rw [hcall] at hnext
      dsimp only at hnext
      split at hnext
      · rename_i msg hpoint
        split at hnext
        · contradiction
        · rename_i hstop
          obtain rfl := Option.some.inj hnext
          have hcalls : (settled s).calls p = some call := hcall
          have hstop' : (settled s).stopPoint ≠ .stopped := hstop
          rw [InstrumentWorkerProxy.step, InstrumentWorkerProxy.advance, hcalls]
          dsimp only
          rw [hpoint]
          dsimp only
          rw [if_neg hstop', if_pos rfl, Option.map_some, Option.some_inj]
          have hstats : settledStats ⟨s.proxy.setCall p { call with point := .returned }, msg.id :: s.queued,
              p :: s.uncounted, s.counting⟩ =
                { s.settledStats with commandsSent := s.settledStats.commandsSent + 1 } := by
            rw [settledStats, settledStats]
            cases s.counting with
            | none => rfl
            | some success => cases success <;> rfl
          rw [settled, settled, hstats]
          rfl
      · rename_i hsend
        split at hnext
        · contradiction
        · obtain ⟨next, hadvance, rfl⟩ := Option.map_eq_some_iff.mp hnext
          obtain ⟨hsame, hstats⟩ := advance_withStats s.settledStats fun call' msg hcall' hpoint => by
            obtain rfl := Option.some.inj (hcall.symm.trans hcall')
            exact Bool.eq_false_iff.mpr fun hsent => hsend msg hpoint hsent
          rw [settled_of_stats (hstats next hadvance), InstrumentWorkerProxy.step, settled, hsame, hadvance]
          rfl

theorem settled_receive {msg : IpcMessage} (hnext : s.receive N msg = some t) :
    (settled s).step N (.receive msg) = some (settled t) := by
  rw [receive] at hnext
  split at hnext
  · contradiction
  · rename_i hcounting
    rw [Option.not_isSome_iff_eq_none] at hcounting
    split at hnext
    · rename_i htype
      rw [InstrumentWorkerProxy.step, InstrumentWorkerProxy.receive, htype]
      rw [Except.toOption_eq_some_iff, handleResponseMessage] at hnext
      dsimp only
      rw [Except.toOption_eq_some_iff, InstrumentWorkerProxy.handleResponseMessage]
      cases hdecode : deserializeResponse N msg.payload with
      | error e => simp [hdecode, bind, Except.bind] at hnext
      | ok resp =>
          have hpending : (settled s).pendingResponses = s.proxy.pendingResponses := rfl
          simp only [hdecode, bind, Except.bind] at hnext
          simp only [bind, Except.bind, hpending]
          cases hfind : SortedAssoc.find? msg.id s.proxy.pendingResponses with
          | none =>
              rw [hfind] at hnext
              rw [← Except.ok.inj hnext]
              rfl
          | some p =>
              rw [hfind] at hnext
              rw [← Except.ok.inj hnext]
              dsimp only
              cases hsuccess : resp.success <;>
              · simp only [settled, settledStats, hcounting, withStats, countAnswer, InstrumentWorkerProxy.setValue,
                  InstrumentWorkerProxy.erasePending]
                rfl
    · rename_i hother
      obtain rfl := Option.some.inj hnext
      rw [InstrumentWorkerProxy.step, InstrumentWorkerProxy.receive]
      split
      · rename_i htype
        exact absurd htype hother
      · rfl

theorem settled_countSent {p : PromiseId} (hnext : s.countSent p = some t) : settled t = settled s := by
  rw [countSent] at hnext
  split at hnext
  · rename_i hmem
    obtain rfl := Option.some.inj hnext
    have hlength : (s.uncounted.erase p).length + 1 = s.uncounted.length := by
      rw [List.length_erase_of_mem hmem]
      exact Nat.sub_add_cancel (List.length_pos_of_mem hmem)
    have hsent : s.proxy.stats.commandsSent + 1 + (s.uncounted.erase p).length =
        s.proxy.stats.commandsSent + s.uncounted.length := by omega
    rw [settled, settled, settledStats, settledStats]
    dsimp only
    rw [hsent]
    rfl
  · contradiction

theorem settled_countResponse (hnext : s.countResponse = some t) : settled t = settled s := by
  obtain ⟨success, hcounting, rfl⟩ := Option.map_eq_some_iff.mp hnext
  rw [settled, settled, settledStats, settledStats, hcounting]
  cases success <;> rfl

theorem settled_waitTimeout {p : PromiseId} (hnext : s.waitTimeout p = some t) :
    (settled s).step N (.waitTimeout p) = some (settled t) := by
  rw [waitTimeout] at hnext
  split at hnext
  · contradiction
  · obtain ⟨next, hwait, rfl⟩ := Option.map_eq_some_iff.mp hnext
    have hcalls : (settled s).calls = s.proxy.calls := rfl
    have hvalues : (settled s).values = s.proxy.values := rfl
    rw [InstrumentWorkerProxy.step]
    rw [InstrumentWorkerProxy.waitTimeout] at hwait ⊢
    rw [hcalls, hvalues]
    split at hwait
    · obtain rfl := Option.some.inj hwait
      rw [settled, settled, settledStats, settledStats]
      cases s.counting with
      | none => rfl
      | some success => cases success <;> rfl
    · contradiction

theorem settled_stop (hnext : s.stop = some t) : (settled s).step N .stop = some (settled t) := by
  rw [stop] at hnext
  split at hnext
  · contradiction
  · obtain ⟨next, hstop, rfl⟩ := Option.map_eq_some_iff.mp hnext
    obtain ⟨hsame, hstats⟩ := stopStep_withStats s.settledStats hstop
    rw [settled_of_stats hstats]
    exact hsame

/-- A step is the step of the proxy that it is, or counts what was settled before. -/
theorem settled_step {label : CountingLabel} (hnext : s.step N label = some t) :
    match label.coarse with
    | some label' => (settled s).step N label' = some (settled t)
    | none => settled t = settled s := by
  cases label with
  | execute cmd =>
      obtain rfl := Option.some.inj hnext
      rfl
  | advance p sent => exact settled_advance hnext
  | countSent p => exact settled_countSent hnext
  | waitTimeout p => exact settled_waitTimeout hnext
  | receive msg => exact settled_receive hnext
  | countResponse => exact settled_countResponse hnext
  | stop => exact settled_stop hnext

/-! ### Runs -/

/-- The queue gets nothing but the message of a call that sends it. -/
theorem queued_step {label : CountingLabel} (hnext : s.step N label = some t) :
    t.queued = s.queued ∨ ∃ p call msg, s.proxy.calls p = some call ∧ call.point = .encoded msg ∧
      t.queued = msg.id :: s.queued ∧
        t.proxy.calls = Function.update s.proxy.calls p (some { call with point := .returned }) := by
  cases label with
  | execute cmd =>
      obtain rfl := Option.some.inj hnext
      exact Or.inl rfl
  | advance p sent =>
      rw [step, advance] at hnext
      split at hnext
      · contradiction
      · rename_i call hcall
        split at hnext
        · rename_i msg hpoint
          split at hnext
          · contradiction
          · obtain rfl := Option.some.inj hnext
            exact Or.inr ⟨p, call, msg, hcall, hpoint, rfl, rfl⟩
        · split at hnext
          · contradiction
          · obtain ⟨next, -, rfl⟩ := Option.map_eq_some_iff.mp hnext
            exact Or.inl rfl
  | countSent p =>
      obtain ⟨-, hsome⟩ := Option.ite_none_right_eq_some.mp hnext
      obtain rfl := Option.some.inj hsome
      exact Or.inl rfl
  | waitTimeout p =>
      obtain ⟨-, hsome⟩ := Option.ite_none_left_eq_some.mp hnext
      obtain ⟨next, -, rfl⟩ := Option.map_eq_some_iff.mp hsome
      exact Or.inl rfl
  | receive msg =>
      obtain ⟨-, hsome⟩ := Option.ite_none_left_eq_some.mp hnext
      split at hsome
      · rw [Except.toOption_eq_some_iff, handleResponseMessage] at hsome
        cases hdecode : deserializeResponse N msg.payload with
        | error e => simp [hdecode, bind, Except.bind] at hsome
        | ok resp =>
            simp only [hdecode, bind, Except.bind] at hsome
            split at hsome <;> rw [← Except.ok.inj hsome] <;> exact Or.inl rfl
      · obtain rfl := Option.some.inj hsome
        exact Or.inl rfl
  | countResponse =>
      obtain ⟨success, -, rfl⟩ := Option.map_eq_some_iff.mp hnext
      exact Or.inl rfl
  | stop =>
      obtain ⟨-, hsome⟩ := Option.ite_none_left_eq_some.mp hnext
      obtain ⟨next, -, rfl⟩ := Option.map_eq_some_iff.mp hsome
      exact Or.inl rfl

/-- What is settled is a run of the proxy, in which a response answers a call that is over. -/
theorem reachable_settled {instrumentName : ByteString} (hname : ByteString.ValidUtf8 instrumentName)
    (hreach : ReachableWhile (system N instrumentName) AnswersQueued s) :
    ReachableWhile (InstrumentWorkerProxy.system N instrumentName) InstrumentWorkerProxy.Answers (settled s) ∧
      ∀ m ∈ s.queued, ∃ p, (settled s).messageId p = some m ∧ (settled s).departed p = true := by
  induction hreach with
  | init => exact ⟨.init, fun m hm => absurd hm List.not_mem_nil⟩
  | @step s t label _ hok hnext ih =>
      obtain ⟨hreach, hqueued⟩ := ih
      have hbalance := InstrumentWorkerProxy.Balance.of_reachable hname hreach
      have hanswers : ∀ label', label.coarse = some label' → (settled s).Answers label' := by
        cases label <;> rintro label' ⟨⟩
        case execute cmd => exact hok
        case receive msg => exact fun htype => hqueued msg.id (hok htype)
        all_goals trivial
      have hstep := settled_step hnext
      have hkept : ReachableWhile (InstrumentWorkerProxy.system N instrumentName) InstrumentWorkerProxy.Answers (settled t) ∧
          ∀ p m, (settled s).messageId p = some m → (settled s).departed p = true →
            (settled t).messageId p = some m ∧ (settled t).departed p = true := by
        cases hcoarse : label.coarse with
        | none =>
            rw [hcoarse] at hstep
            rw [hstep]
            exact ⟨hreach, fun p m hid hdeparted => ⟨hid, hdeparted⟩⟩
        | some label' =>
            rw [hcoarse] at hstep
            exact ⟨hreach.step (hanswers label' hcoarse) hstep,
              fun p m => InstrumentWorkerProxy.departed_step hbalance.promises hstep⟩
      refine ⟨hkept.1, fun m hm => ?_⟩
      rcases queued_step hnext with hsame | ⟨p, call, msg, hcall, hpoint, hmore, hcalls⟩
      · obtain ⟨p, hid, hdeparted⟩ := hqueued m (hsame ▸ hm)
        exact ⟨p, hkept.2 p m hid hdeparted⟩
      · rw [hmore] at hm
        rcases List.mem_cons.mp hm with rfl | hm
        · have hcalls' : (settled t).calls =
              Function.update (settled s).calls p (some { call with point := .returned }) := hcalls
          refine ⟨p, ?_, ?_⟩
          · rw [InstrumentWorkerProxy.messageId_update hcalls', if_pos rfl]
            exact (hbalance.calls p call hcall).framed msg hpoint
          · rw [InstrumentWorkerProxy.departed_update hcalls', if_pos rfl]
            rfl
        · obtain ⟨p, hid, hdeparted⟩ := hqueued m hm
          exact ⟨p, hkept.2 p m hid hdeparted⟩

/-- With nothing in progress there is nothing left to settle, and all pending entries belong to calls that are over. -/
theorem departedEntries_of_quiet (hbalance : InstrumentWorkerProxy.Balance N (settled s)) (hquiet : s.Quiet) :
    (settled s).stats = s.proxy.stats ∧ (settled s).departedEntries = s.proxy.pendingResponses.length := by
  obtain ⟨hcalls, huncounted, hcounting⟩ := hquiet
  constructor
  · change s.settledStats = _
    rw [settledStats, hcounting, huncounted]
    rfl
  · have hall : ∀ entry ∈ s.proxy.pendingResponses, ((settled s).departed entry.2).toNat = 1 := by
      intro entry hentry
      obtain ⟨howner, -⟩ := hbalance.promises.owner entry.1 entry.2 hentry
      obtain ⟨call, hcall, -⟩ := Option.bind_eq_some_iff.mp howner
      have hsound := hbalance.calls entry.2 call hcall
      rw [InstrumentWorkerProxy.departed_of_point hcall]
      rcases hcalls entry.2 call hcall with hpoint | hpoint | hpoint
      · simp [hpoint]
      · exact absurd hpoint hsound.encodes
      · simp [hpoint]
    change SortedAssoc.total _ s.proxy.pendingResponses = _
    rw [SortedAssoc.total_congr (g := fun _ => 1) hall, SortedAssoc.total]
    simp

end CountingProxy

open CountingProxy

/-- Before `stop`, whenever no `execute` and no handler is in progress, the commands sent are those completed, those failed and those pending. -/
theorem statistics_balance {N : JsonLibrary} {instrumentName : ByteString} {s : CountingProxy}
    (hname : ByteString.ValidUtf8 instrumentName)
    (hreach : ReachableWhile (CountingProxy.system N instrumentName) AnswersQueued s)
    (hrunning : s.proxy.stopPoint = .running) (hquiet : s.Quiet) :
    s.proxy.stats.commandsSent =
      s.proxy.stats.commandsCompleted + s.proxy.stats.commandsFailed + s.proxy.pendingResponses.length := by
  have hbalance := InstrumentWorkerProxy.Balance.of_reachable hname (reachable_settled hname hreach).1
  obtain ⟨hstats, hentries⟩ := departedEntries_of_quiet hbalance hquiet
  rw [← hentries, ← hstats]
  exact hbalance.balance hrunning

namespace CountingProxy

instance (s : CountingProxy) : (label : CountingLabel) → Decidable (s.AnswersQueued label)
  | .execute cmd => inferInstanceAs (Decidable cmd.ValidText)
  | .receive msg => inferInstanceAs (Decidable (msg.type = .response → msg.id ∈ s.queued))
  | .advance _ _ | .countSent _ | .waitTimeout _ | .countResponse | .stop => instDecidableTrue

/-- The first of three calls is answered before its send is counted, the second cannot send, the third times out, and the answer to the first comes again. -/
def earlyResponseRun : List CountingLabel :=
  let cmd : SerializedCommand := { instrumentName := bytes "dmm", verb := bytes "READ", params := .empty }
  [.execute cmd, .execute cmd, .execute cmd, .advance 0 true, .advance 0 true, .advance 0 true, .advance 0 true,
    .receive (InstrumentWorkerProxy.okResponse 1), .countResponse, .countSent 0, .advance 1 true, .advance 1 true,
    .advance 1 true, .advance 1 false, .advance 1 false, .advance 2 true, .advance 2 true, .advance 2 true,
    .advance 2 true, .countSent 2, .waitTimeout 2, .receive (InstrumentWorkerProxy.okResponse 1)]

end CountingProxy

theorem statistics_balance_earlyResponseRun :
    ∃ s, ReachableWhile (CountingProxy.system .compact (bytes "dmm")) AnswersQueued s ∧
      s.proxy.stats = { commandsSent := 2, commandsCompleted := 1, commandsTimeout := 1 } ∧
      s.proxy.stats.commandsSent =
        s.proxy.stats.commandsCompleted + s.proxy.stats.commandsFailed + s.proxy.pendingResponses.length := by
  have hany : ((CountingProxy.system .compact (bytes "dmm")).runWhile AnswersQueued
      (CountingProxy.system .compact (bytes "dmm")).init earlyResponseRun).any (fun s =>
        decide (s.proxy.stats = { commandsSent := 2, commandsCompleted := 1, commandsTimeout := 1 }) &&
          decide (s.proxy.stopPoint = .running) && decide (s.uncounted = []) && decide (s.counting = none) &&
          decide (s.proxy.promises = 3) && decide ((List.range 3).map (fun p => s.proxy.point p) =
            [some .returned, some .returned, some .timedOut])) = true := by decide +kernel
  obtain ⟨s, hreach, hview⟩ := ReachableWhile.of_any hany
  simp only [Bool.and_eq_true, decide_eq_true_eq] at hview
  obtain ⟨⟨⟨⟨⟨hstats, hrunning⟩, huncounted⟩, hcounting⟩, hpromises⟩, hpoints⟩ := hview
  have hinv : InstrumentWorkerProxy.PromiseInv .compact (settled s) :=
    (InstrumentWorkerProxy.Balance.of_reachable (ByteString.validUtf8_bytes "dmm")
    (reachable_settled (ByteString.validUtf8_bytes "dmm") hreach).1).promises
  have hquiet : s.Quiet := by
    refine ⟨fun p call hcall => ?_, huncounted, hcounting⟩
    have hlt : p < 3 := hpromises ▸ hinv.lt_promises hcall
    have hpoint : s.proxy.point p = some call.point := by simp [InstrumentWorkerProxy.point, hcall]
    have hmem : s.proxy.point p ∈ [some ExecutePoint.returned, some .returned, some .timedOut] := by
      rw [← hpoints]
      exact List.mem_map_of_mem (List.mem_range.mpr hlt)
    rw [hpoint] at hmem
    simp only [List.mem_cons, Option.some.injEq, List.not_mem_nil, or_false] at hmem
    rcases hmem with h | h | h
    · exact Or.inl h
    · exact Or.inl h
    · exact Or.inr (Or.inr h)
  exact ⟨s, hreach, hstats, statistics_balance (ByteString.validUtf8_bytes "dmm") hreach hrunning hquiet⟩

end InstrumentServer
