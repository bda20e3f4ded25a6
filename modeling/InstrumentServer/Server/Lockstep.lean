import InstrumentServer.Lib.Json.Text
import InstrumentServer.Server.Measurement

/-!
# Lockstep of measure jobs

The tokens of a job are meant to be worked off one after the other: no plugin is to run a command of a token while a command of an earlier token is still outstanding. The worker waits for the release of a token only after a command that is marked as the last one for it, and that mark is not part of the encoded command, so no worker ever waits. What is left of the order is that of the request queues: lockstep holds as long as every command is sent when the earlier ones are executed or stand before it in the same queue, and a run in which one is not can break it.
-/

namespace InstrumentServer

open Ipc Transition InstrumentWorkerProxy

/-! ### Order on one link -/

namespace WorkerLink

/-- The command of the call was put on the request queue. -/
def Sent (l : WorkerLink) (p : PromiseId) : Prop := ∃ msg ∈ l.commands, l.proxy.messageId p = some msg.id

/-- The worker took the command. -/
def Started (l : WorkerLink) (p : PromiseId) : Prop := ∃ msg ∈ l.started, l.proxy.messageId p = some msg.id

/-- The plugin returned. -/
def Executed (l : WorkerLink) (p : PromiseId) : Prop := ∃ msg ∈ l.executed, l.proxy.messageId p = some msg.id

instance (l : WorkerLink) (p : PromiseId) : Decidable (l.Sent p) :=
  inferInstanceAs (Decidable (∃ msg ∈ l.commands, l.proxy.messageId p = some msg.id))

instance (l : WorkerLink) (p : PromiseId) : Decidable (l.Started p) :=
  inferInstanceAs (Decidable (∃ msg ∈ l.started, l.proxy.messageId p = some msg.id))

instance (l : WorkerLink) (p : PromiseId) : Decidable (l.Executed p) :=
  inferInstanceAs (Decidable (∃ msg ∈ l.executed, l.proxy.messageId p = some msg.id))

/-- The first command was put on the queue before the second. -/
def SentBefore (l : WorkerLink) (p q : PromiseId) : Prop :=
  ∃ before after, l.commands = before ++ after ∧ (∃ msg ∈ before, l.proxy.messageId p = some msg.id) ∧
    ∃ msg ∈ after, l.proxy.messageId q = some msg.id

theorem Grows.messageId {l l' : WorkerLink} (h : l.Grows l') {p : PromiseId} {m : Nat}
    (hm : l.proxy.messageId p = some m) : l'.proxy.messageId p = some m := by
  obtain ⟨call, hcall, hid⟩ := Option.bind_eq_some_iff.mp hm
  obtain ⟨call', hcall', hevolves⟩ := h.calls p call hcall
  rw [InstrumentWorkerProxy.messageId, hcall']
  exact (hevolves.drawn m hid).1

theorem Grows.sent_mono {l l' : WorkerLink} (h : l.Grows l') {p : PromiseId} (hp : l.Sent p) : l'.Sent p := by
  obtain ⟨msg, hmsg, hid⟩ := hp
  exact ⟨msg, h.commands.subset hmsg, h.messageId hid⟩

theorem Grows.executed_mono {l l' : WorkerLink} (h : l.Grows l') {p : PromiseId} (hp : l.Executed p) : l'.Executed p := by
  obtain ⟨msg, hmsg, hid⟩ := hp
  exact ⟨msg, h.executed.subset hmsg, h.messageId hid⟩

theorem Grows.sentBefore_mono {l l' : WorkerLink} (h : l.Grows l') {p q : PromiseId} (hpq : l.SentBefore p q) :
    l'.SentBefore p q := by
  obtain ⟨before, after, hcommands, ⟨msg, hmsg, hid⟩, msg', hmsg', hid'⟩ := hpq
  obtain ⟨new, hnew⟩ := h.commands
  refine ⟨before, after ++ new, ?_, ⟨msg, hmsg, h.messageId hid⟩, msg', List.mem_append_left _ hmsg', h.messageId hid'⟩
  rw [← hnew, hcommands, List.append_assoc]

end WorkerLink

namespace LinkInv

open WorkerLink

variable {N : JsonLibrary} {l l' : WorkerLink}

/-- The call a recorded command belongs to. -/
theorem owner (h : LinkInv N l) {msg : IpcMessage} (hmsg : msg ∈ l.commands) :
    ∃ p call, l.proxy.calls p = some call ∧ call.Returned ∧ l.proxy.messageId p = some msg.id := by
  obtain ⟨p, call, hcall, hreturned, hid, -⟩ := h.sent msg hmsg
  exact ⟨p, call, hcall, hreturned, by simp [messageId, hcall, hid]⟩

/-- The worker executes in the order of the queue. -/
theorem executed_of_sentBefore (h : LinkInv N l) {p q : PromiseId} (hpq : l.SentBefore p q) (hq : l.Started q) :
    l.Executed p := by
  obtain ⟨before, after, hcommands, ⟨msg, hmsg, hid⟩, msg', hmsg', hid'⟩ := hpq
  obtain ⟨first, hfirst, hidfirst⟩ := hq
  obtain ⟨rest, hrest, -⟩ := h.queued
  refine ⟨msg, ?_, hid⟩
  have hsame : first.id = msg'.id := Option.some.inj (hidfirst.symm.trans hid')
  have hstarted : l.started <+: l.commands := ⟨rest, hrest.symm⟩
  have hsent : before <+: l.commands := ⟨after, hcommands.symm⟩
  -- the started commands reach beyond those that were sent before the second one
  have hlong : before.length < l.started.length := by
    by_contra hshort
    have hcovered : l.started <+: before := by
      refine List.prefix_of_prefix_length_le hstarted hsent ?_
      omega
    have hnodup := h.unique
    rw [hcommands, List.map_append, List.nodup_append] at hnodup
    exact hnodup.2.2 first.id (List.mem_map_of_mem (hcovered.subset hfirst)) msg'.id (List.mem_map_of_mem hmsg') hsame
  have hbefore : before <+: l.started := by
    refine List.prefix_of_prefix_length_le hsent hstarted ?_
    omega
  have hcurrent : l.worker.phase.current.length ≤ 1 := by
    cases l.worker.phase <;> simp [WorkerPhase.current]
  have hexecuted : before <+: l.executed := by
    refine List.prefix_of_prefix_length_le hbefore ⟨l.worker.phase.current, h.begun.symm⟩ ?_
    have hlength := congrArg List.length h.begun
    rw [List.length_append] at hlength
    omega
  exact hexecuted.subset hmsg

/-- A call that has ended sends no more. -/
theorem sent_of_ended_step (h : LinkInv N l) (hstep : Step N l l') {p : PromiseId} {call : ExecuteCall}
    (hcall : l.proxy.calls p = some call) (hended : call.Ended) (hsent : l'.Sent p) : l.Sent p := by
  obtain ⟨msg, hmsg, hid⟩ := hsent
  obtain ⟨call', hcall', hevolves⟩ := (h.grows hstep).calls p call hcall
  have hid' : call.msgId = some msg.id := by
    rw [messageId, hcall'] at hid
    rw [← (hevolves.ended hended).2]
    exact hid
  have hsame : l.proxy.messageId p = some msg.id := by simp [messageId, hcall, hid']
  rcases h.commands_step hstep with hnone | ⟨q, other, new, hnew, hother, hpoint⟩
  · exact ⟨msg, hnone ▸ hmsg, hsame⟩
  · rw [hnew] at hmsg
    rcases List.mem_append.mp hmsg with hold | hlast
    · exact ⟨msg, hold, hsame⟩
    -- the new command is that of a call that has not ended
    · rw [List.mem_singleton.mp hlast] at hsame
      have hcarries := h.encoded q other new hother hpoint
      have hq : l.proxy.messageId q = some new.id := by simp [messageId, hother, hcarries.1]
      obtain rfl := h.promises.distinct p q _ hsame hq
      obtain rfl := Option.some.inj (hcall.symm.trans hother)
      exfalso
      rcases hended with (hpoint' | hpoint') | hpoint' <;>
      · rw [hpoint] at hpoint'
        contradiction

/-- What is sent after a command stands behind it. -/
theorem sentBefore_step (h : LinkInv N l) (hstep : Step N l l') {p q : PromiseId} (hp : l.Sent p)
    (hpq : l.Sent q → l.SentBefore p q) (hq : l'.Sent q) : l'.SentBefore p q := by
  have hgrows := h.grows hstep
  obtain ⟨msg, hmsg, hid⟩ := hq
  have hold : msg ∈ l.commands → l'.SentBefore p q := by
    intro hmsg
    obtain ⟨r, -, -, -, hr⟩ := h.owner hmsg
    obtain rfl := (h.step hstep).promises.distinct r q msg.id (hgrows.messageId hr) hid
    exact hgrows.sentBefore_mono (hpq ⟨msg, hmsg, hr⟩)
  rcases h.commands_step hstep with hnone | ⟨_, _, new, hnew, -, -⟩
  · exact hold (hnone ▸ hmsg)
  · rw [hnew] at hmsg
    rcases List.mem_append.mp hmsg with hmsg | hlast
    · exact hold hmsg
    · obtain ⟨first, hfirst, hidfirst⟩ := hp
      exact ⟨l.commands, [new], hnew, ⟨first, hfirst, hgrows.messageId hidfirst⟩, msg, hlast, hid⟩

open ServerState (LinkMove linkInv_of_move grows_of_move)

theorem sent_of_ended (h : LinkInv N l) (hmove : LinkMove N l l') {p : PromiseId} {call : ExecuteCall}
    (hcall : l.proxy.calls p = some call) (hended : call.Ended) (hsent : l'.Sent p) : l.Sent p := by
  induction hmove with
  | refl => exact hsent
  | tail hmove hstep ih =>
      obtain ⟨call', hcall', hevolves⟩ := (grows_of_move h hmove).calls p call hcall
      exact ih ((linkInv_of_move h hmove).sent_of_ended_step hstep hcall' (hevolves.ended hended).1 hsent)

theorem sentBefore_of_move (h : LinkInv N l) (hmove : LinkMove N l l') {p q : PromiseId} (hp : l.Sent p)
    (hpq : l.Sent q → l.SentBefore p q) : l'.Sent q → l'.SentBefore p q := by
  induction hmove with
  | refl => exact hpq
  | tail hmove hstep ih =>
      exact (linkInv_of_move h hmove).sentBefore_step hstep ((grows_of_move h hmove).sent_mono hp) ih

end LinkInv

/-! ### Order of one run -/

namespace Dispatched

/-- The worker hands the command to the plugin. -/
def Real (d : Dispatched) : Prop := d.entry.cmd.verb ≠ barrierNop

instance (d : Dispatched) : Decidable d.Real := inferInstanceAs (Decidable (d.entry.cmd.verb ≠ barrierNop))

end Dispatched

/-- No command of a token is begun before every command of an earlier token that was sent is executed. -/
def Lockstep (links : ByteString → WorkerLink) (run : MeasurementRun) : Prop :=
  ∀ a ∈ run.dispatched, ∀ b ∈ run.dispatched, a.token < b.token → b.Real → ∀ p ∈ a.promise, ∀ q ∈ b.promise,
    (links b.inst).Started q → (links a.inst).Sent p → (links a.inst).Executed p

instance (links : ByteString → WorkerLink) (run : MeasurementRun) : Decidable (Lockstep links run) :=
  inferInstanceAs (Decidable (∀ a ∈ run.dispatched, ∀ b ∈ run.dispatched, a.token < b.token → b.Real →
    ∀ p ∈ a.promise, ∀ q ∈ b.promise, (links b.inst).Started q → (links a.inst).Sent p → (links a.inst).Executed p))

/-- The command the run sends next. -/
def nextDispatch? : List RunAction → Option (SyncToken × BlockEntry)
  | .dispatch token entry _ :: _ => some (token, entry)
  | _ => none

/-- The next command of the run meets the earlier tokens in order: what was sent for them is executed, or it stands in the queue of the same instrument. -/
def NextInOrder (links : ByteString → WorkerLink) (run : MeasurementRun) : Prop :=
  ∀ next ∈ nextDispatch? run.todo, next.2.cmd.verb ≠ barrierNop → ∀ a ∈ run.dispatched, a.token < next.1 →
    ∀ p ∈ a.promise, (links a.inst).Sent p → a.inst = next.2.cmd.instrumentName ∨ (links a.inst).Executed p

instance (links : ByteString → WorkerLink) (run : MeasurementRun) : Decidable (NextInOrder links run) :=
  inferInstanceAs (Decidable (∀ next ∈ nextDispatch? run.todo, next.2.cmd.verb ≠ barrierNop → ∀ a ∈ run.dispatched,
    a.token < next.1 → ∀ p ∈ a.promise, (links a.inst).Sent p →
      a.inst = next.2.cmd.instrumentName ∨ (links a.inst).Executed p))

/-- What keeps a run in lockstep. -/
structure OrderInv (links : ByteString → WorkerLink) (run : MeasurementRun) : Prop where
  known : ∀ d ∈ run.dispatched, ∀ p, d.promise = some p → ∃ call, (links d.inst).proxy.calls p = some call
  ended : ∀ d ∈ run.dispatched, ∀ p, d.promise = some p → run.inCall ≠ some (d.inst, p) →
    ∃ call, (links d.inst).proxy.calls p = some call ∧ call.Ended
  below : ∀ d ∈ run.dispatched, d.token < run.ctx.nextSyncToken
  current : ∀ token entry held, .dispatch token entry held ∈ run.todo → token + 1 = run.ctx.nextSyncToken
  order : ∀ a ∈ run.dispatched, ∀ b ∈ run.dispatched, a.token < b.token → b.Real → ∀ p q, a.promise = some p →
    b.promise = some q → (links a.inst).Sent p → (links a.inst).Executed p ∨
      (a.inst = b.inst ∧ ((links a.inst).Sent q → (links a.inst).SentBefore p q))
  /-- a run enters `execute` for the next command only when it has left it for the last one -/
  sequential : ∀ a ∈ run.dispatched, ∀ b ∈ run.dispatched, a.token < b.token → ∀ p, a.promise = some p →
    ∃ call, (links a.inst).proxy.calls p = some call ∧ call.Ended

namespace OrderInv

variable {N : JsonLibrary} {links links' : ByteString → WorkerLink} {run run' : MeasurementRun}

theorem lockstep (h : OrderInv links run) (hlinks : ∀ inst, LinkInv N (links inst)) : Lockstep links run := by
  intro a ha b hb hab hreal p hp q hq hstarted hsent
  rcases h.order a ha b hb hab hreal p q hp hq hsent with hexecuted | ⟨hinst, hbefore⟩
  · exact hexecuted
  · have hstarted' : (links a.inst).Started q := hinst ▸ hstarted
    obtain ⟨msg, hmsg, hid⟩ := hstarted'
    obtain ⟨rest, hrest, -⟩ := (hlinks a.inst).queued
    have hsentq : (links a.inst).Sent q := ⟨msg, by rw [hrest]; exact List.mem_append_left _ hmsg, hid⟩
    exact (hlinks a.inst).executed_of_sentBefore (hbefore hsentq) (hinst ▸ hstarted)

theorem init (links : ByteString → WorkerLink) : OrderInv links {} :=
  ⟨by simp, by simp, by simp, by simp, by simp, by simp⟩

/-- The links move and the run rests. -/
theorem linkMove (h : OrderInv links run) (hlinks : ∀ inst, LinkInv N (links inst))
    (hmove : ∀ inst, ServerState.LinkMove N (links inst) (links' inst)) : OrderInv links' run := by
  have hgrows : ∀ inst, (links inst).Grows (links' inst) := fun inst => ServerState.grows_of_move (hlinks inst) (hmove inst)
  have hstays : ∀ inst p call, (links inst).proxy.calls p = some call → call.Ended →
      ∃ call', (links' inst).proxy.calls p = some call' ∧ call'.Ended := by
    intro inst p call hcall hended
    obtain ⟨call', hcall', hevolves⟩ := (hgrows inst).calls p call hcall
    exact ⟨call', hcall', (hevolves.ended hended).1⟩
  refine ⟨fun d hd p hp => ?_, fun d hd p hp hout => ?_, h.below, h.current, fun a ha b hb hab hreal p q hp hq hsent => ?_,
    fun a ha b hb hab p hp => ?_⟩
  · obtain ⟨call, hcall⟩ := h.known d hd p hp
    obtain ⟨call', hcall', -⟩ := (hgrows d.inst).calls p call hcall
    exact ⟨call', hcall'⟩
  · obtain ⟨call, hcall, hended⟩ := h.ended d hd p hp hout
    exact hstays d.inst p call hcall hended
  · obtain ⟨call, hcall, hended⟩ := h.sequential a ha b hb hab p hp
    have hold : (links a.inst).Sent p := (hlinks a.inst).sent_of_ended (hmove a.inst) hcall hended hsent
    rcases h.order a ha b hb hab hreal p q hp hq hold with hexecuted | ⟨hinst, hbefore⟩
    · exact Or.inl ((hgrows a.inst).executed_mono hexecuted)
    · exact Or.inr ⟨hinst, (hlinks a.inst).sentBefore_of_move (hmove a.inst) hold hbefore⟩
  · obtain ⟨call, hcall, hended⟩ := h.sequential a ha b hb hab p hp
    exact hstays a.inst p call hcall hended

/-- The run moves on without entering `execute` for a job. -/
theorem keep (h : OrderInv links run) (hdispatched : run'.dispatched = run.dispatched)
    (hcall : run'.inCall = run.inCall ∨ run.inCall = none ∨
      ∀ d ∈ run.dispatched, ∀ p, d.promise = some p → ∃ call, (links d.inst).proxy.calls p = some call ∧ call.Ended)
    (hnext : run.ctx.nextSyncToken ≤ run'.ctx.nextSyncToken)
    (htodo : ∀ token entry held, .dispatch token entry held ∈ run'.todo → token + 1 = run'.ctx.nextSyncToken) :
    OrderInv links run' := by
  refine ⟨hdispatched ▸ h.known, fun d hd p hp hout => ?_, fun d hd => ?_, htodo, hdispatched ▸ h.order,
    hdispatched ▸ h.sequential⟩
  · rw [hdispatched] at hd
    rcases hcall with hsame | hnone | hall
    · exact h.ended d hd p hp (hsame ▸ hout)
    · exact h.ended d hd p hp (by simp [hnone])
    · exact hall d hd p hp
  · rw [hdispatched] at hd
    exact lt_of_lt_of_le (h.below d hd) hnext

/-- A worker is found, and the thread enters `execute`. -/
theorem dispatch (h : OrderInv links run) {token : SyncToken} {entry : BlockEntry} {held : Bool} {todo : List RunAction}
    {p : PromiseId} (hcall : run.inCall = none) (htodo : run.todo = .dispatch token entry held :: todo)
    (hnew : ∃ call, (links entry.cmd.instrumentName).proxy.calls p = some call ∧ call.msgId = none)
    (hnext : NextInOrder links run) :
    OrderInv links
      { run with
        inCall := some (entry.cmd.instrumentName, p)
        dispatched := run.dispatched ++ [⟨token, entry, some p⟩] } := by
  have htoken : token + 1 = run.ctx.nextSyncToken := h.current token entry held (by simp [htodo])
  have hended : ∀ d ∈ run.dispatched, ∀ p, d.promise = some p →
      ∃ call, (links d.inst).proxy.calls p = some call ∧ call.Ended :=
    fun d hd p hp => h.ended d hd p hp (by simp [hcall])
  obtain ⟨new, hnew, hundrawn⟩ := hnew
  have hunsent : ¬ (links entry.cmd.instrumentName).Sent p := by
    rintro ⟨msg, -, hid⟩
    rw [messageId, hnew] at hid
    simp [hundrawn] at hid
  have hlast : ∀ d ∈ run.dispatched, ¬ token < d.token := fun d hd => by
    have hbelow := h.below d hd
    rw [← htoken] at hbelow
    exact not_lt.mpr (Nat.lt_succ_iff.mp hbelow)
  refine ⟨fun d hd q hq => ?_, fun d hd q hq hout => ?_, fun d hd => ?_, h.current, fun a ha b hb hab hreal q r hq hr hsent => ?_,
    fun a ha b hb hab q hq => ?_⟩
  · rcases List.mem_append.mp hd with hold | hd
    · exact h.known d hold q hq
    · obtain rfl := List.mem_singleton.mp hd
      obtain rfl := Option.some.inj hq
      exact ⟨new, hnew⟩
  · rcases List.mem_append.mp hd with hold | hd
    · exact hended d hold q hq
    · obtain rfl := List.mem_singleton.mp hd
      obtain rfl := Option.some.inj hq
      exact absurd rfl hout
  · rcases List.mem_append.mp hd with hold | hd
    · exact h.below d hold
    · rw [List.mem_singleton.mp hd]
      exact lt_of_lt_of_eq (Nat.lt_succ_self _) htoken
  · rcases List.mem_append.mp ha with ha | ha <;> rcases List.mem_append.mp hb with hb | hb
    · exact h.order a ha b hb hab hreal q r hq hr hsent
    · obtain rfl := List.mem_singleton.mp hb
      obtain rfl := Option.some.inj hr
      have hthis : (token, entry) ∈ nextDispatch? run.todo := by rw [htodo]; rfl
      rcases hnext _ hthis hreal a ha hab q hq hsent with hinst | hexecuted
      · refine Or.inr ⟨hinst, fun hsentp => absurd ?_ hunsent⟩
        exact hinst ▸ hsentp
      · exact Or.inl hexecuted
    · rw [List.mem_singleton.mp ha] at hab
      exact absurd hab (hlast b hb)
    · rw [List.mem_singleton.mp ha, List.mem_singleton.mp hb] at hab
      exact absurd hab (lt_irrefl _)
  · rcases List.mem_append.mp ha with ha | ha
    · exact hended a ha q hq
    · rw [List.mem_singleton.mp ha] at hab
      rcases List.mem_append.mp hb with hb | hb
      · exact absurd hab (hlast b hb)
      · rw [List.mem_singleton.mp hb] at hab
        exact absurd hab (lt_irrefl _)

/-- No worker is found. -/
theorem noWorker (h : OrderInv links run) {token : SyncToken} {entry : BlockEntry} {held : Bool} {todo : List RunAction}
    {ctx : RuntimeContext FutureRef} (hcall : run.inCall = none) (htodo : run.todo = .dispatch token entry held :: todo)
    (hnext : ctx.nextSyncToken = run.ctx.nextSyncToken) :
    OrderInv links { run with todo, ctx, dispatched := run.dispatched ++ [⟨token, entry, none⟩] } := by
  have htoken : token + 1 = run.ctx.nextSyncToken := h.current token entry held (by simp [htodo])
  have hold : ∀ d ∈ run.dispatched ++ [⟨token, entry, none⟩], ∀ p, d.promise = some p → d ∈ run.dispatched := by
    intro d hd p hp
    rcases List.mem_append.mp hd with hold | hd
    · exact hold
    · rw [List.mem_singleton.mp hd] at hp
      contradiction
  refine ⟨fun d hd p hp => h.known d (hold d hd p hp) p hp, fun d hd p hp => h.ended d (hold d hd p hp) p hp, fun d hd => ?_,
    fun t e b hmem => ?_, fun a ha b hb hab hreal p q hp hq => ?_, fun a ha b hb hab p hp => ?_⟩
  · show d.token < ctx.nextSyncToken
    rw [hnext]
    rcases List.mem_append.mp hd with hold | hd
    · exact h.below d hold
    · rw [List.mem_singleton.mp hd]
      exact lt_of_lt_of_eq (Nat.lt_succ_self _) htoken
  · show t + 1 = ctx.nextSyncToken
    rw [hnext]
    exact h.current t e b (by rw [htodo]; exact List.mem_cons_of_mem _ hmem)
  · exact h.order a (hold a ha p hp) b (hold b hb q hq) hab hreal p q hp hq
  · exact h.ended a (hold a ha p hp) p hp (by simp [hcall])

theorem beginEnqueue (h : OrderInv links run) (hscript : run.AtScript) (expects : ByteString → ByteString → Bool)
    (found : Bool) (op : EnqueueOp) : OrderInv links (run.beginEnqueue expects found op) := by
  obtain ⟨-, -, hcall⟩ := hscript
  rcases run.beginEnqueue_cases found op with heq | ⟨todo, heq, htodo⟩
  · rwa [heq]
  · rw [heq]
    refine h.keep rfl (Or.inr (Or.inl hcall)) (Nat.le_succ _) fun token entry held hmem => ?_
    obtain ⟨_, _, hthis, -⟩ := htodo _ hmem
    rw [(RunAction.dispatch.inj hthis).1]
    rfl

theorem beginSync (h : OrderInv links run) (expects : ByteString → ByteString → Bool)
    (op : EnqueueOp) : OrderInv links (run.beginSync expects op) := by
  rcases run.beginSync_cases op with heq | ⟨todo, hnone, heq | ⟨instruments, heq⟩⟩
  · rwa [heq]
  · rw [heq]
    exact h.keep rfl (Or.inl rfl) le_rfl fun token entry held hmem => absurd hmem (hnone token entry held)
  · rw [heq]
    exact h.keep rfl (Or.inl rfl) (Nat.le_succ _) fun token entry held hmem => absurd hmem (hnone token entry held)

theorem mem_tail {action : RunAction} {actions todo : List RunAction} (htodo : todo = action :: actions) {other : RunAction}
    (hmem : other ∈ actions) : other ∈ todo := by
  rw [htodo]
  exact List.mem_cons_of_mem action hmem

/-- The thread leaves `execute`. -/
theorem leave (h : OrderInv links run) {future : FutureRef} (hcall : run.inCall = some future) {call : ExecuteCall}
    (hfuture : (links future.1).proxy.calls future.2 = some call) (hended : call.Ended) :
    ∀ d ∈ run.dispatched, ∀ p, d.promise = some p → ∃ call, (links d.inst).proxy.calls p = some call ∧ call.Ended := by
  intro d hd p hp
  by_cases hthis : some future = some (d.inst, p)
  · obtain rfl := Option.some.inj hthis
    exact ⟨call, hfuture, hended⟩
  · exact h.ended d hd p hp (hcall ▸ hthis)

theorem sent (h : OrderInv links run) {future : FutureRef} (hcall : run.inCall = some future) {call : ExecuteCall}
    (hfuture : (links future.1).proxy.calls future.2 = some call) (hended : call.Ended) :
    OrderInv links (run.sent future) := by
  have hall := h.leave hcall hfuture hended
  rw [MeasurementRun.sent]
  split
  · rename_i token entry held todo htodo
    have hnext := RuntimeContext.nextSyncToken_dispatch run.ctx token entry.result (.sent future)
    refine h.keep rfl (Or.inr (Or.inr hall)) hnext.ge fun t e b hmem => ?_
    exact (h.current t e b (mem_tail htodo hmem)).trans hnext.symm
  · rename_i cmd todo htodo
    exact h.keep rfl (Or.inr (Or.inr hall)) le_rfl fun t e b hmem => h.current t e b (mem_tail htodo hmem)
  · exact h

theorem raised (h : OrderInv links run) {future : FutureRef} (hcall : run.inCall = some future) {call : ExecuteCall}
    (hfuture : (links future.1).proxy.calls future.2 = some call) (hended : call.Ended) : OrderInv links run.raised := by
  have hall := h.leave hcall hfuture hended
  rw [MeasurementRun.raised]
  split
  · rename_i token entry held todo htodo
    have hnext := RuntimeContext.nextSyncToken_dispatch run.ctx token entry.result .raised
    exact h.keep rfl (Or.inr (Or.inr hall)) hnext.ge (by simp)
  · exact h.keep rfl (Or.inr (Or.inr hall)) le_rfl (by simp)

theorem nextInOrder (h : OrderInv links run) (hlinks : ∀ inst, LinkInv N (links inst))
    (hmove : ∀ inst, ServerState.LinkMove N (links inst) (links' inst)) (hcall : run.inCall = none)
    (hnext : NextInOrder links run) : NextInOrder links' run := by
  intro next hthis hreal a ha hab p hp hsent
  obtain ⟨call, hknown, hended⟩ := h.ended a ha p hp (by simp [hcall])
  have hold := (hlinks a.inst).sent_of_ended (hmove a.inst) hknown hended hsent
  rcases hnext next hthis hreal a ha hab p hp hold with hinst | hexecuted
  · exact Or.inl hinst
  · exact Or.inr ((ServerState.grows_of_move (hlinks a.inst) (hmove a.inst)).executed_mono hexecuted)

theorem move {s t : ServerState} (h : OrderInv s.links run) (hlinks : ∀ inst, LinkInv N (s.links inst))
    (hmove : ∀ inst, ServerState.LinkMove N (s.links inst) (t.links inst)) {expects : ByteString → ByteString → Bool}
    {enqueueMode : Bool} {c : Nat} {label : ServerLabel} (hrun : ServerState.RunMove expects enqueueMode s t c run label run')
    (hnext : ∀ found, label = .act c found → NextInOrder s.links run) : OrderInv t.links run' := by
  have hmoved := h.linkMove hlinks hmove
  have hfuture : ∀ {future : FutureRef} {point : ExecutePoint}, (s.links future.1).proxy.point future.2 = some point →
      (∀ call : ExecuteCall, call.point = point → call.Ended) →
        ∃ call, (t.links future.1).proxy.calls future.2 = some call ∧ call.Ended := by
    intro future point hpoint hended
    obtain ⟨call, hcall, hpoint⟩ := Option.map_eq_some_iff.mp hpoint
    obtain ⟨call', hcall', hevolves⟩ := (ServerState.grows_of_move (hlinks future.1) (hmove future.1)).calls _ call hcall
    exact ⟨call', hcall', (hevolves.ended (hended call hpoint)).1⟩
  cases hrun with
  | rest => exact hmoved
  | beginEnqueue hmode hscript op found => exact hmoved.beginEnqueue hscript expects found op
  | beginSync hmode hscript op found => exact hmoved.beginSync expects op
  | monitor hmode hscript =>
      refine hmoved.keep rfl (Or.inl rfl) le_rfl fun token entry held hmem => ?_
      obtain ⟨_, -, hmem⟩ := List.mem_flatMap.mp hmem
      simp [MeasurementRun.tokenActions] at hmem
  | done hmode hscript => exact hmoved.keep rfl (Or.inl rfl) le_rfl hmoved.current
  | fail hscript => exact hmoved.keep rfl (Or.inl rfl) le_rfl hmoved.current
  | finish hcall htodo hphase => exact hmoved.keep rfl (Or.inl rfl) le_rfl hmoved.current
  | @dispatch token entry held found todo hcall htodo hlink =>
      refine hmoved.dispatch hcall htodo ⟨⟨entry.cmd, none, .created⟩, ?_, rfl⟩
        (h.nextInOrder hlinks hmove hcall (hnext found rfl))
      rw [hlink]
      exact Function.update_self ..
  | noWorker hcall htodo => exact hmoved.noWorker hcall htodo (RuntimeContext.nextSyncToken_dispatch _ _ _ _)
  | await hcall htodo hvalue =>
      have hsame := RuntimeContext.nextSyncToken_fill run.ctx
      refine hmoved.keep rfl (Or.inl rfl) (hsame _ _ _).ge fun token entry held hmem => ?_
      exact (hmoved.current token entry held (mem_tail htodo hmem)).trans (hsame _ _ _).symm
  | release hcall htodo =>
      exact hmoved.keep rfl (Or.inl rfl) le_rfl fun t e b hmem => hmoved.current t e b (mem_tail htodo hmem)
  | clear hcall htodo =>
      exact hmoved.keep rfl (Or.inl rfl) le_rfl fun t e b hmem => hmoved.current t e b (mem_tail htodo hmem)
  | send hcall htodo => exact hmoved.keep rfl (Or.inr (Or.inl hcall)) le_rfl hmoved.current
  | skip hcall htodo =>
      exact hmoved.keep rfl (Or.inl rfl) le_rfl fun t e b hmem => hmoved.current t e b (mem_tail htodo hmem)
  | recordCall hcall htodo resp =>
      exact hmoved.keep rfl (Or.inl rfl) le_rfl fun t e b hmem => hmoved.current t e b (mem_tail htodo hmem)
  | recordBlock hcall htodo hfutures resp => exact hmoved.keep rfl (Or.inl rfl) le_rfl hmoved.current
  | endBlock hcall htodo =>
      exact hmoved.keep rfl (Or.inl rfl) le_rfl fun t e b hmem => hmoved.current t e b (mem_tail htodo hmem)
  | sent hcall hpoint =>
      obtain ⟨call, hknown, hended⟩ := hfuture hpoint fun _ hpoint => Or.inl (Or.inl hpoint)
      exact hmoved.sent hcall hknown hended
  | raised hcall hpoint =>
      obtain ⟨call, hknown, hended⟩ := hfuture hpoint fun _ hpoint => Or.inr hpoint
      exact hmoved.raised hcall hknown hended

end OrderInv

namespace ServerState

variable {N : JsonLibrary} {expects : ByteString → ByteString → Bool} {enqueueMode : Nat → Bool} {s t : ServerState}

/-- Whenever a run of a job sends a command, the earlier tokens are in order. -/
def SendsInOrder (s : ServerState) : ServerLabel → Prop
  | .act c _ => NextInOrder s.links (s.runs c)
  | _ => True

instance (s : ServerState) (label : ServerLabel) : Decidable (SendsInOrder s label) :=
  match label with
  | .act c _ => inferInstanceAs (Decidable (NextInOrder s.links (s.runs c)))
  | .begin _ _ _ | .stop _ | .endScript _ | .fail _ | .endCall _ | .timeout _ | .advance _ _ _ | .listen _
  | .workerReceive _ | .workerFinish _ _ _ | .workerAck _ _ => inferInstanceAs (Decidable True)

/-- In every interleaving over a fixed set of instruments in which the commands are sent in order, every job runs in lockstep. -/
theorem job_lockstep_of_sendsInOrder {registry : Registry}
    (hreach : ReachableWhile (system N expects enqueueMode)
      (fun s label => Steady registry s label ∧ SendsInOrder s label) s) (c : Nat) : Lockstep s.links (s.runs c) := by
  have hinv : (∀ inst, LinkInv N (s.links inst)) ∧ ∀ c, OrderInv s.links (s.runs c) := by
    refine @ReachableWhile.invariant _ _ _ _ (fun s => (∀ inst, LinkInv N (s.links inst)) ∧ ∀ c, OrderInv s.links (s.runs c))
      ⟨fun inst => LinkInv.init N inst, fun c => OrderInv.init _⟩ (fun s t label h hok hnext => ?_) s hreach
    obtain ⟨hlinks, hruns⟩ := h
    have hmove := step_linkMove hnext hok.1.ne_stop
    refine ⟨fun inst => linkInv_of_move (hlinks inst) (hmove inst), fun c => ?_⟩
    refine (hruns c).move hlinks hmove (step_runMove hnext c) fun found hlabel => ?_
    subst hlabel
    exact hok.2
  exact (hinv.2 c).lockstep hinv.1

/-- A job calls one instrument after the other. -/
def twoCalls (between : List ServerLabel) : List ServerLabel :=
  [.begin 0 (.call dmmAndScope.names ⟨bytes "DMM.MEASURE", .positional []⟩) true] ++ sentTo 0 (bytes "DMM") 0 ++ between ++
    [.begin 0 (.call dmmAndScope.names ⟨bytes "Scope.READ", .positional []⟩) true] ++ sentTo 0 (bytes "Scope") 0 ++
    [.workerReceive (bytes "Scope")]

/-- The first instrument is done before the second command is sent. -/
theorem job_lockstep_of_sendsInOrder_twoCalls :
    ∃ s, ReachableWhile (system .compact (fun _ _ => true) fun _ => true)
        (fun s label => Steady dmmAndScope s label ∧ SendsInOrder s label) s ∧
      (s.links (bytes "Scope")).Started 0 ∧ Lockstep s.links (s.runs 0) := by
  obtain ⟨s, hreach, hstarted⟩ := @ReachableWhile.of_any _ _ (system .compact (fun _ _ => true) fun _ => true)
    (fun s label => Steady dmmAndScope s label ∧ SendsInOrder s label) _ (twoCalls (executedOn (bytes "DMM")))
    (fun s => (s.links (bytes "Scope")).Started 0) (by decide +kernel)
  exact ⟨s, hreach, of_decide_eq_true hstarted, job_lockstep_of_sendsInOrder hreach 0⟩

/-- The second instrument begins the command of the second token while the first has not begun that of the first. -/
theorem lockstep_broken_twoCalls :
    ¬ ∀ s, ReachableWhile (system .compact (fun _ _ => true) fun _ => true) (Steady dmmAndScope) s →
      Lockstep s.links (s.runs 0) := by
  intro hlockstep
  obtain ⟨s, hreach, hbroken⟩ := @ReachableWhile.of_any _ _ (system .compact (fun _ _ => true) fun _ => true)
    (Steady dmmAndScope) _ (twoCalls []) (fun s => ¬ Lockstep s.links (s.runs 0)) (by decide +kernel)
  exact of_decide_eq_true hbroken (hlockstep s hreach)

end ServerState

end InstrumentServer
