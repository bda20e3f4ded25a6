import InstrumentServer.Lib.Transition
import InstrumentServer.Server.Measurement
import InstrumentServer.Server.ResultBookkeeping

/-!
# The indices of the results

Four containers are extended at different moments: a token is drawn first, then each of its commands gets a placeholder and an index, and only then, if a worker is there and `execute` returns, a future. Here the thread of a script in enqueue mode goes through these moments one by one. What a lookup finds is part of the label, so instruments may come and go between any two steps, and a script that catches an error goes on.

At each point the lists of indices, in the order of the tokens, are the numbers below the number of results. So `process_tokens_and_wait` finds the index of every future and never appends a result.

A placeholder and its index are pushed by two statements with nothing between them; they are one step.
-/

namespace InstrumentServer

open ByteString Transition

/-! ### The thread of a script -/

/-- Where the thread is; `held` if the worker was looked up before the token was drawn. -/
inductive EnqueuePoint where
  | script
  /-- about to push the placeholder of the first entry -/
  | recording (token : SyncToken) (held : Bool) (entries : List BlockEntry)
  /-- about to send a command that has its placeholder; the other entries come after it -/
  | sending (token : SyncToken) (held : Bool) (entries : List BlockEntry)
deriving DecidableEq

/-- The loop over the entries goes on, or the operation returns. -/
def EnqueuePoint.goOn (token : SyncToken) (held : Bool) : List BlockEntry → EnqueuePoint
  | [] => .script
  | entries => .recording token held entries

structure EnqueueRun (Future : Type) where
  ctx : RuntimeContext Future := {}
  inParallelBlock : Bool := false
  /-- `parallel` is in the call of its block -/
  blockRunning : Bool := false
  parallelBuffer : List SerializedCommand := []
  point : EnqueuePoint := .script

inductive EnqueueLabel (Future : Type) where
  /-- `found` is whether `get_instrument` finds a worker, `allInstruments` what `list_instruments` returns -/
  | call (call : ScriptCall) (found : Bool) (allInstruments : List ByteString)
  | enterBlock
  | leaveBlock (allInstruments : List ByteString)
  /-- the block fails; `caught` if `parallel` sees the error as a `std::exception` -/
  | failBlock (caught : Bool)
  | record
  | send (outcome : SendOutcome Future)

namespace EnqueueRun

variable {Future : Type}

def openToken (s : EnqueueRun Future) (allInstruments : List ByteString) (held : Bool) (entries : List BlockEntry) :
    EnqueueRun Future :=
  { s with ctx := s.ctx.drawToken allInstruments, point := .goOn s.ctx.nextSyncToken held entries }

/-- `call` up to its placeholder. -/
def call (expects : ByteString → ByteString → Bool) (s : EnqueueRun Future) (call : ScriptCall) (found : Bool)
    (allInstruments : List ByteString) : EnqueueRun Future :=
  match parseFuncName call.funcName with
  | none => s
  | some name =>
      if s.inParallelBlock then
        { s with parallelBuffer := s.parallelBuffer ++ [callCommand expects name call.args] }
      else if found then
        s.openToken allInstruments true [MeasurementRun.callEntry expects s.ctx.nextSyncToken name call.args]
      else s

/-- `parallel` up to the call of its block; a nested one is refused. -/
def enterBlock (s : EnqueueRun Future) : EnqueueRun Future :=
  if s.inParallelBlock then s else { s with inParallelBlock := true, blockRunning := true, parallelBuffer := [] }

/-- `parallel` behind the call of its block, up to the first placeholder. -/
def leaveBlock (s : EnqueueRun Future) (allInstruments : List ByteString) : EnqueueRun Future :=
  let s := { s with inParallelBlock := false, blockRunning := false }
  if s.parallelBuffer = [] then s
  else s.openToken allInstruments false (blockEntries s.ctx.nextSyncToken allInstruments s.parallelBuffer)

/-- An error that `parallel` does not catch leaves the flag set: every later call is buffered. -/
def failBlock (s : EnqueueRun Future) (caught : Bool) : EnqueueRun Future :=
  if caught then { s with inParallelBlock := false, blockRunning := false, parallelBuffer := [] }
  else { s with blockRunning := false }

def record (s : EnqueueRun Future) : Option (EnqueueRun Future) :=
  match s.point with
  | .recording token held (entry :: entries) =>
      some { s with ctx := s.ctx.pushResult token entry.result, point := .sending token held entries }
  | _ => none

/-- The lookup and `execute`; the worker of a call is there. -/
def send (s : EnqueueRun Future) (outcome : SendOutcome Future) : Option (EnqueueRun Future) :=
  match s.point with
  | .sending token held entries =>
      match outcome with
      | .noWorker => if held then none else some { s with point := .goOn token held entries }
      | .sent future => some { s with ctx := s.ctx.pushFuture token future, point := .goOn token held entries }
      | .raised => some { s with point := .script }
  | _ => none

def step (expects : ByteString → ByteString → Bool) (s : EnqueueRun Future) :
    EnqueueLabel Future → Option (EnqueueRun Future)
  | .call call found allInstruments =>
      if s.point = .script then some (s.call expects call found allInstruments) else none
  | .enterBlock => if s.point = .script then some s.enterBlock else none
  | .leaveBlock allInstruments =>
      if s.point = .script ∧ s.blockRunning then some (s.leaveBlock allInstruments) else none
  | .failBlock caught => if s.point = .script ∧ s.blockRunning then some (s.failBlock caught) else none
  | .record => s.record
  | .send outcome => s.send outcome

end EnqueueRun

/-- A script in enqueue mode, before `process_tokens_and_wait`. -/
def enqueueScript (Future : Type) (expects : ByteString → ByteString → Bool) :
    System (EnqueueRun Future) (EnqueueLabel Future) where
  init := {}
  step := EnqueueRun.step expects

/-! ### What a step does -/

namespace EnqueueRun

variable {Future : Type} {expects : ByteString → ByteString → Bool} {s t : EnqueueRun Future}
  {label : EnqueueLabel Future}

/-- The five things a step does to the context. -/
inductive Move (s t : EnqueueRun Future) : Prop where
  | keep (hpoint : t.point = .script) (hctx : t.ctx = s.ctx)
  | openToken (allInstruments : List ByteString) (held : Bool) (entries : List BlockEntry)
      (hpoint : t.point = .goOn s.ctx.nextSyncToken held entries) (hctx : t.ctx = s.ctx.drawToken allInstruments)
  | record (token : SyncToken) (held : Bool) (entry : BlockEntry) (entries : List BlockEntry)
      (hbefore : s.point = .recording token held (entry :: entries)) (hpoint : t.point = .sending token held entries)
      (hctx : t.ctx = s.ctx.pushResult token entry.result)
  | sent (token : SyncToken) (held : Bool) (entries : List BlockEntry) (future : Future)
      (hbefore : s.point = .sending token held entries) (hpoint : t.point = .goOn token held entries)
      (hctx : t.ctx = s.ctx.pushFuture token future)
  | skip (token : SyncToken) (held : Bool) (entries : List BlockEntry)
      (hbefore : s.point = .sending token held entries) (hpoint : t.point = .goOn token held entries)
      (hctx : t.ctx = s.ctx)

theorem move_call (hscript : s.point = .script) (call : ScriptCall) (found : Bool) (allInstruments : List ByteString) :
    Move s (s.call expects call found allInstruments) := by
  rw [EnqueueRun.call]
  split
  · exact .keep hscript rfl
  · split
    · exact .keep hscript rfl
    · split
      · exact .openToken allInstruments true [_] rfl rfl
      · exact .keep hscript rfl

theorem move_enterBlock (hscript : s.point = .script) : Move s s.enterBlock := by
  rw [enterBlock]
  split <;> exact .keep hscript rfl

theorem move_leaveBlock (hscript : s.point = .script) (allInstruments : List ByteString) :
    Move s (s.leaveBlock allInstruments) := by
  rw [leaveBlock]
  split
  · exact .keep hscript rfl
  · exact .openToken _ _ _ rfl rfl

theorem move_failBlock (hscript : s.point = .script) (caught : Bool) : Move s (s.failBlock caught) := by
  rw [failBlock]
  split <;> exact .keep hscript rfl

theorem move_record (hnext : s.record = some t) : Move s t := by
  rw [record] at hnext
  split at hnext
  · rename_i token held entry entries hpoint
    obtain rfl := Option.some.inj hnext
    exact .record token held entry entries hpoint rfl rfl
  · simp at hnext

theorem move_send {outcome : SendOutcome Future} (hnext : s.send outcome = some t) : Move s t := by
  rw [send] at hnext
  split at hnext
  · rename_i token held entries hpoint
    cases outcome with
    | noWorker =>
        obtain ⟨-, hnext⟩ := Option.ite_none_left_eq_some.mp hnext
        exact Option.some.inj hnext ▸ .skip token held entries hpoint rfl rfl
    | sent future => exact Option.some.inj hnext ▸ .sent token held entries future hpoint rfl rfl
    | raised => exact Option.some.inj hnext ▸ .keep rfl rfl
  · simp at hnext

theorem move_of_step (hnext : s.step expects label = some t) : Move s t := by
  cases label with
  | call call found allInstruments =>
      obtain ⟨hscript, hnext⟩ := Option.ite_none_right_eq_some.mp hnext
      exact Option.some.inj hnext ▸ move_call hscript call found allInstruments
  | enterBlock =>
      obtain ⟨hscript, hnext⟩ := Option.ite_none_right_eq_some.mp hnext
      exact Option.some.inj hnext ▸ move_enterBlock hscript
  | leaveBlock allInstruments =>
      obtain ⟨⟨hscript, -⟩, hnext⟩ := Option.ite_none_right_eq_some.mp hnext
      exact Option.some.inj hnext ▸ move_leaveBlock hscript allInstruments
  | failBlock caught =>
      obtain ⟨⟨hscript, -⟩, hnext⟩ := Option.ite_none_right_eq_some.mp hnext
      exact Option.some.inj hnext ▸ move_failBlock hscript caught
  | record => exact move_record hnext
  | send outcome => exact move_send hnext

end EnqueueRun

/-! ### The containers stay in step -/

namespace RuntimeContext

variable {Future : Type} {ctx : RuntimeContext Future}

/-- The lists of indices, in the order of the tokens, are the numbers below the number of results. -/
structure InStep (ctx : RuntimeContext Future) : Prop where
  increasing : ctx.tokenOrder.Pairwise (· < ·)
  below : ∀ t ∈ ctx.tokenOrder, t < ctx.nextSyncToken
  unknown : UnknownEmpty ctx
  covered : ∀ t, (ctx.tokenFutures t).length ≤ (ctx.tokenResultIndices t).length
  indices : ctx.tokenOrder.flatMap ctx.tokenResultIndices = List.range ctx.collectedResults.length

/-- The token of the operation at hand is the last one; a command that has its placeholder and is not sent has an index to spare. -/
def Current (ctx : RuntimeContext Future) : EnqueuePoint → Prop
  | .script => True
  | .recording token _ _ => ctx.tokenOrder.getLast? = some token
  | .sending token _ _ => ctx.tokenOrder.getLast? = some token ∧
      (ctx.tokenFutures token).length < (ctx.tokenResultIndices token).length

theorem current_goOn {token : SyncToken}
    (hlast : ctx.tokenOrder.getLast? = some token) (held : Bool) (entries : List BlockEntry) :
    ctx.Current (.goOn token held entries) := by
  cases entries with
  | nil => trivial
  | cons entry entries => exact hlast

namespace InStep

theorem init : InStep ({} : RuntimeContext Future) := ⟨List.Pairwise.nil, by simp, fun _ _ => ⟨rfl, rfl⟩, by simp, rfl⟩

theorem drawToken (h : InStep ctx) (allInstruments : List ByteString) : InStep (ctx.drawToken allInstruments) := by
  have hfresh : ctx.nextSyncToken ∉ ctx.tokenOrder := fun hmem => absurd (h.below _ hmem) (lt_irrefl _)
  refine ⟨?_, below_drawToken h.below allInstruments, h.unknown.drawToken allInstruments, h.covered, ?_⟩
  · show (ctx.tokenOrder ++ [ctx.nextSyncToken]).Pairwise (· < ·)
    rw [List.pairwise_append]
    refine ⟨h.increasing, List.pairwise_singleton _ _, fun t ht t' ht' => ?_⟩
    rw [List.mem_singleton.mp ht']
    exact h.below t ht
  · show (ctx.tokenOrder ++ [ctx.nextSyncToken]).flatMap ctx.tokenResultIndices = List.range ctx.collectedResults.length
    rw [List.flatMap_append, List.flatMap_singleton, (h.unknown _ hfresh).2, List.append_nil]
    exact h.indices

theorem pushResult (h : InStep ctx) {token : SyncToken} (hlast : ctx.tokenOrder.getLast? = some token)
    (cr : CallResult) : InStep (ctx.pushResult token cr) := by
  refine ⟨h.increasing, h.below, h.unknown.pushResult (List.mem_of_getLast? hlast) cr,
    covered_pushResult h.covered token cr, ?_⟩
  obtain ⟨earlier, horder⟩ := List.getLast?_eq_some_iff.mp hlast
  have hindices : (ctx.pushResult token cr).tokenResultIndices = Function.update ctx.tokenResultIndices token
      (ctx.tokenResultIndices token ++ [ctx.collectedResults.length]) := rfl
  -- the earlier tokens keep their lists, and the last one gets the new index
  have hearlier : earlier.flatMap (ctx.pushResult token cr).tokenResultIndices =
      earlier.flatMap ctx.tokenResultIndices := by
    have hlt := h.increasing
    rw [horder, List.pairwise_append] at hlt
    refine List.flatMap_congr fun t ht => ?_
    have hne : t ≠ token := (hlt.2.2 t ht token (List.mem_singleton_self token)).ne
    rw [hindices, Function.update_of_ne hne]
  have hall := h.indices
  rw [horder, List.flatMap_append, List.flatMap_singleton] at hall
  show ctx.tokenOrder.flatMap (ctx.pushResult token cr).tokenResultIndices =
    List.range (ctx.collectedResults ++ [cr]).length
  rw [horder, List.flatMap_append, List.flatMap_singleton, hearlier, hindices, Function.update_self,
    ← List.append_assoc, hall, List.length_append, List.length_singleton, List.range_succ]

theorem pushFuture (h : InStep ctx) {token : SyncToken} (hlast : ctx.tokenOrder.getLast? = some token)
    (hspare : (ctx.tokenFutures token).length < (ctx.tokenResultIndices token).length) (future : Future) :
    InStep (ctx.pushFuture token future) :=
  ⟨h.increasing, h.below, h.unknown.pushFuture (List.mem_of_getLast? hlast) future,
    covered_pushFuture h.covered hspare future, h.indices⟩

end InStep

end RuntimeContext

namespace EnqueueRun

variable {Future : Type} {expects : ByteString → ByteString → Bool} {s t : EnqueueRun Future}

/-- The invariant of the thread. -/
structure Coherent (s : EnqueueRun Future) : Prop where
  inStep : s.ctx.InStep
  current : s.ctx.Current s.point

theorem Coherent.move (h : Coherent s) (hmove : Move s t) : Coherent t := by
  obtain ⟨hstep, hcurrent⟩ := h
  cases hmove with
  | keep hpoint hctx =>
      refine ⟨by rwa [hctx], ?_⟩
      rw [hpoint]
      trivial
  | openToken allInstruments held entries hpoint hctx =>
      have hlast : t.ctx.tokenOrder.getLast? = some s.ctx.nextSyncToken := by
        rw [hctx]
        exact List.getLast?_concat
      refine ⟨by rw [hctx]; exact hstep.drawToken allInstruments, ?_⟩
      rw [hpoint]
      exact RuntimeContext.current_goOn hlast held entries
  | record token held entry entries hbefore hpoint hctx =>
      rw [hbefore] at hcurrent
      refine ⟨by rw [hctx]; exact hstep.pushResult hcurrent entry.result, ?_⟩
      rw [hctx, hpoint]
      exact ⟨hcurrent, RuntimeContext.spare_pushResult hstep.covered token entry.result⟩
  | sent token held entries future hbefore hpoint hctx =>
      rw [hbefore] at hcurrent
      have hlast : t.ctx.tokenOrder.getLast? = some token := by
        rw [hctx]
        exact hcurrent.1
      refine ⟨by rw [hctx]; exact hstep.pushFuture hcurrent.1 hcurrent.2 future, ?_⟩
      rw [hpoint]
      exact RuntimeContext.current_goOn hlast held entries
  | skip token held entries hbefore hpoint hctx =>
      rw [hbefore] at hcurrent
      refine ⟨by rwa [hctx], ?_⟩
      rw [hctx, hpoint]
      exact RuntimeContext.current_goOn hcurrent.1 held entries

/-- The containers are in step at every point of a script. -/
theorem coherent_of_reachable (hreach : Reachable (enqueueScript Future expects) s) : Coherent s :=
  hreach.invariant ⟨.init, trivial⟩ fun _ _ _ h hnext => h.move (move_of_step hnext)

end EnqueueRun

/-! ### The partition -/

namespace RuntimeContext

variable {Future : Type} {ctx : RuntimeContext Future}

/-- The lists of indices partition the results. -/
structure IndexPartition (ctx : RuntimeContext Future) : Prop where
  tokens : ctx.tokenOrder.Pairwise (· < ·)
  increasing : ∀ t ∈ ctx.tokenOrder, (ctx.tokenResultIndices t).Pairwise (· < ·)
  disjoint : ∀ t ∈ ctx.tokenOrder, ∀ t' ∈ ctx.tokenOrder, t ≠ t' →
    (ctx.tokenResultIndices t).Disjoint (ctx.tokenResultIndices t')
  exact : ∀ k, (∃ t ∈ ctx.tokenOrder, k ∈ ctx.tokenResultIndices t) ↔ k < ctx.collectedResults.length
  futures : ∀ t ∈ ctx.tokenOrder, (ctx.tokenFutures t).length ≤ (ctx.tokenResultIndices t).length

/-- Whichever future `process_tokens_and_wait` comes to, its index is there; so no result is appended. -/
structure NoFallback (answer : Future → Option CommandResponse) (ctx : RuntimeContext Future) : Prop where
  placed : ∀ before future after, ctx.pendingFutures = before ++ future :: after →
    ((ctx.collect answer before).place future).isSome
  length : (ctx.processTokensAndWait answer).collectedResults.length = ctx.collectedResults.length

theorem tokenResultIndices_fill (ctx : RuntimeContext Future) (token : SyncToken) (i : Nat)
    (answer : Option CommandResponse) : (ctx.fill token i answer).tokenResultIndices = ctx.tokenResultIndices := by
  cases answer with
  | none => rfl
  | some resp =>
      rw [fill]
      split <;> rfl

theorem tokenResultIndices_collect (answer : Future → Option CommandResponse)
    (futures : List (SyncToken × Nat × Future)) (ctx : RuntimeContext Future) :
    (ctx.collect answer futures).tokenResultIndices = ctx.tokenResultIndices := by
  induction futures generalizing ctx with
  | nil => rfl
  | cons future futures ih => rw [collect_cons, ih, tokenResultIndices_fill]

namespace InStep

theorem mem_indices_iff (h : InStep ctx) (k : Nat) :
    (∃ t ∈ ctx.tokenOrder, k ∈ ctx.tokenResultIndices t) ↔ k < ctx.collectedResults.length := by
  rw [← List.mem_flatMap, h.indices, List.mem_range]

/-- Each list increases, and all indices of a token are below those of a later one. -/
theorem pairwise_indices (h : InStep ctx) :
    (∀ t ∈ ctx.tokenOrder, (ctx.tokenResultIndices t).Pairwise (· < ·)) ∧
      ctx.tokenOrder.Pairwise fun t t' =>
        ∀ k ∈ ctx.tokenResultIndices t, ∀ k' ∈ ctx.tokenResultIndices t', k < k' := by
  rw [← List.pairwise_flatMap, h.indices]
  exact List.pairwise_lt_range

theorem disjoint (h : InStep ctx) {t t' : SyncToken} (ht : t ∈ ctx.tokenOrder) (ht' : t' ∈ ctx.tokenOrder)
    (hne : t ≠ t') : (ctx.tokenResultIndices t).Disjoint (ctx.tokenResultIndices t') := by
  have hlater : ctx.tokenOrder.Pairwise (Function.onFun List.Disjoint ctx.tokenResultIndices) :=
    h.pairwise_indices.2.imp fun hlt k hk hk' => lt_irrefl k (hlt k hk k hk')
  have hsymm : Std.Symm (Function.onFun List.Disjoint ctx.tokenResultIndices) := ⟨fun _ _ hdisjoint => hdisjoint.symm⟩
  exact hlater.forall ht ht' hne

/-- The books of the context are in order. -/
theorem books (h : InStep ctx) : Books ctx where
  nodup := h.increasing.imp fun hlt => hlt.ne
  below := h.below
  unknown := h.unknown
  covered := h.covered
  inside t k hk := (h.mem_indices_iff k).mp ⟨t, h.unknown.mem_tokenOrder hk, hk⟩
  disjoint t t' i i' k hk hk' := by
    have hmem := List.mem_of_getElem? hk
    have hmem' := List.mem_of_getElem? hk'
    obtain rfl : t = t' := by
      by_contra hne
      exact h.disjoint (h.unknown.mem_tokenOrder hmem) (h.unknown.mem_tokenOrder hmem') hne hmem hmem'
    have hnodup : (ctx.tokenResultIndices t).Nodup :=
      (h.pairwise_indices.1 t (h.unknown.mem_tokenOrder hmem)).imp fun hlt => hlt.ne
    exact ⟨rfl, (List.getElem?_inj (List.getElem?_eq_some_iff.mp hk).1 hnodup).mp (hk.trans hk'.symm)⟩

theorem indexPartition (h : InStep ctx) : IndexPartition ctx :=
  ⟨h.increasing, h.pairwise_indices.1, fun _ ht _ ht' hne => h.disjoint ht ht' hne, h.mem_indices_iff,
    fun t _ => h.covered t⟩

theorem noFallback (h : InStep ctx) (answer : Future → Option CommandResponse) : NoFallback answer ctx where
  placed before future after hsplit := by
    rw [place, tokenResultIndices_collect]
    exact h.books.placed future (by simp [hsplit])
  length := by
    have hsame := h.books.map_processTokensAndWait CallResult.call_populate answer
    simpa using congrArg List.length hsame

end InStep

end RuntimeContext

/-! ### Whole operations -/

namespace EnqueueRun

variable {Future : Type} {expects : ByteString → ByteString → Bool} {s : EnqueueRun Future}
  {outcome : Nat → SendOutcome Future}

/-- The thread is between two operations and not in a block. -/
structure Idle (s : EnqueueRun Future) : Prop where
  point : s.point = .script
  noBlock : s.inParallelBlock = false

theorem reachable_step {t : EnqueueRun Future} {label : EnqueueLabel Future}
    (hreach : Reachable (enqueueScript Future expects) s) (hnext : s.step expects label = some t) :
    Reachable (enqueueScript Future expects) t :=
  ReachableWhile.step hreach trivial hnext

theorem reachable_record (hreach : Reachable (enqueueScript Future expects) s) {token : SyncToken} {held : Bool}
    {entry : BlockEntry} {entries : List BlockEntry} (hpoint : s.point = .recording token held (entry :: entries)) :
    Reachable (enqueueScript Future expects)
      { s with ctx := s.ctx.pushResult token entry.result, point := .sending token held entries } := by
  have hnext : s.step expects .record =
      some { s with ctx := s.ctx.pushResult token entry.result, point := .sending token held entries } := by
    simp only [step, record, hpoint]
  exact reachable_step hreach hnext

theorem reachable_sent (hreach : Reachable (enqueueScript Future expects) s) {token : SyncToken} {held : Bool}
    {entries : List BlockEntry} (hpoint : s.point = .sending token held entries) (future : Future) :
    Reachable (enqueueScript Future expects)
      { s with ctx := s.ctx.pushFuture token future, point := .goOn token held entries } := by
  have hnext : s.step expects (.send (.sent future)) =
      some { s with ctx := s.ctx.pushFuture token future, point := .goOn token held entries } := by
    simp only [step, send, hpoint]
  exact reachable_step hreach hnext

theorem reachable_noWorker (hreach : Reachable (enqueueScript Future expects) s) {token : SyncToken}
    {entries : List BlockEntry} (hpoint : s.point = .sending token false entries) :
    Reachable (enqueueScript Future expects) { s with point := .goOn token false entries } := by
  have hnext : s.step expects (.send .noWorker) = some { s with point := .goOn token false entries } := by
    simp [step, send, hpoint]
  exact reachable_step hreach hnext

theorem reachable_raised (hreach : Reachable (enqueueScript Future expects) s) {token : SyncToken} {held : Bool}
    {entries : List BlockEntry} (hpoint : s.point = .sending token held entries) :
    Reachable (enqueueScript Future expects) { s with point := .script } := by
  have hnext : s.step expects (.send .raised) = some { s with point := .script } := by
    simp only [step, send, hpoint]
  exact reachable_step hreach hnext

/-- The loop over the entries of a token. -/
theorem exists_reachable_dispatchBlock (outcome : Nat → SendOutcome Future) {token : SyncToken} {held : Bool}
    {entries : List BlockEntry} (hheld : held = true → ∀ k, outcome k ≠ .noWorker) {s : EnqueueRun Future}
    (hreach : Reachable (enqueueScript Future expects) s) (hpoint : s.point = .goOn token held entries)
    (hblock : s.inParallelBlock = false) :
    ∃ t, Reachable (enqueueScript Future expects) t ∧ t.Idle ∧
      t.ctx = RuntimeContext.dispatchBlock outcome token s.ctx entries := by
  induction entries generalizing s with
  | nil => exact ⟨s, hreach, ⟨hpoint, hblock⟩, rfl⟩
  | cons entry entries ih =>
      have hrecorded := reachable_record hreach hpoint
      cases houtcome : outcome s.ctx.collectedResults.length with
      | raised =>
          rw [RuntimeContext.dispatchBlock_raised houtcome]
          exact ⟨_, reachable_raised hrecorded rfl, ⟨rfl, hblock⟩, rfl⟩
      | sent future =>
          rw [RuntimeContext.dispatchBlock_next (by simp [houtcome]), houtcome]
          exact ih (reachable_sent hrecorded rfl future) rfl hblock
      | noWorker =>
          obtain rfl : held = false := Bool.eq_false_iff.mpr fun htrue => hheld htrue _ houtcome
          rw [RuntimeContext.dispatchBlock_next (by simp [houtcome]), houtcome]
          exact ih (reachable_noWorker hrecorded rfl) rfl hblock

/-- The calls of a block are buffered. -/
theorem exists_reachable_buffer (calls : List ScriptCall) {s : EnqueueRun Future}
    (hreach : Reachable (enqueueScript Future expects) s) (hpoint : s.point = .script)
    (hblock : s.inParallelBlock = true) (hrunning : s.blockRunning = true) :
    Reachable (enqueueScript Future expects)
      { s with parallelBuffer := s.parallelBuffer ++ bufferedCommands expects calls } := by
  induction calls generalizing s with
  | nil =>
      rw [bufferedCommands, List.filterMap_nil, List.append_nil]
      exact hreach
  | cons single calls ih =>
      cases hname : parseFuncName single.funcName with
      | none =>
          have hsame : bufferedCommands expects (single :: calls) = bufferedCommands expects calls := by
            simp [bufferedCommands, ScriptCall.command?, hname]
          rw [hsame]
          exact ih hreach hpoint hblock hrunning
      | some name =>
          have hcons : bufferedCommands expects (single :: calls) =
              callCommand expects name single.args :: bufferedCommands expects calls := by
            simp [bufferedCommands, ScriptCall.command?, hname]
          have hnext : s.step expects (.call single true []) =
              some { s with parallelBuffer := s.parallelBuffer ++ [callCommand expects name single.args] } := by
            simp [step, hpoint, EnqueueRun.call, hname, hblock]
          have hrest := ih (reachable_step hreach hnext) hpoint hblock hrunning
          rw [hcons, List.append_cons]
          exact hrest

theorem exists_reachable_call (hreach : Reachable (enqueueScript Future expects) s) (hidle : s.Idle)
    (outcome : Nat → SendOutcome Future) (allInstruments : List ByteString) (single : ScriptCall) {name : CallName}
    (hname : parseFuncName single.funcName = some name) :
    ∃ t, Reachable (enqueueScript Future expects) t ∧ t.Idle ∧
      t.ctx = s.ctx.enqueueCall outcome allInstruments name (callParams name single.args) := by
  by_cases hfound : outcome s.ctx.collectedResults.length = .noWorker
  · refine ⟨s, hreach, hidle, ?_⟩
    simp only [RuntimeContext.enqueueCall, hfound]
  · have hnext : s.step expects (.call single true allInstruments) =
        some (s.openToken allInstruments true [MeasurementRun.callEntry expects s.ctx.nextSyncToken name single.args]) := by
      simp [step, hidle.point, EnqueueRun.call, hname, hidle.noBlock]
    have hpoint : (s.openToken allInstruments true
        [MeasurementRun.callEntry expects s.ctx.nextSyncToken name single.args]).point =
          .goOn s.ctx.nextSyncToken true [MeasurementRun.callEntry expects s.ctx.nextSyncToken name single.args] := rfl
    obtain ⟨t, ht, hidle', hctx⟩ := exists_reachable_dispatchBlock (fun _ => outcome s.ctx.collectedResults.length)
      (fun _ _ => hfound) (reachable_step hreach hnext) hpoint hidle.noBlock
    refine ⟨t, ht, hidle', ?_⟩
    rw [hctx, RuntimeContext.enqueueCall]
    cases houtcome : outcome s.ctx.collectedResults.length with
    | noWorker => exact absurd houtcome hfound
    | sent future => rfl
    | raised => rfl

theorem exists_reachable_block (hreach : Reachable (enqueueScript Future expects) s) (hidle : s.Idle)
    (outcome : Nat → SendOutcome Future) (allInstruments : List ByteString) (calls : List ScriptCall) :
    ∃ t, Reachable (enqueueScript Future expects) t ∧ t.Idle ∧
      t.ctx = s.ctx.enqueueBlock outcome allInstruments (bufferedCommands expects calls) := by
  have henter : s.step expects .enterBlock =
      some { s with inParallelBlock := true, blockRunning := true, parallelBuffer := [] } := by
    simp [step, hidle.point, enterBlock, hidle.noBlock]
  have hbuffered := exists_reachable_buffer calls (reachable_step hreach henter) hidle.point rfl rfl
  rw [List.nil_append] at hbuffered
  have hleave := @reachable_step _ _ _ _ (.leaveBlock allInstruments) hbuffered (if_pos ⟨hidle.point, rfl⟩)
  rw [leaveBlock] at hleave
  rw [RuntimeContext.enqueueBlock]
  split at hleave
  · rename_i hempty
    exact ⟨_, hleave, ⟨hidle.point, rfl⟩, (if_pos hempty).symm⟩
  · rename_i hbuffer
    obtain ⟨t, ht, hidle', hctx⟩ := exists_reachable_dispatchBlock outcome (fun h => absurd h Bool.false_ne_true) hleave
      rfl rfl
    exact ⟨t, ht, hidle', hctx.trans (if_neg hbuffer).symm⟩

/-- An operation of `runScript` is a sequence of steps. -/
theorem exists_reachable_runOp (hreach : Reachable (enqueueScript Future expects) s) (hidle : s.Idle)
    (outcome : Nat → SendOutcome Future) (op : EnqueueOp) :
    ∃ t, Reachable (enqueueScript Future expects) t ∧ t.Idle ∧ t.ctx = s.ctx.runOp expects outcome op := by
  cases op with
  | call allInstruments single =>
      rw [RuntimeContext.runOp]
      split
      · exact ⟨s, hreach, hidle, rfl⟩
      · rename_i name hname
        exact exists_reachable_call hreach hidle outcome allInstruments single hname
  | parallel allInstruments calls => exact exists_reachable_block hreach hidle outcome allInstruments calls

/-- Every context after a script is one of the contexts reached by single steps. -/
theorem exists_reachable_runScript (expects : ByteString → ByteString → Bool) (outcome : Nat → SendOutcome Future)
    (script : List EnqueueOp) :
    ∃ t, Reachable (enqueueScript Future expects) t ∧ t.Idle ∧
      t.ctx = RuntimeContext.runScript expects outcome script := by
  refine RuntimeContext.runScript_keeps
    (P := fun ctx => ∃ t, Reachable (enqueueScript Future expects) t ∧ t.Idle ∧ t.ctx = ctx) ?_ ?_ script
  · exact ⟨{}, .init, ⟨rfl, rfl⟩, rfl⟩
  · rintro _ op ⟨t, ht, hidle, rfl⟩
    exact exists_reachable_runOp ht hidle outcome op

/-- At every point of a script the lists of indices partition the results, and waiting for the futures from there appends none. -/
theorem indices_partition_results (hreach : Reachable (enqueueScript Future expects) s) :
    s.ctx.IndexPartition ∧ ∀ answer, s.ctx.NoFallback answer := by
  obtain ⟨hstep, -⟩ := coherent_of_reachable hreach
  exact ⟨hstep.indexPartition, hstep.noFallback⟩

def getOf (inst : ByteString) : ScriptCall := ⟨inst ++ bytes ".GET", .positional []⟩

/-- A call of an instrument that is not there yet, a call that is sent, a block whose first instrument is removed before its lookup, and a call whose `execute` throws. -/
def unsteadyRun : List (EnqueueLabel Nat) :=
  [.call (getOf (bytes "Scope")) false [bytes "DMM"],
    .call (getOf (bytes "DMM")) true dmmAndScope.names, .record, .send (.sent 10),
    .enterBlock, .call (getOf (bytes "DMM")) true [], .call (getOf (bytes "Scope")) true [], .leaveBlock dmmAndScope.names,
    .record, .send .noWorker, .record, .send (.sent 11),
    .call (getOf (bytes "Scope")) true [bytes "Scope"], .record, .send .raised]

theorem indices_partition_results_unsteady :
    ∃ s : EnqueueRun Nat, s.ctx.tokenOrder = [1, 2, 3] ∧
      s.ctx.tokenOrder.map s.ctx.tokenResultIndices = [[0], [1, 2], [3]] ∧
      s.ctx.tokenOrder.map s.ctx.tokenFutures = [[10], [11], []] ∧ s.ctx.collectedResults.length = 4 ∧
      s.ctx.IndexPartition ∧ ∀ answer, s.ctx.NoFallback answer := by
  have hany : ((enqueueScript Nat fun _ _ => false).run unsteadyRun).any (fun s =>
      s.ctx.tokenOrder = [1, 2, 3] && s.ctx.tokenOrder.map s.ctx.tokenResultIndices = [[0], [1, 2], [3]] &&
        s.ctx.tokenOrder.map s.ctx.tokenFutures = [[10], [11], []] && s.ctx.collectedResults.length = 4) = true := by
    decide +kernel
  obtain ⟨s, hreach, hview⟩ := ReachableWhile.of_any hany
  simp only [Bool.and_eq_true, decide_eq_true_eq] at hview
  obtain ⟨⟨⟨horder, hindices⟩, hfutures⟩, hlength⟩ := hview
  exact ⟨s, horder, hindices, hfutures, hlength, indices_partition_results hreach⟩

end EnqueueRun

end InstrumentServer
