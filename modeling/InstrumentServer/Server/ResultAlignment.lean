import InstrumentServer.Lib.Lists
import InstrumentServer.Server.ResultBookkeeping

/-!
# Results and removed instruments

Between `list_instruments` and the lookup of a worker another thread may remove the instrument. The entry of such a command is recorded and its future is not, so the two lists of the token no longer run side by side. This module says when every entry still gets its own answer: in no block may a command without worker stand before one that is sent.

A future is named by the entry its command was recorded in. What a lookup comes to is a parameter of the run, lookup by lookup: a call whose lookup fails leaves no entry, so `LookupRun` counts the lookups and notes for every entry what its own came to.
-/

namespace InstrumentServer

open ByteString

namespace RuntimeContext

/-- The futures of a run, named by their entries. -/
def named (fate : Nat → SendOutcome Unit) (k : Nat) : SendOutcome Nat :=
  match fate k with
  | .sent _ => .sent k
  | .noWorker => .noWorker
  | .raised => .raised

/-- The number of commands a block has to send. -/
def blockSize (expects : ByteString → ByteString → Bool) (allInstruments : List ByteString) (calls : List ScriptCall) : Nat :=
  if bufferedCommands expects calls = [] then 0
  else (blockEntries 0 allInstruments (bufferedCommands expects calls)).length

/-- The number of lookups of an operation, from lookup `start` on. -/
def lookupCount (expects : ByteString → ByteString → Bool) (fate : Nat → SendOutcome Unit) (start : Nat) : EnqueueOp → Nat
  | .call _ call => if (parseFuncName call.funcName).isSome then 1 else 0
  | .parallel allInstruments calls => dispatchCount fate start (blockSize expects allInstruments calls)

end RuntimeContext

open RuntimeContext

/-- A script on its way: how many lookups it has made, and what those came to that have an entry. -/
structure LookupRun where
  ctx : RuntimeContext Nat := {}
  lookups : Nat := 0
  fates : List (SendOutcome Unit) := []

namespace LookupRun

variable (expects : ByteString → ByteString → Bool) (fate : Nat → SendOutcome Unit)

/-- What the lookup of an entry came to; entries still to come belong to the next lookups. -/
def entryFate (s : LookupRun) (k : Nat) : SendOutcome Unit := (s.fates[k]?).getD (fate (s.lookups + (k - s.fates.length)))

def runOp (s : LookupRun) (op : EnqueueOp) : LookupRun :=
  let ctx := s.ctx.runOp expects (named (s.entryFate fate)) op
  { ctx
    lookups := s.lookups + lookupCount expects fate s.lookups op
    fates := (List.range ctx.collectedResults.length).map (s.entryFate fate) }

def run (script : List EnqueueOp) : LookupRun := script.foldl (runOp expects fate) {}

end LookupRun

namespace RuntimeContext

/-- After the wait an entry whose command was sent holds the answer to that command, any other is as it was. -/
def Aligned (expects : ByteString → ByteString → Bool) (fate : Nat → SendOutcome Unit) (script : List EnqueueOp) : Prop :=
  ∀ (answer : Nat → Option CommandResponse) (k : Nat) (cr : CallResult),
    (LookupRun.run expects fate script).ctx.collectedResults[k]? = some cr →
      ((LookupRun.run expects fate script).ctx.processTokensAndWait answer).collectedResults[k]? =
        some (if (LookupRun.run expects fate script).fates[k]? = some (.sent ()) then answered answer k cr else cr)

/-! ### The condition -/

/-- Among the `n` commands from lookup `start` on, none without worker stands before one that is sent. -/
def SendsFirst (fate : Nat → SendOutcome Unit) (start n : Nat) : Prop :=
  ∀ i j, i < j → j < n → (∀ r < j, fate (start + r) ≠ .raised) → fate (start + i) = .noWorker →
    fate (start + j) ≠ .sent ()

def BlocksSendFirst (expects : ByteString → ByteString → Bool) (fate : Nat → SendOutcome Unit) :
    Nat → List EnqueueOp → Prop
  | _, [] => True
  | start, .call allInstruments call :: script =>
      BlocksSendFirst expects fate (start + lookupCount expects fate start (.call allInstruments call)) script
  | start, .parallel allInstruments calls :: script =>
      SendsFirst fate start (blockSize expects allInstruments calls) ∧
        BlocksSendFirst expects fate (start + lookupCount expects fate start (.parallel allInstruments calls)) script

/-! ### What a run records -/

variable {fate fate' : Nat → SendOutcome Unit} {ctx : RuntimeContext Nat}

/-- The number of entries an operation records from entry `start` on. -/
def recorded (expects : ByteString → ByteString → Bool) (fate : Nat → SendOutcome Unit) (start : Nat) : EnqueueOp → Nat
  | .call _ call => if (parseFuncName call.funcName).isSome ∧ fate start ≠ .noWorker then 1 else 0
  | .parallel allInstruments calls => dispatchCount fate start (blockSize expects allInstruments calls)

/-- Every entry has a place, and the futures of a token are those of its entries that were sent. -/
structure Recorded (fate : Nat → SendOutcome Unit) (ctx : RuntimeContext Nat) : Prop where
  books : Books ctx
  futures : ∀ t, ctx.tokenFutures t = (ctx.tokenResultIndices t).filter fun k => fate k = .sent ()
  placed : ∀ k < ctx.collectedResults.length, ∃ t, k ∈ ctx.tokenResultIndices t
  blank : ∀ cr ∈ ctx.collectedResults, cr.success = false

theorem Recorded.empty : Recorded fate {} :=
  ⟨Books.empty, by simp, by simp, by simp⟩

theorem Recorded.drawToken (h : Recorded fate ctx) (allInstruments : List ByteString) :
    Recorded fate (ctx.drawToken allInstruments) :=
  ⟨h.books.drawToken allInstruments, h.futures, h.placed, h.blank⟩

theorem tokenFutures_dispatch_named (ctx : RuntimeContext Nat) (token : SyncToken) (cr : CallResult) (k : Nat) :
    (ctx.dispatch token cr (named fate k)).tokenFutures = Function.update ctx.tokenFutures token
      (ctx.tokenFutures token ++ [k].filter fun k => fate k = .sent ()) := by
  cases hfate : fate k with
  | sent _ => simp [named, hfate, dispatch, pushFuture, pushResult]
  | noWorker => simp [named, hfate, dispatch, pushResult]
  | raised => simp [named, hfate, dispatch, pushResult]

theorem Recorded.dispatch (h : Recorded fate ctx) {token : SyncToken} (htoken : token ∈ ctx.tokenOrder)
    {cr : CallResult} (hcr : cr.success = false) :
    Recorded fate (ctx.dispatch token cr (named fate ctx.collectedResults.length)) := by
  refine ⟨h.books.dispatch htoken cr _, fun t => ?_, fun k hk => ?_, fun cr' hcr' => ?_⟩
  · rw [tokenFutures_dispatch_named, tokenResultIndices_dispatch]
    by_cases ht : t = token
    · subst ht
      rw [Function.update_self, Function.update_self, List.filter_append, h.futures t]
    · rw [Function.update_of_ne ht, Function.update_of_ne ht]
      exact h.futures t
  · rw [collectedResults_dispatch, List.length_append, List.length_singleton] at hk
    rw [tokenResultIndices_dispatch]
    by_cases hlast : k = ctx.collectedResults.length
    · refine ⟨token, ?_⟩
      rw [Function.update_self]
      simp [hlast]
    · obtain ⟨t, ht⟩ := h.placed k (by omega)
      refine ⟨t, ?_⟩
      by_cases heq : t = token
      · subst heq
        rw [Function.update_self]
        exact List.mem_append_left _ ht
      · rwa [Function.update_of_ne heq]
  · rw [collectedResults_dispatch] at hcr'
    rcases List.mem_append.mp hcr' with hold | hnew
    · exact h.blank cr' hold
    · rw [List.mem_singleton.mp hnew]
      exact hcr

theorem Recorded.runOp (h : Recorded fate ctx) (expects : ByteString → ByteString → Bool) (op : EnqueueOp) :
    Recorded fate (ctx.runOp expects (named fate) op) :=
  runOp_keeps (fun _ allInstruments h => h.drawToken allInstruments) (fun _ _ _ h htoken hcr => h.dispatch htoken hcr)
    expects op h

/-- Only the fates of the entries that are there matter. -/
theorem Recorded.of_same (h : Recorded fate ctx) (hsame : ∀ k < ctx.collectedResults.length, fate' k = fate k) :
    Recorded fate' ctx where
  books := h.books
  futures t := by
    rw [h.futures t]
    exact List.filter_congr fun k hk => by rw [hsame k (h.books.inside t k hk)]
  placed := h.placed
  blank := h.blank

/-! ### Alignment of the lists of a token -/

/-- Under every token the entries that were sent come first. -/
def TokensSendFirst (fate : Nat → SendOutcome Unit) (ctx : RuntimeContext Nat) : Prop :=
  ∀ t, (ctx.tokenResultIndices t).Pairwise fun k k' => decide (fate k' = .sent ()) = true → decide (fate k = .sent ()) = true

/-- Then the futures of a token stand at the places of their entries. -/
theorem Recorded.index_of_future (h : Recorded fate ctx) (hfirst : TokensSendFirst fate ctx) {t : SyncToken} {i f : Nat}
    (hf : (ctx.tokenFutures t)[i]? = some f) : (ctx.tokenResultIndices t)[i]? = some f := by
  rw [h.futures t, Lists.filter_eq_takeWhile (hfirst t)] at hf
  obtain ⟨hi, rfl⟩ := List.getElem?_eq_some_iff.mp hf
  exact List.prefix_iff_getElem?.mp (List.takeWhile_prefix _) i hi

theorem Recorded.fills_iff (h : Recorded fate ctx) (hfirst : TokensSendFirst fate ctx) {k f : Nat}
    (hk : k < ctx.collectedResults.length) : ctx.Fills k f ↔ f = k ∧ fate k = .sent () := by
  constructor
  · rintro ⟨t, i, hindex, hfuture⟩
    obtain rfl : k = f := Option.some.inj (hindex.symm.trans (h.index_of_future hfirst hfuture))
    have hmem := List.mem_of_getElem? hfuture
    rw [h.futures t, List.mem_filter] at hmem
    exact ⟨rfl, of_decide_eq_true hmem.2⟩
  · rintro ⟨rfl, hsent⟩
    obtain ⟨t, ht⟩ := h.placed f hk
    have hmem : f ∈ ctx.tokenFutures t := by
      rw [h.futures t, List.mem_filter]
      exact ⟨ht, decide_eq_true hsent⟩
    obtain ⟨i, hi⟩ := List.getElem?_of_mem hmem
    exact ⟨t, i, h.index_of_future hfirst hi, hi⟩

theorem TokensSendFirst.congr (h : Books ctx) (hsame : ∀ k < ctx.collectedResults.length, fate' k = fate k) :
    TokensSendFirst fate' ctx ↔ TokensSendFirst fate ctx := by
  refine forall_congr' fun t => List.Pairwise.iff_of_mem fun hk hk' => ?_
  rw [hsame _ (h.inside t _ hk), hsame _ (h.inside t _ hk')]

/-- The answers come to the entries that were sent exactly if these come first under every token. -/
theorem Recorded.answered_iff (h : Recorded fate ctx) :
    (∀ (answer : Nat → Option CommandResponse) (k : Nat) (cr : CallResult), ctx.collectedResults[k]? = some cr →
      (ctx.processTokensAndWait answer).collectedResults[k]? =
        some (if fate k = .sent () then answered answer k cr else cr)) ↔ TokensSendFirst fate ctx := by
  constructor
  · intro haligned t
    -- a future at the place of an entry that was not sent would mark it as answered
    refine Lists.pairwise_of_filter fun i k f hk hf => decide_eq_true ?_
    by_contra hunsent
    have hfills : ctx.Fills k f := ⟨t, i, hk, h.futures t ▸ hf⟩
    obtain ⟨cr, hcr⟩ : ∃ cr, ctx.collectedResults[k]? = some cr :=
      ⟨_, List.getElem?_eq_getElem (h.books.inside t k (List.mem_of_getElem? hk))⟩
    have hsame := haligned (fun _ => some { success := true }) k cr hcr
    rw [h.books.processTokensAndWait_fills _ hfills, hcr, if_neg hunsent] at hsame
    have hsuccess := congrArg CallResult.success (Option.some.inj hsame)
    rw [h.blank cr (List.mem_of_getElem? hcr)] at hsuccess
    simp [answered] at hsuccess
  · intro hfirst answer k cr hcr
    have hk : k < ctx.collectedResults.length := (List.getElem?_eq_some_iff.mp hcr).1
    split
    · rename_i hsent
      rw [h.books.processTokensAndWait_fills answer ((h.fills_iff hfirst hk).mpr ⟨rfl, hsent⟩), hcr]
      rfl
    · rename_i hunsent
      rw [h.books.processTokensAndWait_of_not_fills answer fun f hf => hunsent ((h.fills_iff hfirst hk).mp hf).2, hcr]

/-! ### Alignment of a script -/

theorem named_eq_raised {k : Nat} : named fate k = .raised ↔ fate k = .raised := by
  cases hfate : fate k <;> simp [named, hfate]

theorem named_eq_noWorker {k : Nat} : named fate k = .noWorker ↔ fate k = .noWorker := by
  cases hfate : fate k <;> simp [named, hfate]

theorem dispatchCount_named (start n : Nat) : dispatchCount (named fate) start n = dispatchCount fate start n := by
  refine eq_of_forall_lt_iff fun j => ?_
  simp only [lt_dispatchCount_iff, ne_eq, named_eq_raised]

theorem length_blockEntries (token : SyncToken) (allInstruments : List ByteString) (buffer : List SerializedCommand) :
    (blockEntries token allInstruments buffer).length = (blockEntries 0 allInstruments buffer).length := by
  rw [blockEntries, blockEntries, List.length_flatMap, List.length_flatMap]
  congr 2
  funext inst
  split
  · rfl
  · simp [instrumentEntries]

/-- An operation records its entries under the next token. -/
theorem runOp_records (h : Books ctx) (expects : ByteString → ByteString → Bool) (op : EnqueueOp) :
    (ctx.runOp expects (named fate) op).tokenResultIndices = Function.update ctx.tokenResultIndices ctx.nextSyncToken
        (List.range' ctx.collectedResults.length (recorded expects fate ctx.collectedResults.length op)) ∧
      (ctx.runOp expects (named fate) op).collectedResults.length =
        ctx.collectedResults.length + recorded expects fate ctx.collectedResults.length op := by
  have hfresh : ctx.tokenResultIndices ctx.nextSyncToken = [] :=
    (h.unknown _ fun hmem => absurd (h.below _ hmem) (lt_irrefl _)).2
  have hkept : Function.update ctx.tokenResultIndices ctx.nextSyncToken [] = ctx.tokenResultIndices := by
    rw [← hfresh, Function.update_eq_self]
  cases op with
  | call allInstruments call =>
      rw [runOp, recorded]
      split
      · rename_i hname
        simp [hname, hkept]
      · rename_i name hname
        rw [enqueueCall]
        split
        · rename_i hfate
          simp [named_eq_noWorker.mp hfate, hkept]
        · rename_i hfate
          have hfound : fate ctx.collectedResults.length ≠ .noWorker := fun hfate' => hfate (named_eq_noWorker.mpr hfate')
          rw [if_pos ⟨by simp [hname], hfound⟩, tokenResultIndices_dispatch, collectedResults_dispatch]
          refine ⟨?_, by simp [drawToken]⟩
          show Function.update ctx.tokenResultIndices ctx.nextSyncToken
            (ctx.tokenResultIndices ctx.nextSyncToken ++ [ctx.collectedResults.length]) = _
          rw [hfresh]
          rfl
  | parallel allInstruments calls =>
      rw [runOp, enqueueBlock, recorded, blockSize]
      split
      · simp [dispatchCount, hkept]
      · have hle := dispatchCount_le fate ctx.collectedResults.length
          (blockEntries 0 allInstruments (bufferedCommands expects calls)).length
        rw [dispatchBlock_tokenResultIndices, dispatchBlock_collectedResults, dispatchCount_named, length_blockEntries]
        refine ⟨?_, ?_⟩
        · show Function.update ctx.tokenResultIndices ctx.nextSyncToken
            (ctx.tokenResultIndices ctx.nextSyncToken ++ _) = _
          rw [hfresh]
          rfl
        · rw [List.length_append, List.length_map, List.length_take, length_blockEntries ctx.nextSyncToken]
          exact congrArg (ctx.collectedResults.length + ·) (Nat.min_eq_left hle)

theorem pairwise_dispatched_iff (start n : Nat) :
    ((List.range' start (dispatchCount fate start n)).Pairwise fun k k' =>
      decide (fate k' = .sent ()) = true → decide (fate k = .sent ()) = true) ↔ SendsFirst fate start n := by
  rw [Lists.pairwise_range'_iff]
  simp only [decide_eq_true_eq, lt_dispatchCount_iff]
  constructor
  · intro h i j hij hj hraised hgone hsent
    rw [h i j hij ⟨hj, hraised⟩ hsent] at hgone
    contradiction
  · rintro h i j hij ⟨hj, hraised⟩ hsent
    cases hfate : fate (start + i) with
    | sent _ => rfl
    | noWorker => exact absurd hsent (h i j hij hj hraised hfate)
    | raised => exact absurd hfate (hraised i hij)

theorem tokensSendFirst_runOp (h : Books ctx) (expects : ByteString → ByteString → Bool) (op : EnqueueOp) :
    TokensSendFirst fate (ctx.runOp expects (named fate) op) ↔ TokensSendFirst fate ctx ∧
      (List.range' ctx.collectedResults.length (recorded expects fate ctx.collectedResults.length op)).Pairwise
        fun k k' => decide (fate k' = .sent ()) = true → decide (fate k = .sent ()) = true := by
  have hfresh : ctx.tokenResultIndices ctx.nextSyncToken = [] :=
    (h.unknown _ fun hmem => absurd (h.below _ hmem) (lt_irrefl _)).2
  rw [TokensSendFirst, (runOp_records h expects op).1, Function.forall_update_iff _ fun _ (l : List Nat) => l.Pairwise _]
  rw [and_comm]
  refine and_congr_left fun _ => ⟨fun hothers t => ?_, fun hall t _ => hall t⟩
  by_cases ht : t = ctx.nextSyncToken
  · rw [ht, hfresh]
    exact List.Pairwise.nil
  · exact hothers t ht

/-- The fates of the same commands, by entry from one place on, and by lookup from another. -/
theorem sendsFirst_shift {start start' : Nat} (hshift : ∀ i, fate' (start' + i) = fate (start + i)) (n : Nat) :
    SendsFirst fate' start' n ↔ SendsFirst fate start n := by
  simp only [SendsFirst, hshift]

end RuntimeContext

namespace LookupRun

variable {expects : ByteString → ByteString → Bool} {fate : Nat → SendOutcome Unit} {s : LookupRun}

/-- Every entry has its fate. -/
structure Noted (fate : Nat → SendOutcome Unit) (s : LookupRun) : Prop where
  entries : Recorded (s.entryFate fate) s.ctx
  length : s.fates.length = s.ctx.collectedResults.length

theorem noted_empty : Noted fate {} := ⟨Recorded.empty, rfl⟩

/-- The entries still to come belong to the next lookups. -/
theorem Noted.entryFate_next (h : Noted fate s) (i : Nat) :
    s.entryFate fate (s.ctx.collectedResults.length + i) = fate (s.lookups + i) := by
  rw [entryFate, ← h.length, List.getElem?_eq_none (Nat.le_add_right _ _), Nat.add_sub_cancel_left]
  rfl

/-- What an entry has come to stays. -/
theorem entryFate_runOp (op : EnqueueOp) {k : Nat} (hk : k < (s.runOp expects fate op).ctx.collectedResults.length) :
    (s.runOp expects fate op).entryFate fate k = s.entryFate fate k := by
  have hnoted : (s.runOp expects fate op).fates[k]? = some (s.entryFate fate k) :=
    List.getElem?_map.trans (congrArg (Option.map _) (List.getElem?_range hk))
  rw [entryFate, hnoted]
  rfl

theorem Noted.runOp (h : Noted fate s) (op : EnqueueOp) : Noted fate (s.runOp expects fate op) where
  entries := (h.entries.runOp expects op).of_same fun _ hk => entryFate_runOp op hk
  length := by simp [LookupRun.runOp]

/-- An operation keeps the order of every token that was there, and adds its own. -/
theorem Noted.tokensSendFirst_runOp (h : Noted fate s) (op : EnqueueOp) :
    TokensSendFirst ((s.runOp expects fate op).entryFate fate) (s.runOp expects fate op).ctx ↔
      TokensSendFirst (s.entryFate fate) s.ctx ∧ BlocksSendFirst expects fate s.lookups [op] := by
  have hbooks : Books (s.runOp expects fate op).ctx := (h.runOp op).entries.books
  rw [TokensSendFirst.congr hbooks fun k hk => entryFate_runOp op hk]
  refine (RuntimeContext.tokensSendFirst_runOp h.entries.books expects op).trans (and_congr_right fun _ => ?_)
  cases op with
  | call allInstruments call =>
      rw [recorded, BlocksSendFirst, BlocksSendFirst]
      split <;> simp
  | parallel allInstruments calls =>
      rw [recorded, pairwise_dispatched_iff, sendsFirst_shift h.entryFate_next, BlocksSendFirst, BlocksSendFirst, and_true]

theorem Noted.tokensSendFirst_foldl (h : Noted fate s) (script : List EnqueueOp) :
    TokensSendFirst ((script.foldl (LookupRun.runOp expects fate) s).entryFate fate)
        (script.foldl (LookupRun.runOp expects fate) s).ctx ↔
      TokensSendFirst (s.entryFate fate) s.ctx ∧ BlocksSendFirst expects fate s.lookups script := by
  induction script generalizing s with
  | nil => simp [BlocksSendFirst]
  | cons op script ih =>
      rw [List.foldl_cons, ih (h.runOp op), h.tokensSendFirst_runOp, and_assoc]
      refine and_congr_right fun _ => ?_
      cases op with
      | call | parallel => simp [BlocksSendFirst, LookupRun.runOp]

theorem Noted.foldl (h : Noted fate s) (script : List EnqueueOp) :
    Noted fate (script.foldl (LookupRun.runOp expects fate) s) := by
  induction script generalizing s with
  | nil => exact h
  | cons op script ih => exact ih (h.runOp op)

/-- The fate of an entry that is there was noted. -/
theorem Noted.fates_eq_some_iff (h : Noted fate s) {k : Nat} (hk : k < s.ctx.collectedResults.length) :
    s.fates[k]? = some (.sent ()) ↔ s.entryFate fate k = .sent () := by
  rw [← h.length] at hk
  rw [entryFate, List.getElem?_eq_getElem hk, Option.getD_some, Option.some.injEq]

end LookupRun

namespace RuntimeContext

/-- Every entry gets the answer to its own command if and only if in no block a command without worker stands before one that is sent. -/
theorem results_aligned_iff (expects : ByteString → ByteString → Bool) (fate : Nat → SendOutcome Unit)
    (script : List EnqueueOp) : Aligned expects fate script ↔ BlocksSendFirst expects fate 0 script := by
  have hnoted : LookupRun.Noted fate (LookupRun.run expects fate script) := LookupRun.noted_empty.foldl script
  have hblocks := @LookupRun.Noted.tokensSendFirst_foldl expects fate {} LookupRun.noted_empty script
  have hempty : TokensSendFirst (LookupRun.entryFate fate {}) ({} : LookupRun).ctx := fun t => List.Pairwise.nil
  rw [and_iff_right hempty, ← LookupRun.run] at hblocks
  rw [← hblocks, ← hnoted.entries.answered_iff]
  refine forall_congr' fun answer => forall_congr' fun k => forall_congr' fun cr => imp_congr_right fun hcr => ?_
  rw [if_congr (hnoted.fates_eq_some_iff (List.getElem?_eq_some_iff.mp hcr).1) rfl rfl]

/-- A block over two instruments, the first of which is removed before its worker is looked up. -/
theorem results_not_aligned_removedFirst :
    ¬ Aligned (fun _ _ => true) (fun k => if k = 0 then .noWorker else .sent ())
      [.parallel [bytes "DMM", bytes "Scope"]
        [⟨bytes "DMM.MEASURE", .positional []⟩, ⟨bytes "Scope.READ", .positional []⟩]] := by
  intro haligned
  have hentry := haligned (fun _ => some { success := true }) 0 { instrumentName := bytes "DMM", verb := bytes "MEASURE" }
    (by decide +kernel)
  revert hentry
  decide +kernel

end RuntimeContext

end InstrumentServer
