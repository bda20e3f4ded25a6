import InstrumentServer.Server.RuntimeContext

/-!
# The bookkeeping of results

A placeholder is found again through two lists per token: the futures and the indices of the results, paired by position. `Books` says that the lists of a context are in order; every step of a script keeps it. For such a context `Fills` is a partial function from entries to futures, and collecting the futures gives every entry the answer of the future that fills it.
-/

namespace InstrumentServer.RuntimeContext

variable {Future : Type} {ctx : RuntimeContext Future}

structure Books (ctx : RuntimeContext Future) : Prop where
  nodup : ctx.tokenOrder.Nodup
  below : ∀ t ∈ ctx.tokenOrder, t < ctx.nextSyncToken
  unknown : ∀ t, t ∉ ctx.tokenOrder → ctx.tokenFutures t = [] ∧ ctx.tokenResultIndices t = []
  covered : ∀ t, (ctx.tokenFutures t).length ≤ (ctx.tokenResultIndices t).length
  inside : ∀ t, ∀ k ∈ ctx.tokenResultIndices t, k < ctx.collectedResults.length
  disjoint : ∀ (t t' : SyncToken) (i i' k : Nat), (ctx.tokenResultIndices t)[i]? = some k → (ctx.tokenResultIndices t')[i']? = some k →
    t = t' ∧ i = i'

/-- The entry and the future have the same place under the same token. -/
def Fills (ctx : RuntimeContext Future) (k : Nat) (f : Future) : Prop :=
  ∃ (t : SyncToken) (i : Nat), (ctx.tokenResultIndices t)[i]? = some k ∧ (ctx.tokenFutures t)[i]? = some f

/-! ### Scripts keep the books -/

theorem Books.empty : Books ({} : RuntimeContext Future) :=
  ⟨List.nodup_nil, by simp, by simp, by simp, by simp, by simp⟩

section Tokens

variable {token : SyncToken}

theorem mem_tokenOrder_drawToken_iff {allInstruments : List ByteString} {t : SyncToken} :
    t ∈ (ctx.drawToken allInstruments).tokenOrder ↔ t ∈ ctx.tokenOrder ∨ t = ctx.nextSyncToken := by
  show t ∈ ctx.tokenOrder ++ [ctx.nextSyncToken] ↔ _
  rw [List.mem_append, List.mem_singleton]

theorem below_drawToken (hbelow : ∀ t ∈ ctx.tokenOrder, t < ctx.nextSyncToken) (allInstruments : List ByteString) :
    ∀ t ∈ (ctx.drawToken allInstruments).tokenOrder, t < (ctx.drawToken allInstruments).nextSyncToken := by
  intro t ht
  rcases mem_tokenOrder_drawToken_iff.mp ht with hold | rfl
  · exact Nat.lt_succ_of_lt (hbelow t hold)
  · exact Nat.lt_succ_self _

/-- The tokens that were not drawn have no lists. -/
def UnknownEmpty (ctx : RuntimeContext Future) : Prop :=
  ∀ t, t ∉ ctx.tokenOrder → ctx.tokenFutures t = [] ∧ ctx.tokenResultIndices t = []

theorem UnknownEmpty.drawToken (hunknown : UnknownEmpty ctx) (allInstruments : List ByteString) :
    UnknownEmpty (ctx.drawToken allInstruments) :=
  fun t ht => hunknown t fun hold => ht (mem_tokenOrder_drawToken_iff.mpr (Or.inl hold))

theorem UnknownEmpty.mem_tokenOrder (hunknown : UnknownEmpty ctx) {t : SyncToken} {k : Nat}
    (hk : k ∈ ctx.tokenResultIndices t) : t ∈ ctx.tokenOrder := by
  by_contra ht
  rw [(hunknown t ht).2] at hk
  simp at hk

theorem UnknownEmpty.pushResult (hunknown : UnknownEmpty ctx) (htoken : token ∈ ctx.tokenOrder) (cr : CallResult) :
    UnknownEmpty (ctx.pushResult token cr) := by
  intro t ht
  have hne : t ≠ token := (ne_of_mem_of_not_mem htoken ht).symm
  show ctx.tokenFutures t = [] ∧ Function.update ctx.tokenResultIndices token _ t = []
  rw [Function.update_of_ne hne]
  exact hunknown t ht

theorem UnknownEmpty.pushFuture (hunknown : UnknownEmpty ctx) (htoken : token ∈ ctx.tokenOrder) (future : Future) :
    UnknownEmpty (ctx.pushFuture token future) := by
  intro t ht
  have hne : t ≠ token := (ne_of_mem_of_not_mem htoken ht).symm
  show Function.update ctx.tokenFutures token _ t = [] ∧ ctx.tokenResultIndices t = []
  rw [Function.update_of_ne hne]
  exact hunknown t ht

/-- A new index leaves every token with enough of them. -/
theorem covered_pushResult (hcovered : ∀ t, (ctx.tokenFutures t).length ≤ (ctx.tokenResultIndices t).length)
    (token : SyncToken) (cr : CallResult) (t : SyncToken) :
    (ctx.tokenFutures t).length ≤ ((ctx.pushResult token cr).tokenResultIndices t).length := by
  refine le_trans (hcovered t) ?_
  show _ ≤ (Function.update ctx.tokenResultIndices token (_ ++ [_]) t).length
  by_cases ht : t = token
  · rw [ht, Function.update_self, List.length_append]
    exact Nat.le_add_right _ _
  · rw [Function.update_of_ne ht]

/-- A token with a spare index takes a future. -/
theorem covered_pushFuture (hcovered : ∀ t, (ctx.tokenFutures t).length ≤ (ctx.tokenResultIndices t).length)
    (hspare : (ctx.tokenFutures token).length < (ctx.tokenResultIndices token).length) (future : Future)
    (t : SyncToken) :
    ((ctx.pushFuture token future).tokenFutures t).length ≤ (ctx.tokenResultIndices t).length := by
  show (Function.update ctx.tokenFutures token (_ ++ [_]) t).length ≤ _
  by_cases ht : t = token
  · rw [ht, Function.update_self, List.length_append]
    exact hspare
  · rw [Function.update_of_ne ht]
    exact hcovered t

/-- The index just pushed is to spare. -/
theorem spare_pushResult (hcovered : ∀ t, (ctx.tokenFutures t).length ≤ (ctx.tokenResultIndices t).length)
    (token : SyncToken) (cr : CallResult) :
    (ctx.tokenFutures token).length < ((ctx.pushResult token cr).tokenResultIndices token).length := by
  show _ < (Function.update ctx.tokenResultIndices token (_ ++ [_]) token).length
  rw [Function.update_self, List.length_append]
  exact Nat.lt_succ_of_le (hcovered token)

end Tokens

theorem Books.drawToken (h : Books ctx) (allInstruments : List ByteString) : Books (ctx.drawToken allInstruments) := by
  have hfresh : ctx.nextSyncToken ∉ ctx.tokenOrder := fun hmem => absurd (h.below _ hmem) (lt_irrefl _)
  refine ⟨?_, below_drawToken h.below allInstruments, UnknownEmpty.drawToken h.unknown allInstruments, h.covered,
    h.inside, h.disjoint⟩
  show (ctx.tokenOrder ++ [ctx.nextSyncToken]).Nodup
  rw [List.nodup_append]
  refine ⟨h.nodup, by simp, fun t ht t' ht' => ?_⟩
  rw [List.mem_singleton.mp ht']
  exact fun he => hfresh (he ▸ ht)

theorem getElem?_snoc {α : Type} {l : List α} {a b : α} {i : Nat} :
    (l ++ [a])[i]? = some b ↔ l[i]? = some b ∨ (i = l.length ∧ a = b) := by
  by_cases hi : i < l.length
  · rw [List.getElem?_append_left hi]
    refine ⟨Or.inl, ?_⟩
    rintro (hold | ⟨heq, -⟩)
    · exact hold
    · omega
  · rw [List.getElem?_append_right (by omega), List.getElem?_singleton, List.getElem?_eq_none (by omega)]
    have heq : i - l.length = 0 ↔ i = l.length := by omega
    simp [heq]

theorem Books.pushResult (h : Books ctx) {token : SyncToken} (htoken : token ∈ ctx.tokenOrder) (cr : CallResult) :
    Books (ctx.pushResult token cr) := by
  have hindices : (ctx.pushResult token cr).tokenResultIndices = Function.update ctx.tokenResultIndices token
      (ctx.tokenResultIndices token ++ [ctx.collectedResults.length]) := rfl
  have hsize : (ctx.pushResult token cr).collectedResults.length = ctx.collectedResults.length + 1 := by
    simp [RuntimeContext.pushResult]
  -- an index is an old one, or the new one at the end of the token's list
  have hlookup : ∀ (t : SyncToken) (i k : Nat), ((ctx.pushResult token cr).tokenResultIndices t)[i]? = some k →
      ((ctx.tokenResultIndices t)[i]? = some k ∧ k < ctx.collectedResults.length) ∨
        (t = token ∧ i = (ctx.tokenResultIndices token).length ∧ k = ctx.collectedResults.length) := by
    intro t i k hk
    rw [hindices] at hk
    by_cases ht : t = token
    · subst ht
      rw [Function.update_self, getElem?_snoc] at hk
      rcases hk with hk | ⟨hi, hk⟩
      · exact Or.inl ⟨hk, h.inside t k (List.mem_of_getElem? hk)⟩
      · exact Or.inr ⟨rfl, hi, hk.symm⟩
    · rw [Function.update_of_ne ht] at hk
      exact Or.inl ⟨hk, h.inside t k (List.mem_of_getElem? hk)⟩
  refine ⟨h.nodup, h.below, UnknownEmpty.pushResult h.unknown htoken cr, covered_pushResult h.covered token cr,
    fun t k hk => ?_, fun t t' i i' k hk hk' => ?_⟩
  · obtain ⟨i, hi⟩ := List.getElem?_of_mem hk
    rw [hsize]
    rcases hlookup t i k hi with ⟨-, hlt⟩ | ⟨-, -, rfl⟩
    · omega
    · omega
  · rcases hlookup _ _ _ hk with ⟨hold, hlt⟩ | ⟨rfl, rfl, rfl⟩ <;>
      rcases hlookup _ _ _ hk' with ⟨hold', hlt'⟩ | ⟨rfl, rfl, heq⟩
    · exact h.disjoint t t' i i' k hold hold'
    · omega
    · omega
    · exact ⟨rfl, rfl⟩

theorem Books.dispatch (h : Books ctx) {token : SyncToken} (htoken : token ∈ ctx.tokenOrder) (cr : CallResult)
    (outcome : SendOutcome Future) : Books (ctx.dispatch token cr outcome) := by
  have hpushed := h.pushResult htoken cr
  cases outcome with
  | noWorker => exact hpushed
  | raised => exact hpushed
  | sent future =>
      have hspare := spare_pushResult h.covered token cr
      exact ⟨hpushed.nodup, hpushed.below, UnknownEmpty.pushFuture hpushed.unknown htoken future,
        covered_pushFuture hpushed.covered hspare future, hpushed.inside, hpushed.disjoint⟩

@[simp] theorem collectedResults_dispatch (ctx : RuntimeContext Future) (token : SyncToken) (cr : CallResult)
    (outcome : SendOutcome Future) :
    (ctx.dispatch token cr outcome).collectedResults = ctx.collectedResults ++ [cr] := by
  cases outcome <;> rfl

@[simp] theorem tokenResultIndices_dispatch (ctx : RuntimeContext Future) (token : SyncToken) (cr : CallResult)
    (outcome : SendOutcome Future) :
    (ctx.dispatch token cr outcome).tokenResultIndices = Function.update ctx.tokenResultIndices token
      (ctx.tokenResultIndices token ++ [ctx.collectedResults.length]) := by
  cases outcome <;> rfl

@[simp] theorem tokenOrder_dispatch (ctx : RuntimeContext Future) (token : SyncToken) (cr : CallResult)
    (outcome : SendOutcome Future) : (ctx.dispatch token cr outcome).tokenOrder = ctx.tokenOrder := by
  cases outcome <;> rfl

theorem mem_tokenOrder_drawToken (ctx : RuntimeContext Future) (allInstruments : List ByteString) :
    ctx.nextSyncToken ∈ (ctx.drawToken allInstruments).tokenOrder :=
  List.mem_append_right _ (List.mem_singleton.mpr rfl)

section Rules

variable {P : RuntimeContext Future → Prop} {outcome : Nat → SendOutcome Future}

theorem dispatchBlock_keeps
    (hdispatch : ∀ ctx token cr, P ctx → token ∈ ctx.tokenOrder → cr.success = false →
      P (ctx.dispatch token cr (outcome ctx.collectedResults.length)))
    {token : SyncToken} {entries : List BlockEntry} (hentries : ∀ entry ∈ entries, entry.result.success = false)
    {ctx : RuntimeContext Future} (h : P ctx) (htoken : token ∈ ctx.tokenOrder) :
    P (dispatchBlock outcome token ctx entries) := by
  induction entries generalizing ctx with
  | nil => exact h
  | cons entry entries ih =>
      have hnext := hdispatch ctx token entry.result h htoken (hentries entry (by simp))
      rw [RuntimeContext.dispatchBlock]
      split
      · exact hnext
      · exact ih (fun other hother => hentries other (by simp [hother])) hnext (by rwa [tokenOrder_dispatch])

theorem blockEntries_success (token : SyncToken) (allInstruments : List ByteString) (buffer : List SerializedCommand) :
    ∀ entry ∈ blockEntries token allInstruments buffer, entry.result.success = false := by
  intro entry hentry
  rcases mem_blockEntries hentry with ⟨inst, -, rfl⟩ | ⟨last, cmd, -, -, rfl⟩
  · rfl
  · rfl

/-- What drawing a token and dispatching an entry keep, every operation of a script keeps. -/
theorem runOp_keeps (hdraw : ∀ ctx allInstruments, P ctx → P (ctx.drawToken allInstruments))
    (hdispatch : ∀ ctx token cr, P ctx → token ∈ ctx.tokenOrder → cr.success = false →
      P (ctx.dispatch token cr (outcome ctx.collectedResults.length)))
    (expects : ByteString → ByteString → Bool) (op : EnqueueOp) (h : P ctx) : P (ctx.runOp expects outcome op) := by
  cases op with
  | call allInstruments call =>
      rw [runOp]
      split
      · exact h
      · rw [enqueueCall]
        split
        · exact h
        · exact hdispatch (ctx.drawToken allInstruments) _ _ (hdraw _ _ h) (mem_tokenOrder_drawToken ctx _) rfl
  | parallel allInstruments calls =>
      rw [runOp, enqueueBlock]
      split
      · exact h
      · exact dispatchBlock_keeps hdispatch (blockEntries_success _ _ _) (hdraw _ _ h) (mem_tokenOrder_drawToken ctx _)

end Rules

theorem Books.runOp (h : Books ctx) (expects : ByteString → ByteString → Bool) (outcome : Nat → SendOutcome Future)
    (op : EnqueueOp) : Books (ctx.runOp expects outcome op) :=
  runOp_keeps (fun _ allInstruments h => h.drawToken allInstruments) (fun _ _ cr h htoken _ => h.dispatch htoken cr _)
    expects op h

theorem runScript_keeps {P : RuntimeContext Future → Prop} {outcome : Nat → SendOutcome Future}
    {expects : ByteString → ByteString → Bool} (hempty : P {}) (hop : ∀ ctx op, P ctx → P (ctx.runOp expects outcome op))
    (script : List EnqueueOp) : P (runScript expects outcome script) := by
  have hrun : ∀ (script : List EnqueueOp) (ctx : RuntimeContext Future), P ctx →
      P (script.foldl (RuntimeContext.runOp expects outcome) ctx) := by
    intro script
    induction script with
    | nil => exact fun ctx h => h
    | cons op script ih => exact fun ctx h => ih _ (hop ctx op h)
  exact hrun script {} hempty

theorem Books.runScript (expects : ByteString → ByteString → Bool) (outcome : Nat → SendOutcome Future)
    (script : List EnqueueOp) : Books (RuntimeContext.runScript expects outcome script) :=
  runScript_keeps Books.empty (fun _ op h => h.runOp expects outcome op) script

/-! ### What an entry is filled with -/

/-- A command that was sent under a token without gaps: its future fills the new entry. -/
theorem fills_dispatch_sent {token : SyncToken}
    (hlengths : (ctx.tokenFutures token).length = (ctx.tokenResultIndices token).length) (cr : CallResult)
    (future : Future) {k : Nat} {f : Future} :
    (ctx.dispatch token cr (.sent future)).Fills k f ↔
      ctx.Fills k f ∨ (k = ctx.collectedResults.length ∧ f = future) := by
  have hindices := tokenResultIndices_dispatch ctx token cr (.sent future)
  have hfutures : (ctx.dispatch token cr (.sent future)).tokenFutures =
      Function.update ctx.tokenFutures token (ctx.tokenFutures token ++ [future]) := rfl
  constructor
  · rintro ⟨t, i, hk, hf⟩
    rw [hindices] at hk
    rw [hfutures] at hf
    by_cases ht : t = token
    · subst ht
      rw [Function.update_self, getElem?_snoc] at hk hf
      rcases hk with hk | ⟨hi, hk⟩ <;> rcases hf with hf | ⟨hi', hf⟩
      · exact Or.inl ⟨t, i, hk, hf⟩
      · have hlt := (List.getElem?_eq_some_iff.mp hk).1
        omega
      · have hlt := (List.getElem?_eq_some_iff.mp hf).1
        omega
      · exact Or.inr ⟨hk.symm, hf.symm⟩
    · rw [Function.update_of_ne ht] at hk hf
      exact Or.inl ⟨t, i, hk, hf⟩
  · rintro (⟨t, i, hk, hf⟩ | ⟨rfl, rfl⟩)
    · refine ⟨t, i, ?_, ?_⟩
      · rw [hindices]
        by_cases ht : t = token
        · subst ht
          rw [Function.update_self, getElem?_snoc]
          exact Or.inl hk
        · rwa [Function.update_of_ne ht]
      · rw [hfutures]
        by_cases ht : t = token
        · subst ht
          rw [Function.update_self, getElem?_snoc]
          exact Or.inl hf
        · rwa [Function.update_of_ne ht]
    · refine ⟨token, (ctx.tokenResultIndices token).length, ?_, ?_⟩
      · rw [hindices, Function.update_self, getElem?_snoc]
        exact Or.inr ⟨rfl, rfl⟩
      · rw [hfutures, Function.update_self, getElem?_snoc]
        exact Or.inr ⟨hlengths.symm, rfl⟩

/-- A command that was not sent: the new entry is behind the futures of its token. -/
theorem fills_pushResult {token : SyncToken}
    (hlengths : (ctx.tokenFutures token).length = (ctx.tokenResultIndices token).length) (cr : CallResult)
    {k : Nat} {f : Future} : (ctx.pushResult token cr).Fills k f ↔ ctx.Fills k f := by
  have hindices : (ctx.pushResult token cr).tokenResultIndices = Function.update ctx.tokenResultIndices token
      (ctx.tokenResultIndices token ++ [ctx.collectedResults.length]) := rfl
  constructor
  · rintro ⟨t, i, hk, hf⟩
    refine ⟨t, i, ?_, hf⟩
    rw [hindices] at hk
    by_cases ht : t = token
    · subst ht
      rw [Function.update_self, getElem?_snoc] at hk
      rcases hk with hk | ⟨hi, -⟩
      · exact hk
      · have hlt := (List.getElem?_eq_some_iff.mp (show (ctx.tokenFutures t)[i]? = some f from hf)).1
        omega
    · rwa [Function.update_of_ne ht] at hk
  · rintro ⟨t, i, hk, hf⟩
    refine ⟨t, i, ?_, hf⟩
    rw [hindices]
    by_cases ht : t = token
    · subst ht
      rw [Function.update_self, getElem?_snoc]
      exact Or.inl hk
    · rwa [Function.update_of_ne ht]

theorem Fills.lt_length (h : Books ctx) {k : Nat} {f : Future} (hfills : ctx.Fills k f) :
    k < ctx.collectedResults.length := by
  obtain ⟨t, i, hk, -⟩ := hfills
  exact h.inside t k (List.mem_of_getElem? hk)

/-! ### What a block records -/

/-- How many of `n` entries are dispatched, from entry `start` on, before an exception ends the loop. -/
def dispatchCount (outcome : Nat → SendOutcome Future) : Nat → Nat → Nat
  | _, 0 => 0
  | start, n + 1 =>
      match outcome start with
      | .raised => 1
      | _ => dispatchCount outcome (start + 1) n + 1

theorem dispatchCount_raised {outcome : Nat → SendOutcome Future} {start : Nat} (h : outcome start = .raised) (n : Nat) :
    dispatchCount outcome start (n + 1) = 1 := by
  rw [dispatchCount, h]

theorem dispatchCount_next {outcome : Nat → SendOutcome Future} {start : Nat} (h : outcome start ≠ .raised) (n : Nat) :
    dispatchCount outcome start (n + 1) = dispatchCount outcome (start + 1) n + 1 := by
  rw [dispatchCount]
  split
  · contradiction
  · rfl

theorem lt_dispatchCount_iff (outcome : Nat → SendOutcome Future) (start n j : Nat) :
    j < dispatchCount outcome start n ↔ j < n ∧ ∀ r < j, outcome (start + r) ≠ .raised := by
  induction n generalizing start j with
  | zero => simp [dispatchCount]
  | succ n ih =>
      have hshift : ∀ r, start + (r + 1) = start + 1 + r := fun r => by omega
      cases j with
      | zero =>
          rw [dispatchCount]
          split <;> simp
      | succ j =>
          have hcases : (∀ r < j + 1, outcome (start + r) ≠ .raised) ↔
              outcome start ≠ .raised ∧ ∀ r < j, outcome (start + 1 + r) ≠ .raised := by
            constructor
            · intro h
              exact ⟨h 0 (by omega), fun r hr => hshift r ▸ h (r + 1) (by omega)⟩
            · rintro ⟨hfirst, hrest⟩ r hr
              cases r with
              | zero => exact hfirst
              | succ r => exact hshift r ▸ hrest r (by omega)
          rw [hcases]
          by_cases hraised : outcome start = .raised
          · simp [dispatchCount_raised hraised, hraised]
          · rw [dispatchCount_next hraised, Nat.add_lt_add_iff_right, ih]
            simp [hraised]

theorem dispatchCount_le (outcome : Nat → SendOutcome Future) (start n : Nat) : dispatchCount outcome start n ≤ n :=
  le_of_forall_lt fun _ hj => ((lt_dispatchCount_iff outcome start n _).mp hj).1

theorem dispatchBlock_raised {outcome : Nat → SendOutcome Future} (h : outcome ctx.collectedResults.length = .raised)
    (token : SyncToken) (entry : BlockEntry) (entries : List BlockEntry) :
    dispatchBlock outcome token ctx (entry :: entries) = ctx.pushResult token entry.result := by
  rw [RuntimeContext.dispatchBlock, h]
  rfl

theorem dispatchBlock_next {outcome : Nat → SendOutcome Future} (h : outcome ctx.collectedResults.length ≠ .raised)
    (token : SyncToken) (entry : BlockEntry) (entries : List BlockEntry) :
    dispatchBlock outcome token ctx (entry :: entries) =
      dispatchBlock outcome token (ctx.dispatch token entry.result (outcome ctx.collectedResults.length)) entries := by
  rw [RuntimeContext.dispatchBlock]
  split
  · contradiction
  · rfl

theorem dispatchBlock_collectedResults (outcome : Nat → SendOutcome Future) (token : SyncToken)
    (entries : List BlockEntry) (ctx : RuntimeContext Future) :
    (dispatchBlock outcome token ctx entries).collectedResults = ctx.collectedResults ++
      (entries.take (dispatchCount outcome ctx.collectedResults.length entries.length)).map BlockEntry.result := by
  induction entries generalizing ctx with
  | nil => simp [RuntimeContext.dispatchBlock]
  | cons entry entries ih =>
      by_cases hraised : outcome ctx.collectedResults.length = .raised
      · rw [dispatchBlock_raised hraised, List.length_cons, dispatchCount_raised hraised]
        rfl
      · rw [dispatchBlock_next hraised, List.length_cons, dispatchCount_next hraised, ih, collectedResults_dispatch]
        simp

/-- The token gets the entries recorded for it, one after the other. -/
theorem dispatchBlock_tokenResultIndices (outcome : Nat → SendOutcome Future) (token : SyncToken)
    (entries : List BlockEntry) (ctx : RuntimeContext Future) :
    (dispatchBlock outcome token ctx entries).tokenResultIndices = Function.update ctx.tokenResultIndices token
      (ctx.tokenResultIndices token ++ List.range' ctx.collectedResults.length
        (dispatchCount outcome ctx.collectedResults.length entries.length)) := by
  induction entries generalizing ctx with
  | nil => simp [RuntimeContext.dispatchBlock, dispatchCount]
  | cons entry entries ih =>
      by_cases hraised : outcome ctx.collectedResults.length = .raised
      · rw [dispatchBlock_raised hraised, List.length_cons, dispatchCount_raised hraised]
        rfl
      · rw [dispatchBlock_next hraised, List.length_cons, dispatchCount_next hraised, ih, tokenResultIndices_dispatch,
          collectedResults_dispatch, Function.update_idem, Function.update_self, List.length_append,
          List.length_singleton, List.append_assoc, List.range'_succ]
        rfl

/-! ### Collecting -/

/-- A result with the answer of its future, unchanged if the future threw. -/
def answered (answer : Future → Option CommandResponse) (f : Future) (cr : CallResult) : CallResult :=
  match answer f with
  | some resp => cr.populate resp
  | none => cr

theorem map_answered {β : Type} {g : CallResult → β} (hg : ∀ cr resp, g (CallResult.populate cr resp) = g cr)
    (answer : Future → Option CommandResponse) (f : Future) (cr : CallResult) : g (answered answer f cr) = g cr := by
  rw [answered]
  split
  · exact hg cr _
  · rfl

theorem mem_pendingFutures {t : SyncToken} {i : Nat} {f : Future} :
    (t, i, f) ∈ ctx.pendingFutures ↔ t ∈ ctx.tokenOrder ∧ (ctx.tokenFutures t)[i]? = some f := by
  rw [pendingFutures, List.mem_flatMap]
  constructor
  · rintro ⟨t', ht', hmem⟩
    obtain ⟨⟨f', i'⟩, hzip, heq⟩ := List.mem_map.mp hmem
    obtain ⟨rfl, rfl, rfl⟩ : t' = t ∧ i' = i ∧ f' = f := by simpa using heq
    exact ⟨ht', by simpa [List.mem_zipIdx_iff_getElem?] using hzip⟩
  · rintro ⟨ht, hf⟩
    refine ⟨t, ht, List.mem_map.mpr ⟨(f, i), ?_, rfl⟩⟩
    simpa [List.mem_zipIdx_iff_getElem?] using hf

def modifyResult (ctx : RuntimeContext Future) (k : Nat) (g : CallResult → CallResult) : RuntimeContext Future :=
  { ctx with collectedResults := ctx.collectedResults.modify k g }

/-- One future collected: the entry at its place gets the answer, the others stay. -/
theorem fill_index {token : SyncToken} {i k : Nat} (hk : (ctx.tokenResultIndices token)[i]? = some k)
    (answer : Future → Option CommandResponse) (f : Future) :
    ctx.fill token i (answer f) = ctx.modifyResult k (answered answer f) := by
  cases hanswer : answer f with
  | none =>
      have hsame : answered answer f = id := by
        funext cr
        simp [answered, hanswer]
      simp [fill, modifyResult, hsame]
  | some resp =>
      have hsame : answered answer f = fun cr => cr.populate resp := by
        funext cr
        simp [answered, hanswer]
      simp [fill, modifyResult, hk, hsame]

/-- The entry the future at a place belongs to. -/
def place (ctx : RuntimeContext Future) (future : SyncToken × Nat × Future) : Option Nat :=
  (ctx.tokenResultIndices future.1)[future.2.1]?

theorem collect_cons (answer : Future → Option CommandResponse) (ctx : RuntimeContext Future)
    (future : SyncToken × Nat × Future) (futures : List (SyncToken × Nat × Future)) :
    ctx.collect answer (future :: futures) =
      (ctx.fill future.1 future.2.1 (answer future.2.2)).collect answer futures := rfl

/-- An entry that no collected future belongs to keeps its result. -/
theorem collect_of_not_placed (answer : Future → Option CommandResponse) {futures : List (SyncToken × Nat × Future)}
    {k : Nat} {ctx : RuntimeContext Future} (hplaced : ∀ future ∈ futures, (ctx.place future).isSome)
    (hnot : ∀ future ∈ futures, ctx.place future ≠ some k) :
    (ctx.collect answer futures).collectedResults[k]? = ctx.collectedResults[k]? := by
  induction futures generalizing ctx with
  | nil => rfl
  | cons future futures ih =>
      obtain ⟨j, hj⟩ := Option.isSome_iff_exists.mp (hplaced future (by simp))
      have hjk : j ≠ k := fun he => hnot future (by simp) (he ▸ hj)
      have hrest := @ih (ctx.modifyResult j (answered answer future.2.2))
        (fun other hmem => hplaced other (by simp [hmem])) fun other hmem => hnot other (by simp [hmem])
      rw [collect_cons, fill_index hj answer future.2.2, hrest]
      simp [modifyResult, hjk]

/-- The entry of one collected future gets its answer, if no two of them belong to one entry. -/
theorem collect_of_placed (answer : Future → Option CommandResponse) {futures : List (SyncToken × Nat × Future)}
    {k : Nat} {future : SyncToken × Nat × Future} {ctx : RuntimeContext Future}
    (hplaced : ∀ other ∈ futures, (ctx.place other).isSome)
    (hdistinct : futures.Pairwise fun left right => ctx.place left ≠ ctx.place right) (hmem : future ∈ futures)
    (hk : ctx.place future = some k) :
    (ctx.collect answer futures).collectedResults[k]? =
      ctx.collectedResults[k]?.map (answered answer future.2.2) := by
  induction futures generalizing ctx with
  | nil => simp at hmem
  | cons first futures ih =>
      obtain ⟨hfirst, hrest⟩ := List.pairwise_cons.mp hdistinct
      obtain ⟨j, hj⟩ := Option.isSome_iff_exists.mp (hplaced first (by simp))
      have hplaced' : ∀ other ∈ futures, (ctx.place other).isSome := fun other hother => hplaced other (by simp [hother])
      rw [collect_cons, fill_index hj answer first.2.2]
      rcases List.mem_cons.mp hmem with rfl | hmem
      · obtain rfl : j = k := Option.some.inj (hj.symm.trans hk)
        have hkept := @collect_of_not_placed _ answer futures j (ctx.modifyResult j (answered answer future.2.2)) hplaced'
          fun other hother hplace => hfirst other hother (hk.trans hplace.symm)
        rw [hkept]
        simp [modifyResult]
      · have hjk : j ≠ k := by
          rintro rfl
          exact hfirst future hmem (hj.trans hk.symm)
        rw [@ih (ctx.modifyResult j (answered answer first.2.2)) hplaced' hrest hmem hk]
        simp [modifyResult, hjk]

/-- What no response changes in a result is after the collection what it was before. -/
theorem map_collect {β : Type} {g : CallResult → β} (hg : ∀ cr resp, g (CallResult.populate cr resp) = g cr)
    (answer : Future → Option CommandResponse) {futures : List (SyncToken × Nat × Future)}
    {ctx : RuntimeContext Future} (hplaced : ∀ future ∈ futures, (ctx.place future).isSome) :
    (ctx.collect answer futures).collectedResults.map g = ctx.collectedResults.map g := by
  induction futures generalizing ctx with
  | nil => rfl
  | cons future futures ih =>
      obtain ⟨j, hj⟩ := Option.isSome_iff_exists.mp (hplaced future (by simp))
      have hrest := @ih (ctx.modifyResult j (answered answer future.2.2)) fun other hmem => hplaced other (by simp [hmem])
      rw [collect_cons, fill_index hj answer future.2.2, hrest]
      refine List.ext_getElem? fun k => ?_
      by_cases hjk : j = k
      · subst hjk
        cases hcr : ctx.collectedResults[j]? with
        | none => simp [modifyResult, hcr]
        | some cr => simp [modifyResult, hcr, map_answered hg]
      · simp [modifyResult, hjk]

namespace Books

theorem fills_iff (h : Books ctx) {k : Nat} {f : Future} :
    ctx.Fills k f ↔ ∃ future ∈ ctx.pendingFutures, ctx.place future = some k ∧ future.2.2 = f := by
  constructor
  · rintro ⟨t, i, hk, hf⟩
    have ht := UnknownEmpty.mem_tokenOrder h.unknown (List.mem_of_getElem? hk)
    exact ⟨(t, i, f), mem_pendingFutures.mpr ⟨ht, hf⟩, hk, rfl⟩
  · rintro ⟨⟨t, i, f'⟩, hmem, hk, rfl⟩
    exact ⟨t, i, hk, (mem_pendingFutures.mp hmem).2⟩

theorem modifyResult (h : Books ctx) (k : Nat) (g : CallResult → CallResult) : Books (ctx.modifyResult k g) :=
  ⟨h.nodup, h.below, h.unknown, h.covered, by simpa [RuntimeContext.modifyResult] using h.inside, h.disjoint⟩

theorem clearTokens (ctx : RuntimeContext Future) : Books ctx.clearTokens :=
  ⟨List.nodup_nil, by simp [RuntimeContext.clearTokens], by simp [RuntimeContext.clearTokens],
    by simp [RuntimeContext.clearTokens], by simp [RuntimeContext.clearTokens], by simp [RuntimeContext.clearTokens]⟩

theorem placed (h : Books ctx) : ∀ future ∈ ctx.pendingFutures, (ctx.place future).isSome := by
  rintro ⟨t, i, f⟩ hmem
  have hi := List.getElem?_eq_some_iff.mp (mem_pendingFutures.mp hmem).2
  have hlt : i < (ctx.tokenResultIndices t).length := lt_of_lt_of_le hi.1 (h.covered t)
  simp [place, hlt]

theorem distinct (h : Books ctx) :
    ctx.pendingFutures.Pairwise fun left right => ctx.place left ≠ ctx.place right := by
  -- no two pending futures have the same place under the same token
  have hplaces : ctx.pendingFutures.Pairwise fun left right => (left.1, left.2.1) ≠ (right.1, right.2.1) := by
    rw [pendingFutures, List.pairwise_flatMap]
    constructor
    · intro t _
      have hincreasing : (ctx.tokenFutures t).zipIdx.Pairwise fun left right => left.2 < right.2 := by
        rw [← List.pairwise_map, List.zipIdx_map_snd]
        exact List.pairwise_lt_range'
      rw [List.pairwise_map]
      exact hincreasing.imp fun hlt heq => absurd (Prod.mk.inj heq).2 (ne_of_lt hlt)
    · refine h.nodup.imp fun hne left hleft right hright heq => hne ?_
      obtain ⟨_, -, rfl⟩ := List.mem_map.mp hleft
      obtain ⟨_, -, rfl⟩ := List.mem_map.mp hright
      exact (Prod.mk.inj heq).1
  refine hplaces.imp_of_mem fun {left right} hleft hright hne heq => hne ?_
  obtain ⟨k, hk⟩ := Option.isSome_iff_exists.mp (h.placed left hleft)
  obtain ⟨htoken, hindex⟩ := h.disjoint _ _ _ _ k hk (heq ▸ hk)
  rw [htoken, hindex]

theorem processTokensAndWait_fills (h : Books ctx) (answer : Future → Option CommandResponse) {k : Nat} {f : Future}
    (hfills : ctx.Fills k f) :
    (ctx.processTokensAndWait answer).collectedResults[k]? = ctx.collectedResults[k]?.map (answered answer f) := by
  obtain ⟨future, hmem, hk, rfl⟩ := h.fills_iff.mp hfills
  exact collect_of_placed answer h.placed h.distinct hmem hk

theorem processTokensAndWait_of_not_fills (h : Books ctx) (answer : Future → Option CommandResponse) {k : Nat}
    (hnot : ∀ f, ¬ ctx.Fills k f) :
    (ctx.processTokensAndWait answer).collectedResults[k]? = ctx.collectedResults[k]? := by
  refine collect_of_not_placed answer h.placed fun future hmem hplace => ?_
  exact hnot future.2.2 (h.fills_iff.mpr ⟨future, hmem, hplace, rfl⟩)

theorem map_processTokensAndWait {β : Type} (h : Books ctx) {g : CallResult → β}
    (hg : ∀ cr resp, g (CallResult.populate cr resp) = g cr) (answer : Future → Option CommandResponse) :
    (ctx.processTokensAndWait answer).collectedResults.map g = ctx.collectedResults.map g :=
  map_collect hg answer h.placed

end Books

end InstrumentServer.RuntimeContext
