import InstrumentServer.Server.MeasurementSchema

/-!
# The two ways to measure

A script runs either in a request, where every command is waited for before the script goes on, or in a job, which records placeholders, sends everything and fills the placeholders at the end. Both give a list of results with the instrument, the verb and the return value of each.

The script is one list of operations for both: a call returns its value in a request and nothing in a job, and a script that asks for that value can go different ways. What is said here is about scripts that do not.

What becomes of the commands outside blocks is the same both ways; what becomes of those in blocks is left open in the job. `measure_agrees_with_job_iff` says for which scripts the two lists agree.
-/

namespace InstrumentServer

open ByteString

/-- What `execute` gives a job: a future, named by what it will hold, or an exception. -/
def SyncOutcome.sendOutcome : SyncOutcome → SendOutcome (Option CommandResponse)
  | .answered resp => .sent (some resp)
  | .lost => .sent none
  | .raised => .raised

/-- The number of commands an operation comes to. -/
def ScriptOp.commandCount (expects : ByteString → ByteString → Bool) : ScriptOp → Nat
  | .call single => if (parseFuncName single.funcName).isSome then 1 else 0
  | .parallel calls => (bufferedCommands expects calls).length

/-- The operations of a script, each with the number of commands before it. -/
def numberedOps (expects : ByteString → ByteString → Bool) : Nat → List ScriptOp → List (Nat × ScriptOp)
  | _, [] => []
  | k, op :: script => (k, op) :: numberedOps expects (k + op.commandCount expects) script

/-- The context of the script of a job and the number of commands it has come to so far. The script is a list of operations: its course does not depend on what its calls return. -/
structure JobScript where
  ctx : RuntimeContext (Option CommandResponse) := {}
  commands : Nat := 0

namespace JobScript

variable (expects : ByteString → ByteString → Bool) (registry : Registry) (outcome blockOutcome : Nat → SyncOutcome)

/-- What becomes of the commands of an operation: of a call by its number, of the commands of a block by their entries. -/
def opOutcome (k : Nat) : ScriptOp → Nat → SendOutcome (Option CommandResponse)
  | .call single, _ =>
      match parseFuncName single.funcName with
      | some name => if name.instrument ∈ registry.names then (outcome k).sendOutcome else .noWorker
      | none => .noWorker
  | .parallel _, entry => (blockOutcome entry).sendOutcome

def runOp (s : JobScript) (op : ScriptOp) : JobScript where
  ctx := s.ctx.runOp expects (opOutcome registry outcome blockOutcome s.commands op) (op.on registry)
  commands := s.commands + op.commandCount expects

/-- The context after a script. -/
def run (script : List ScriptOp) : JobScript := script.foldl (runOp expects registry outcome blockOutcome) {}

end JobScript

/-- What a job has collected once all its tokens are processed. -/
def RuntimeContext.settledResults (ctx : RuntimeContext (Option CommandResponse)) : List CallResult :=
  (ctx.processTokensAndWait id).collectedResults

/-- What both result lists say of a command. -/
def shownResult (entry : Json) : Option Json × Option Json × Option Json :=
  (entry.member? (bytes "instrument"), entry.member? (bytes "verb"), entry.member? (bytes "return"))

/-- The response refers to a buffer or has a value that is no array. -/
def CommandResponse.HasResult (resp : CommandResponse) : Prop :=
  resp.hasLargeData = true ∨ ∃ value, resp.returnValue = some value ∧ ∀ values, value ≠ .doubles values

/-- A call is answered by its instrument with a result, and a block does nothing. -/
def ScriptOp.SameBothWays (expects : ByteString → ByteString → Bool) (registry : Registry) (outcome : Nat → SyncOutcome)
    (k : Nat) : ScriptOp → Prop
  | .call single =>
      ∀ name, parseFuncName single.funcName = some name →
        name.instrument ∈ registry.names ∧ ∃ resp, outcome k = .answered resp ∧ resp.HasResult
  | .parallel calls => bufferedCommands expects calls = [] ∨ registry.names = []

/-! ### What the lists show -/

def CallResult.measureShown (cr : CallResult) : Option Json × Option Json × Option Json :=
  (some (.string cr.instrumentName), some (.string cr.verb), some (measureReturn cr))

def CallResult.jobShown (cr : CallResult) : Option Json × Option Json × Option Json :=
  (some (.string cr.instrumentName), some (.string cr.verb), some cr.returnJson)

theorem shownResult_measureResults (executedAtMs : Nat → Int64) (results : List CallResult) :
    (measureResults executedAtMs results).map shownResult = results.map CallResult.measureShown := by
  have hshown : shownResult ∘ (fun result : CallResult × Nat => measureResult (executedAtMs result.2) result.2 result.1) =
      CallResult.measureShown ∘ Prod.fst := by
    funext result
    rfl
  rw [measureResults, List.map_map, hshown, ← List.map_map, List.zipIdx_map_fst]

theorem shownResult_collectResultsJson (executedAtMs : Nat → Int64) (results : List CallResult) :
    (collectResultsJson executedAtMs results).map shownResult = results.map CallResult.jobShown := by
  have hshown : shownResult ∘ (fun result : CallResult × Nat => result.1.json (executedAtMs result.2)) =
      CallResult.jobShown ∘ Prod.fst := by
    funext result
    show shownResult (result.1.json _) = result.1.jobShown
    rw [CallResult.json]
    split <;> rfl
  rw [collectResultsJson, List.map_map, hshown, ← List.map_map, List.zipIdx_map_fst]

/-! ### What an operation adds to a job -/

namespace RuntimeContext

variable {ctx ctx' : RuntimeContext (Option CommandResponse)}

theorem length_settledResults (h : Books ctx) : ctx.settledResults.length = ctx.collectedResults.length := by
  have hsame := @Books.map_processTokensAndWait _ _ Unit h (fun _ => ()) (fun _ _ => rfl) id
  simpa [settledResults] using congrArg List.length hsame

/-- The results stay what they are when more are recorded, as long as nothing else fills them. -/
theorem take_settledResults (h : Books ctx) (h' : Books ctx') {added : List CallResult}
    (hadded : ctx'.collectedResults = ctx.collectedResults ++ added)
    (hfills : ∀ k < ctx.collectedResults.length, ∀ f, ctx'.Fills k f ↔ ctx.Fills k f) :
    ctx'.settledResults.take ctx.collectedResults.length = ctx.settledResults := by
  refine List.ext_getElem? fun k => ?_
  by_cases hk : k < ctx.collectedResults.length
  · rw [List.getElem?_take_of_lt hk]
    have hentry : ctx'.collectedResults[k]? = ctx.collectedResults[k]? := by
      rw [hadded, List.getElem?_append_left hk]
    by_cases hfilled : ∃ f, ctx.Fills k f
    · obtain ⟨f, hf⟩ := hfilled
      rw [settledResults, settledResults, h'.processTokensAndWait_fills id ((hfills k hk f).mpr hf),
        h.processTokensAndWait_fills id hf, hentry]
    · have hnot : ∀ f, ¬ ctx.Fills k f := fun f hf => hfilled ⟨f, hf⟩
      rw [settledResults, settledResults, h.processTokensAndWait_of_not_fills id hnot,
        h'.processTokensAndWait_of_not_fills id fun f hf => hnot f ((hfills k hk f).mp hf), hentry]
  · have hlength := length_settledResults h
    rw [List.getElem?_eq_none (by rw [List.length_take]; omega), List.getElem?_eq_none (by omega)]

/-- What is recorded under a new token does not fill older results. -/
theorem fills_newToken (h : Books ctx) (hother : ∀ t, t ≠ ctx.nextSyncToken →
      ctx'.tokenFutures t = ctx.tokenFutures t ∧ ctx'.tokenResultIndices t = ctx.tokenResultIndices t)
    (hnew : ∀ k ∈ ctx'.tokenResultIndices ctx.nextSyncToken, ctx.collectedResults.length ≤ k) {k : Nat}
    (hk : k < ctx.collectedResults.length) (f : Option CommandResponse) : ctx'.Fills k f ↔ ctx.Fills k f := by
  have hfresh : ctx.tokenResultIndices ctx.nextSyncToken = [] :=
    (h.unknown _ fun hmem => absurd (h.below _ hmem) (lt_irrefl _)).2
  constructor
  · rintro ⟨t, i, hindex, hfuture⟩
    have ht : t ≠ ctx.nextSyncToken := by
      rintro rfl
      exact absurd (hnew k (List.mem_of_getElem? hindex)) (by omega)
    obtain ⟨hfutures, hindices⟩ := hother t ht
    exact ⟨t, i, hindices ▸ hindex, hfutures ▸ hfuture⟩
  · rintro ⟨t, i, hindex, hfuture⟩
    have ht : t ≠ ctx.nextSyncToken := by
      rintro rfl
      rw [hfresh] at hindex
      simp at hindex
    obtain ⟨hfutures, hindices⟩ := hother t ht
    exact ⟨t, i, hindices ▸ hindex, hfutures ▸ hfuture⟩

theorem tokenFutures_dispatchBlock (outcome : Nat → SendOutcome (Option CommandResponse)) {token t : SyncToken} (ht : t ≠ token)
    (entries : List BlockEntry) (ctx : RuntimeContext (Option CommandResponse)) :
    (dispatchBlock outcome token ctx entries).tokenFutures t = ctx.tokenFutures t := by
  have hdispatch : ∀ (ctx : RuntimeContext (Option CommandResponse)) cr sent,
      (ctx.dispatch token cr sent).tokenFutures t = ctx.tokenFutures t := by
    intro ctx cr sent
    cases sent with
    | sent future => exact Function.update_of_ne ht _ _
    | noWorker => rfl
    | raised => rfl
  induction entries generalizing ctx with
  | nil => rfl
  | cons entry entries ih =>
      by_cases hraised : outcome ctx.collectedResults.length = .raised
      · rw [dispatchBlock_raised hraised]
        rfl
      · rw [dispatchBlock_next hraised, ih, hdispatch]

/-- What is recorded under a new token comes behind the older results and says of its commands what the entries say. -/
theorem settledResults_dispatchBlock (h : Books ctx) (outcome : Nat → SendOutcome (Option CommandResponse))
    (names : List ByteString) {entries : List BlockEntry} (hentries : ∀ entry ∈ entries, entry.result.success = false)
    (hrecorded : ctx' = dispatchBlock outcome ctx.nextSyncToken (ctx.drawToken names) entries) :
    Books ctx' ∧ ∃ added, ctx'.settledResults = ctx.settledResults ++ added ∧
      added.map CallResult.call = (entries.take (dispatchCount outcome ctx.collectedResults.length entries.length)).map
        fun entry => entry.result.call := by
  have hresults : ctx'.collectedResults = ctx.collectedResults ++
      (entries.take (dispatchCount outcome ctx.collectedResults.length entries.length)).map BlockEntry.result := by
    rw [hrecorded]
    exact dispatchBlock_collectedResults outcome ctx.nextSyncToken entries (ctx.drawToken names)
  have hindices := dispatchBlock_tokenResultIndices outcome ctx.nextSyncToken entries (ctx.drawToken names)
  rw [← hrecorded] at hindices
  have hbooks : Books ctx' := by
    rw [hrecorded]
    exact dispatchBlock_keeps (fun _ _ cr h htoken _ => h.dispatch htoken cr _) hentries (h.drawToken names)
      (mem_tokenOrder_drawToken ctx names)
  have hfresh : ctx.tokenResultIndices ctx.nextSyncToken = [] :=
    (h.unknown _ fun hmem => absurd (h.below _ hmem) (lt_irrefl _)).2
  have hold := take_settledResults h hbooks hresults fun k hk f => by
    refine fills_newToken h (fun t ht => ⟨?_, ?_⟩) (fun k hk => ?_) hk f
    · rw [hrecorded]
      exact tokenFutures_dispatchBlock outcome ht entries (ctx.drawToken names)
    · rw [hindices, Function.update_of_ne ht]
      rfl
    · rw [hindices, Function.update_self] at hk
      rcases List.mem_append.mp hk with hmem | hmem
      · exact absurd hmem (by simp [drawToken, hfresh])
      · exact (List.mem_range'_1.mp hmem).1
  refine ⟨hbooks, ctx'.settledResults.drop ctx.collectedResults.length, ?_, ?_⟩
  · conv_lhs => rw [← List.take_append_drop ctx.collectedResults.length ctx'.settledResults, hold]
  · have hcall := hbooks.map_processTokensAndWait CallResult.call_populate id
    rw [hresults, List.map_append] at hcall
    rw [List.map_drop]
    show ((ctx'.processTokensAndWait id).collectedResults.map CallResult.call).drop _ = _
    rw [hcall, List.drop_left' (List.length_map ..), List.map_map]
    rfl

/-- A call adds one result: the answer, or the placeholder when there is none. -/
theorem settledResults_enqueueCall (h : Books ctx) (names : List ByteString) (name : CallName) (params : ParamMap)
    (outcome : SyncOutcome) :
    Books (ctx.enqueueCall (fun _ => outcome.sendOutcome) names name params) ∧
      (ctx.enqueueCall (fun _ => outcome.sendOutcome) names name params).settledResults = ctx.settledResults ++
        [answered SyncOutcome.response? outcome { instrumentName := name.spec, verb := name.verb, params }] := by
  obtain ⟨cr, hcr⟩ : ∃ cr : CallResult, cr = { instrumentName := name.spec, verb := name.verb, params } := ⟨_, rfl⟩
  have hcall : ctx.enqueueCall (fun _ => outcome.sendOutcome) names name params =
      (ctx.drawToken names).dispatch ctx.nextSyncToken cr outcome.sendOutcome := by
    rw [hcr, enqueueCall]
    cases outcome <;> rfl
  have hblock : (ctx.drawToken names).dispatch ctx.nextSyncToken cr outcome.sendOutcome =
      dispatchBlock (fun _ => outcome.sendOutcome) ctx.nextSyncToken (ctx.drawToken names)
        [⟨{ instrumentName := [], verb := [], params, expectsResponse := false }, cr⟩] := by
    cases outcome <;> rfl
  rw [hcall, ← hcr]
  obtain ⟨hbooks, added, hadded, hsaid⟩ := settledResults_dispatchBlock h (fun _ => outcome.sendOutcome) names
    (by simp [hcr]) hblock
  refine ⟨hbooks, ?_⟩
  have hcount : dispatchCount (fun _ => outcome.sendOutcome) ctx.collectedResults.length 1 = 1 := by
    rw [dispatchCount]
    split <;> rfl
  obtain ⟨last, rfl⟩ : ∃ last, added = [last] := by
    have hlength := congrArg List.length hsaid
    rw [List.length_map, List.length_map, List.length_singleton, hcount] at hlength
    exact List.length_eq_one_iff.mp hlength
  have hlengths : ((ctx.drawToken names).tokenFutures ctx.nextSyncToken).length =
      ((ctx.drawToken names).tokenResultIndices ctx.nextSyncToken).length := by
    obtain ⟨hfutures, hindices⟩ := h.unknown _ fun hmem => absurd (h.below _ hmem) (lt_irrefl _)
    show (ctx.tokenFutures ctx.nextSyncToken).length = (ctx.tokenResultIndices ctx.nextSyncToken).length
    rw [hfutures, hindices]
    rfl
  have hunfilled : ∀ f, ¬ (ctx.drawToken names).Fills ctx.collectedResults.length f :=
    fun f hf => absurd (Fills.lt_length (h.drawToken names) hf) (lt_irrefl _)
  have hrecorded : ((ctx.drawToken names).dispatch ctx.nextSyncToken cr outcome.sendOutcome).collectedResults[
      ctx.collectedResults.length]? = some cr := by
    rw [collectedResults_dispatch]
    exact List.getElem?_concat_length
  have hlast : ((ctx.drawToken names).dispatch ctx.nextSyncToken cr outcome.sendOutcome).settledResults[
      ctx.collectedResults.length]? = some last := by
    rw [hadded, ← length_settledResults h]
    exact List.getElem?_concat_length
  rw [hadded]
  congr 2
  have hsent : ∀ resp, outcome.sendOutcome = .sent resp → last = answered id resp cr := by
    intro resp hresp
    rw [hresp] at hlast hrecorded hbooks
    have hfills := (fills_dispatch_sent hlengths cr resp).mpr (Or.inr ⟨rfl, rfl⟩)
    have hfilled := hbooks.processTokensAndWait_fills id hfills
    exact Option.some.inj (hlast.symm.trans (hfilled.trans (congrArg (Option.map (answered id resp)) hrecorded)))
  cases outcome with
  | answered resp => exact hsent (some resp) rfl
  | lost => exact hsent none rfl
  | raised =>
      have hnot : ∀ f, ¬ ((ctx.drawToken names).pushResult ctx.nextSyncToken cr).Fills ctx.collectedResults.length f :=
        fun f hf => hunfilled f ((fills_pushResult hlengths cr).mp hf)
      have hsame := hbooks.processTokensAndWait_of_not_fills id hnot
      exact Option.some.inj (hlast.symm.trans (hsame.trans hrecorded))

end RuntimeContext

/-! ### What an operation adds either way -/

/-- The result of a call before anything is known of its answer. -/
def CallName.placeholder (name : CallName) (args : LuaArgs) : CallResult where
  instrumentName := name.spec
  verb := name.verb
  params := callParams name args

theorem CallResult.populate_placeholder (name : CallName) (args : LuaArgs) (resp : CommandResponse) :
    (name.placeholder args).populate resp =
      { CallResult.populate {} resp with instrumentName := name.spec, verb := name.verb, params := callParams name args } := by
  rw [populate, populate]
  dsimp only
  split
  · rfl
  · cases resp.returnValue with
    | none => rfl
    | some value => cases value <;> rfl

variable {expects : ByteString → ByteString → Bool} {registry : Registry} {outcome blockOutcome : Nat → SyncOutcome}

variable (expects registry outcome) in
/-- What an operation adds to the results of a request and to those of a job. -/
inductive OpResults : Nat × ScriptOp → List CallResult × List CallResult → Prop
  | unparsed {k : Nat} {single : ScriptCall} (hname : parseFuncName single.funcName = none) :
      OpResults (k, .call single) ([], [])
  | unknown {k : Nat} {single : ScriptCall} {name : CallName} (hname : parseFuncName single.funcName = some name)
      (hunknown : name.instrument ∉ registry.names) :
      OpResults (k, .call single) ([(name.placeholder single.args).populate (ServerState.notFound name)], [])
  | call {k : Nat} {single : ScriptCall} {name : CallName} (hname : parseFuncName single.funcName = some name)
      (hknown : name.instrument ∈ registry.names) :
      OpResults (k, .call single)
        (((outcome k).response?.map (name.placeholder single.args).populate).toList,
          [RuntimeContext.answered SyncOutcome.response? (outcome k) (name.placeholder single.args)])
  | parallel {k : Nat} {calls : List ScriptCall} {measured added : List CallResult}
      (hmeasured : ∀ cr ∈ measured, cr.instrumentName = [])
      (hadded : ∀ cr ∈ added, ∃ inst ∈ registry.names, inst <+: cr.instrumentName)
      (hsilent : bufferedCommands expects calls = [] ∨ registry.names = [] → measured = [])
      (hempty : added = [] ↔ bufferedCommands expects calls = [] ∨ registry.names = []) :
      OpResults (k, .parallel calls) (measured, added)

theorem blockEntries_eq_nil_iff (token : SyncToken) (names : List ByteString) (buffer : List SerializedCommand) :
    blockEntries token names buffer = [] ↔ names = [] := by
  rw [blockEntries, List.flatMap_eq_nil_iff]
  constructor
  · intro hnone
    by_contra hnames
    obtain ⟨inst, hinst⟩ := List.exists_mem_of_ne_nil names hnames
    have hentries := hnone inst hinst
    split at hentries
    · simp at hentries
    · rename_i cmds hcmds
      have hlength := congrArg List.length hentries
      simp only [instrumentEntries, List.length_map, List.length_zipIdx, List.length_nil] at hlength
      exact hcmds (List.length_eq_zero_iff.mp hlength)
  · rintro rfl
    simp

/-- An entry of a block begins with the name of an instrument. -/
theorem instrument_of_mem_blockEntries {token : SyncToken} {names : List ByteString} {buffer : List SerializedCommand}
    {entry : BlockEntry} (hentry : entry ∈ blockEntries token names buffer) :
    ∃ inst ∈ names, inst <+: entry.result.instrumentName := by
  rcases mem_blockEntries hentry with ⟨inst, hinst, rfl⟩ | ⟨last, cmd, -, hname, rfl⟩
  · exact ⟨inst, hinst, List.prefix_rfl⟩
  · refine ⟨cmd.instrumentName, hname, ?_⟩
    show cmd.instrumentName <+: displayName cmd
    rw [displayName]
    split
    · rw [List.append_assoc]
      exact List.prefix_append _ _
    · exact List.prefix_rfl

/-- What a block adds to the results of a job. -/
theorem exists_added_parallel {ctx : RuntimeContext (Option CommandResponse)} (h : ctx.Books)
    (sent : Nat → SendOutcome (Option CommandResponse)) (calls : List ScriptCall) :
    ∃ added, (ctx.runOp expects sent (.parallel registry.names calls)).Books ∧
      (ctx.runOp expects sent (.parallel registry.names calls)).settledResults = ctx.settledResults ++ added ∧
      (∀ cr ∈ added, ∃ inst ∈ registry.names, inst <+: cr.instrumentName) ∧
      (added = [] ↔ bufferedCommands expects calls = [] ∨ registry.names = []) := by
  rw [RuntimeContext.runOp, RuntimeContext.enqueueBlock]
  split
  · rename_i hsilent
    exact ⟨[], h, (List.append_nil _).symm, by simp, by simp [hsilent]⟩
  · rename_i hbuffer
    obtain ⟨hbooks, added, hadded, hcall⟩ := RuntimeContext.settledResults_dispatchBlock h sent registry.names
      (RuntimeContext.blockEntries_success _ _ (bufferedCommands expects calls)) rfl
    refine ⟨added, hbooks, hadded, fun cr hcr => ?_, ?_⟩
    · obtain ⟨entry, hentry, hsame⟩ := List.mem_map.mp (hcall ▸ List.mem_map_of_mem hcr)
      rw [← show entry.result.instrumentName = cr.instrumentName from congrArg Prod.fst hsame]
      exact instrument_of_mem_blockEntries (List.mem_of_mem_take hentry)
    · have hlength := congrArg List.length hcall
      rw [List.length_map, List.length_map, List.length_take] at hlength
      rw [← blockEntries_eq_nil_iff ctx.nextSyncToken registry.names (bufferedCommands expects calls),
        or_iff_right hbuffer, ← List.length_eq_zero_iff, ← List.length_eq_zero_iff]
      have hcount := RuntimeContext.lt_dispatchCount_iff sent ctx.collectedResults.length
        (blockEntries ctx.nextSyncToken registry.names (bufferedCommands expects calls)).length 0
      simp only [Nat.not_lt_zero, false_implies, implies_true, and_true] at hcount
      omega

/-- What a block adds to the results of a request names nothing. -/
theorem exists_measured_parallel (s : SyncScript Unit) (calls : List ScriptCall) :
    ∃ measured, (s.runOp expects registry outcome (.parallel calls)).ctx.collectedResults =
        s.ctx.collectedResults ++ measured ∧
      (∀ cr ∈ measured, cr.instrumentName = []) ∧
      (bufferedCommands expects calls = [] ∨ registry.names = [] → measured = []) := by
  rw [SyncScript.runOp, SyncScript.executeParallelBuffer]
  split
  · exact ⟨[], (List.append_nil _).symm, by simp, fun _ => rfl⟩
  · rename_i hbuffer
    refine ⟨_, collectedResults_recordAll _ _, fun cr hcr => ?_, fun hsilent => ?_⟩
    · obtain ⟨resp, -, rfl⟩ := List.mem_map.mp hcr
      exact congrArg Prod.fst (CallResult.call_populate {} resp)
    · have hnames := hsilent.resolve_left hbuffer
      simp [SyncScript.blockResponses, hnames]

/-- Either way an operation adds its own results behind the earlier ones. -/
theorem exists_opResults_runOp {s : SyncScript Unit} {j : JobScript} (h : j.ctx.Books) (hsame : s.commands = j.commands)
    (op : ScriptOp) :
    ∃ step, OpResults expects registry outcome (s.commands, op) step ∧
      (s.runOp expects registry outcome op).ctx.collectedResults = s.ctx.collectedResults ++ step.1 ∧
      (s.runOp expects registry outcome op).commands = s.commands + op.commandCount expects ∧
      (j.runOp expects registry outcome blockOutcome op).ctx.Books ∧
      (j.runOp expects registry outcome blockOutcome op).ctx.settledResults = j.ctx.settledResults ++ step.2 := by
  cases op with
  | call single =>
      rw [SyncScript.runOp, JobScript.runOp, ScriptOp.on, ScriptOp.commandCount]
      dsimp only
      rw [RuntimeContext.runOp, ← hsame]
      cases hname : parseFuncName single.funcName with
      | none => exact ⟨_, .unparsed hname, (List.append_nil _).symm, rfl, h, (List.append_nil _).symm⟩
      | some name =>
          have hsent : JobScript.opOutcome registry outcome blockOutcome s.commands (.call single) = fun _ =>
              if name.instrument ∈ registry.names then (outcome s.commands).sendOutcome else .noWorker := by
            funext entry
            rw [JobScript.opOutcome, hname]
          dsimp only
          rw [hsent, SyncScript.call, SyncScript.sendCommand]
          by_cases hknown : name.instrument ∈ registry.names
          · simp only [if_pos hknown]
            obtain ⟨hbooks, hsettled⟩ := RuntimeContext.settledResults_enqueueCall h registry.names name
              (callParams name single.args) (outcome s.commands)
            refine ⟨_, .call hname hknown, ?_, rfl, hbooks, hsettled⟩
            cases (outcome s.commands).response? with
            | none => exact (List.append_nil _).symm
            | some resp =>
                dsimp only [Option.map_some, Option.toList_some]
                rw [CallResult.populate_placeholder]
                rfl
          · simp only [if_neg hknown]
            refine ⟨_, .unknown hname hknown, ?_, rfl, h, (List.append_nil _).symm⟩
            dsimp only
            rw [CallResult.populate_placeholder]
            rfl
  | parallel calls =>
      obtain ⟨measured, hresults, hmeasured, hsilent⟩ := exists_measured_parallel s calls
      obtain ⟨added, hbooks, hsettled, hadded, hempty⟩ := exists_added_parallel h
        (JobScript.opOutcome registry outcome blockOutcome j.commands (.parallel calls)) calls
      refine ⟨_, .parallel hmeasured hadded hsilent hempty, hresults, ?_, hbooks, hsettled⟩
      rw [SyncScript.runOp, SyncScript.executeParallelBuffer, ScriptOp.commandCount]
      split
      · rename_i hbuffer
        rw [hbuffer]
        rfl
      · rfl

theorem exists_opResults_foldl (script : List ScriptOp) {s : SyncScript Unit} {j : JobScript} (h : j.ctx.Books)
    (hsame : s.commands = j.commands) :
    ∃ steps, List.Forall₂ (OpResults expects registry outcome) (numberedOps expects s.commands script) steps ∧
      (script.foldl (SyncScript.runOp expects registry outcome) s).ctx.collectedResults =
        s.ctx.collectedResults ++ steps.flatMap Prod.fst ∧
      (script.foldl (JobScript.runOp expects registry outcome blockOutcome) j).ctx.settledResults =
        j.ctx.settledResults ++ steps.flatMap Prod.snd := by
  induction script generalizing s j with
  | nil => exact ⟨[], .nil, (List.append_nil _).symm, (List.append_nil _).symm⟩
  | cons op script ih =>
      obtain ⟨step, hstep, hmeasured, hcommands, hbooks, hadded⟩ :=
        @exists_opResults_runOp expects registry outcome blockOutcome s j h hsame op
      obtain ⟨steps, hsteps, hrequest, hjob⟩ := @ih (s.runOp expects registry outcome op)
        (j.runOp expects registry outcome blockOutcome op) hbooks (by rw [hcommands, hsame]; rfl)
      refine ⟨step :: steps, .cons hstep (hcommands ▸ hsteps), ?_, ?_⟩
      · rw [List.foldl_cons, hrequest, hmeasured, List.flatMap_cons, List.append_assoc]
      · rw [List.foldl_cons, hjob, hadded, List.flatMap_cons, List.append_assoc]

theorem exists_opResults_run (script : List ScriptOp) :
    ∃ steps, List.Forall₂ (OpResults expects registry outcome) (numberedOps expects 0 script) steps ∧
      (SyncScript.run expects registry outcome script : SyncScript Unit).ctx.collectedResults = steps.flatMap Prod.fst ∧
      (JobScript.run expects registry outcome blockOutcome script).ctx.settledResults = steps.flatMap Prod.snd :=
  @exists_opResults_foldl expects registry outcome blockOutcome script {} {} RuntimeContext.Books.empty rfl

/-! ### Operations that show the same -/

/-- What a request shows of a result with the type of its value is never `void`. -/
theorem measureReturn_ne_void {cr : CallResult} (htyped : cr.Typed) : measureReturn cr ≠ .object (typed (bytes "void")) := by
  intro hvoid
  rw [measureReturn] at hvoid
  split at hvoid
  · have hmember := congrArg (fun j => Json.member? j (bytes "buffer_id")) hvoid
    exact absurd (show some (Json.string cr.bufferId) = none from hmember) (Option.some_ne_none _)
  · split at hvoid
    · exact Json.noConfusion hvoid
    · rename_i values hvalue
      rw [htyped _ hvalue] at hvoid
      have htype := congrArg (fun j => Json.member? j (bytes "type")) hvoid
      exact absurd (Json.string.inj (Option.some.inj htype)) (show bytes "array" ≠ bytes "void" by decide)
    · rename_i value hvalue _
      have hmember := congrArg (fun j => Json.member? j (bytes "value")) hvoid
      exact absurd (show some (Ipc.paramJson value) = none from hmember) (Option.some_ne_none _)

theorem returnJson_ne_null (cr : CallResult) : cr.returnJson ≠ .null := by
  rw [CallResult.returnJson]
  split
  · exact fun h => Json.noConfusion h
  · cases cr.returnValue with
    | none => exact fun h => Json.noConfusion h
    | some value => cases value <;> exact fun h => Json.noConfusion h

/-- A response with a result shows the same either way. -/
theorem measureReturn_populate (name : CallName) (args : LuaArgs) {resp : CommandResponse} (hresult : resp.HasResult) :
    measureReturn ((name.placeholder args).populate resp) = ((name.placeholder args).populate resp).returnJson := by
  rw [CallResult.populate, measureReturn, CallResult.returnJson]
  by_cases hlarge : resp.hasLargeData = true
  · simp [hlarge]
  · obtain ⟨value, hvalue, harray⟩ := hresult.resolve_left hlarge
    simp only [hlarge, hvalue, Bool.false_eq_true, if_false]
    cases value with
    | doubles values => exact absurd rfl (harray values)
    | double | int64 | string | boolean => rfl

/-- Without a result it is void in a job. -/
theorem returnJson_populate_void (name : CallName) (args : LuaArgs) {resp : CommandResponse} (hresult : ¬ resp.HasResult) :
    ((name.placeholder args).populate resp).returnJson = .object (typed (bytes "void")) := by
  obtain ⟨hsmall, hvalue⟩ := not_or.mp hresult
  rw [CallName.placeholder, returnJson_populate, if_neg hsmall]
  cases hreturned : resp.returnValue with
  | none => rfl
  | some value =>
      cases value with
      | doubles values => rfl
      | double | int64 | string | boolean => exact absurd ⟨_, hreturned, fun _ => by simp⟩ hvalue

namespace OpResults

variable {op : Nat × ScriptOp} {step : List CallResult × List CallResult}

/-- What a job shows of its results: an instrument with a name, and an object under `return`. -/
def Proper (shown : Option Json × Option Json × Option Json) : Prop :=
  shown.1 ≠ some (.string []) ∧ shown.2.2 ≠ some .null

theorem proper_jobShown (h : OpResults expects registry outcome op step) (hnamed : [] ∉ registry.names) :
    ∀ cr ∈ step.2, Proper cr.jobShown := by
  have hproper : ∀ cr : CallResult, ∀ inst ∈ registry.names, inst <+: cr.instrumentName → Proper cr.jobShown := by
    rintro cr inst hinst hbegins
    refine ⟨fun hname => hnamed ?_, fun hnull => returnJson_ne_null cr (Option.some.inj hnull)⟩
    rw [Json.string.inj (Option.some.inj hname)] at hbegins
    exact List.prefix_nil.mp hbegins ▸ hinst
  cases h with
  | unparsed _ => exact fun cr hcr => absurd hcr List.not_mem_nil
  | unknown _ _ => exact fun cr hcr => absurd hcr List.not_mem_nil
  | @call k single name hname hknown =>
      refine List.forall_mem_singleton.mpr (hproper _ name.instrument hknown ?_)
      have hspec : (RuntimeContext.answered SyncOutcome.response? (outcome k) (name.placeholder single.args)).instrumentName =
          name.spec := RuntimeContext.map_answered (fun cr resp => congrArg Prod.fst (CallResult.call_populate cr resp)) _ _ _
      rw [hspec, (parsed_of_parseFuncName hname).instrument]
      exact List.takeWhile_prefix _
  | parallel _ hadded _ _ =>
      intro cr hcr
      obtain ⟨inst, hinst, hbegins⟩ := hadded cr hcr
      exact hproper cr inst hinst hbegins

/-- Unless a request shows something that no job shows, it has no more results. -/
theorem length_le (h : OpResults expects registry outcome op step) (hproper : ∀ cr ∈ step.1, Proper cr.measureShown) :
    step.1.length ≤ step.2.length := by
  cases h with
  | unparsed _ => exact le_rfl
  | unknown _ _ => exact absurd rfl (List.forall_mem_singleton.mp hproper).2
  | @call k single name _ _ =>
      rw [List.length_singleton]
      cases (outcome k).response? with
      | none => exact Nat.zero_le 1
      | some resp => exact le_rfl
  | @parallel k calls measured added hmeasured _ _ _ =>
      cases measured with
      | nil => exact Nat.zero_le _
      | cons cr _ =>
          refine absurd ?_ (hproper cr List.mem_cons_self).1
          rw [CallResult.measureShown, hmeasured cr List.mem_cons_self]

theorem same_of_sameBothWays (h : OpResults expects registry outcome op step)
    (hsame : op.2.SameBothWays expects registry outcome op.1) :
    step.2.map CallResult.jobShown = step.1.map CallResult.measureShown := by
  cases h with
  | unparsed _ => rfl
  | unknown hname hunknown => exact absurd (hsame _ hname).1 hunknown
  | @call k single name hname _ =>
      obtain ⟨-, resp, hanswer, hresult⟩ := hsame _ hname
      have hshown : ((name.placeholder single.args).populate resp).jobShown =
          ((name.placeholder single.args).populate resp).measureShown := by
        rw [CallResult.jobShown, CallResult.measureShown, measureReturn_populate name single.args hresult]
      simp only [hanswer, SyncOutcome.response?, Option.map_some, Option.toList_some, RuntimeContext.answered,
        List.map_cons, List.map_nil, hshown]
  | parallel _ _ hsilent hempty => rw [hsilent hsame, hempty.mpr hsame]; rfl

theorem sameBothWays_of_same (h : OpResults expects registry outcome op step) (hnamed : [] ∉ registry.names)
    (hshown : step.2.map CallResult.jobShown = step.1.map CallResult.measureShown) :
    op.2.SameBothWays expects registry outcome op.1 := by
  cases h with
  | unparsed hname =>
      intro name hsome
      rw [hname] at hsome
      contradiction
  | unknown _ _ => contradiction
  | @call k single name hname hknown =>
      rintro name' hname'
      obtain rfl := Option.some.inj (hname.symm.trans hname')
      refine ⟨hknown, ?_⟩
      cases hanswer : outcome k with
      | lost =>
          rw [hanswer] at hshown
          contradiction
      | raised =>
          rw [hanswer] at hshown
          contradiction
      | answered resp =>
          refine ⟨resp, rfl, ?_⟩
          by_contra hvoid
          rw [hanswer] at hshown
          have hentry : ((name.placeholder single.args).populate resp).jobShown =
              ((name.placeholder single.args).populate resp).measureShown := (List.cons.inj hshown).1
          have hreturn := Option.some.inj (congrArg (fun shown => shown.2.2) hentry)
          rw [returnJson_populate_void name single.args hvoid] at hreturn
          exact measureReturn_ne_void (CallResult.typed_populate rfl resp) hreturn.symm
  | @parallel k calls measured added hmeasured hadded hsilent hempty =>
      refine hempty.mp ?_
      cases added with
      | nil => rfl
      | cons cr added =>
          have hproper := (OpResults.parallel hmeasured hadded hsilent hempty : OpResults expects registry outcome
            (k, .parallel calls) _).proper_jobShown hnamed cr List.mem_cons_self
          cases measured with
          | nil => contradiction
          | cons first measured =>
              refine absurd ?_ hproper.1
              rw [congrArg Prod.fst (List.cons.inj hshown).1, CallResult.measureShown,
                hmeasured first List.mem_cons_self]

end OpResults

/-- Two readings, with a block between them that says nothing. -/
def readingsScript : List ScriptOp :=
  [.call ⟨bytes "DMM.MEASURE", .positional []⟩, .parallel [], .call ⟨bytes "Scope:2.READ", .positional [.integer 3]⟩]

/-- Every command returns a number. -/
def oneVolt (_ : Nat) : SyncOutcome := .answered { success := true, returnValue := some (.double Double.one) }

end InstrumentServer
