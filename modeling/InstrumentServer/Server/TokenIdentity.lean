import InstrumentServer.Lib.Json.Text
import InstrumentServer.Server.Measurement

/-!
# Tokens of different contexts

Every context numbers its tokens from one, and the workers that compare tokens are shared. So two contexts that live at the same time have the same tokens, and what keeps two blocks on a common instrument apart is only that the contexts are at different places of their count. The condition for a token to identify its block says just that: a context draws its n-th token only while no other living context has its own n-th token outstanding on a common instrument.
-/

namespace InstrumentServer

open Ipc Transition

namespace MeasurementRun

/-- The context is used by its script or by its monitor. -/
def Alive (run : MeasurementRun) : Prop := run.phase = .script ∨ run.phase = .monitor

instance (run : MeasurementRun) : Decidable run.Alive :=
  inferInstanceAs (Decidable (run.phase = .script ∨ run.phase = .monitor))

/-- The context registered the barrier and has not cleared it. -/
def Outstanding (run : MeasurementRun) (token : SyncToken) (instruments : List ByteString) : Prop :=
  run.Alive ∧ (token, instruments) ∈ run.registered ∧ token ∉ run.cleared

end MeasurementRun

namespace ServerState

/-- What a token has to do for the workers. -/
structure TokensIdentify (s : ServerState) : Prop where
  /-- no two outstanding tokens of different contexts are equal while an instrument takes part in both -/
  apart : ∀ c c' token instruments instruments', c ≠ c' → (s.runs c).Outstanding token instruments →
    (s.runs c').Outstanding token instruments' → ∀ inst ∈ instruments, inst ∉ instruments'
  /-- no SYNC_CONTINUE matches a token that a command of another context made the worker wait for: it matches none -/
  unmatched : ∀ inst, ∀ msg ∈ (s.links inst).requests, msg.type = .syncContinue →
    (s.links inst).worker.waitingSyncToken ≠ some msg.syncToken

/-- A context draws its n-th token only while no other living context has its own n-th token outstanding on a common instrument. -/
def OrdinalsApart (expects : ByteString → ByteString → Bool) (enqueueMode : Nat → Bool) (s : ServerState) :
    ServerLabel → Prop
  | .begin c op found => ∀ instruments, op.opened? expects (enqueueMode c) found = some instruments →
      ∀ c' entry, c' ≠ c → (s.runs c').Alive → (s.runs c').registered[(s.runs c).registered.length]? = some entry →
        entry.1 ∉ (s.runs c').cleared → ∀ inst ∈ instruments, inst ∉ entry.2
  | _ => True

end ServerState

/-! ### Tokens are ordinals -/

/-- The tokens of a context count its barriers. -/
structure TokensCount (run : MeasurementRun) : Prop where
  next : run.ctx.nextSyncToken = run.registered.length + 1
  ordinal : ∀ (i : Nat) (entry : SyncToken × List ByteString), run.registered[i]? = some entry → entry.1 = i + 1

namespace TokensCount

variable {expects : ByteString → ByteString → Bool} {enqueueMode : Bool} {c : Nat} {run run' : MeasurementRun}
  {label : ServerLabel}

theorem init : TokensCount {} := ⟨rfl, by simp⟩

theorem move (h : TokensCount run) (hmove : ServerState.BarrierMove expects enqueueMode c run label run') :
    TokensCount run' := by
  cases hmove with
  | keep hnext hcoordinator hregistered hcleared =>
      refine ⟨?_, ?_⟩
      · rw [hnext, hregistered]
        exact h.next
      · rw [hregistered]
        exact h.ordinal
  | register hscript hopened hnext hcoordinator hregistered hcleared =>
      refine ⟨?_, fun i entry hentry => ?_⟩
      · rw [hnext, hregistered, h.next, List.length_append, List.length_singleton]
      · rw [hregistered, List.getElem?_append] at hentry
        split at hentry
        · exact h.ordinal i entry hentry
        · rename_i hlast
          rw [List.getElem?_singleton] at hentry
          obtain ⟨hi, hentry⟩ := Option.ite_none_right_eq_some.mp hentry
          have hlength : i = run.registered.length := by omega
          rw [← Option.some.inj hentry, h.next, hlength]
  | clear hcall htodo => exact ⟨h.next, h.ordinal⟩

/-- A token of the context is found at its place. -/
theorem getElem?_of_mem (h : TokensCount run) {token : SyncToken} {instruments : List ByteString} {n : Nat}
    (hmem : (token, instruments) ∈ run.registered) (htoken : token = n + 1) :
    run.registered[n]? = some (token, instruments) := by
  obtain ⟨i, hi⟩ := List.getElem?_of_mem hmem
  have hordinal := h.ordinal i _ hi
  have hplace : i = n := Nat.succ.inj (hordinal.symm.trans htoken)
  rwa [hplace] at hi

end TokensCount

namespace ServerState

variable {N : JsonLibrary} {expects : ByteString → ByteString → Bool} {enqueueMode : Nat → Bool} {s t : ServerState}
  {label : ServerLabel}

/-- A run does not come back to life. -/
theorem RunMove.alive {mode : Bool} {c : Nat} {run run' : MeasurementRun} (hmove : RunMove expects mode s t c run label run')
    (halive : run'.Alive) : run.Alive := by
  cases hmove with
  | beginEnqueue hmode hscript op found => exact Or.inl hscript.1
  | beginSync hmode hscript op found => exact Or.inl hscript.1
  | monitor hmode hscript => exact Or.inl hscript.1
  | done hmode hscript => exact Or.inl hscript.1
  | fail hscript => exact Or.inl hscript.1
  | finish hcall htodo hphase => exact Or.inr hphase
  | sent hcall hpoint =>
      rw [MeasurementRun.Alive, MeasurementRun.phase_sent] at halive
      exact halive
  | raised hcall hpoint =>
      rw [MeasurementRun.Alive, MeasurementRun.phase_raised] at halive
      exact halive
  | rest | dispatch | noWorker | await | release | clear | send | skip | recordCall | recordBlock | endBlock => exact halive

theorem BarrierMove.cleared_subset {mode : Bool} {c : Nat} {run run' : MeasurementRun}
    (hmove : BarrierMove expects mode c run label run') : run.cleared ⊆ run'.cleared := by
  cases hmove with
  | keep hnext hcoordinator hregistered hcleared => exact hcleared ▸ List.Subset.refl _
  | register hscript hopened hnext hcoordinator hregistered hcleared => exact hcleared ▸ List.Subset.refl _
  | clear hcall htodo => exact List.subset_append_left _ _

/-- A barrier is new only after the operation that registers it. -/
theorem BarrierMove.registered_cases {mode : Bool} {c : Nat} {run run' : MeasurementRun}
    (hmove : BarrierMove expects mode c run label run') {token : SyncToken} {instruments : List ByteString}
    (hmem : (token, instruments) ∈ run'.registered) :
    (token, instruments) ∈ run.registered ∨
      (token = run.ctx.nextSyncToken ∧ ∃ op found, label = .begin c op found ∧
        op.opened? expects mode found = some instruments) := by
  cases hmove with
  | keep hnext hcoordinator hregistered hcleared => exact Or.inl (hregistered ▸ hmem)
  | register hscript hopened hnext hcoordinator hregistered hcleared =>
      rw [hregistered] at hmem
      rcases List.mem_append.mp hmem with hold | hnew
      · exact Or.inl hold
      · obtain ⟨rfl, rfl⟩ := Prod.mk.inj (List.mem_singleton.mp hnew)
        exact Or.inr ⟨rfl, _, _, rfl, hopened⟩
  | clear hcall htodo => exact Or.inl hmem

/-- A token that is outstanding after a step was outstanding before, or the step registered it. -/
theorem outstanding_step (hnext : s.step N expects enqueueMode label = some t) {c : Nat} {token : SyncToken}
    {instruments : List ByteString} (hout : (t.runs c).Outstanding token instruments) :
    (s.runs c).Outstanding token instruments ∨
      (token = (s.runs c).ctx.nextSyncToken ∧ ∃ op found, label = .begin c op found ∧
        op.opened? expects (enqueueMode c) found = some instruments) := by
  obtain ⟨halive, hmem, hlive⟩ := hout
  have hmove := step_barrierMove hnext c
  refine (hmove.registered_cases hmem).imp_left fun hold => ?_
  exact ⟨(step_runMove hnext c).alive halive, hold, fun hcleared => hlive (hmove.cleared_subset hcleared)⟩

/-- The tokens of all contexts count, and no two of them collide. -/
structure TokenInv (s : ServerState) : Prop where
  count : ∀ c, TokensCount (s.runs c)
  apart : ∀ c c' token instruments instruments', c ≠ c' → (s.runs c).Outstanding token instruments →
    (s.runs c').Outstanding token instruments' → ∀ inst ∈ instruments, inst ∉ instruments'

namespace TokenInv

/-- A new token is at its place in the count, and there no other context has a token of the same instruments. -/
theorem apart_new (h : TokenInv s) {c c' : Nat} {op : EnqueueOp} {found : Bool} {instruments instruments' : List ByteString}
    (hordinals : OrdinalsApart expects enqueueMode s (.begin c op found)) (hne : c ≠ c')
    (hopened : op.opened? expects (enqueueMode c) found = some instruments)
    (hout : (s.runs c').Outstanding (s.runs c).ctx.nextSyncToken instruments') : ∀ inst ∈ instruments, inst ∉ instruments' := by
  obtain ⟨halive, hmem, hlive⟩ := hout
  have hplace := (h.count c').getElem?_of_mem hmem (h.count c).next
  exact hordinals instruments hopened c' _ hne.symm halive hplace hlive

theorem step (h : TokenInv s) (hordinals : OrdinalsApart expects enqueueMode s label)
    (hnext : s.step N expects enqueueMode label = some t) : TokenInv t := by
  refine ⟨fun c => (h.count c).move (step_barrierMove hnext c), ?_⟩
  intro c c' token instruments instruments' hne hout hout'
  rcases outstanding_step hnext hout with hold | ⟨htoken, op, found, rfl, hopened⟩
  · rcases outstanding_step hnext hout' with hold' | ⟨htoken', op, found, rfl, hopened'⟩
    · exact h.apart c c' token instruments instruments' hne hold hold'
    · rw [htoken'] at hold
      intro inst hinst hinst'
      exact h.apart_new hordinals hne.symm hopened' hold inst hinst' hinst
  · rcases outstanding_step hnext hout' with hold' | ⟨htoken', op', found', hlabel, hopened'⟩
    · rw [htoken] at hold'
      exact h.apart_new hordinals hne hopened hold'
    · exact absurd (ServerLabel.begin.inj hlabel).1 hne

theorem init : TokenInv (system N expects enqueueMode).init := by
  refine ⟨fun _ => .init, fun c c' token instruments instruments' _ hout => ?_⟩
  obtain ⟨-, hmem, -⟩ := hout
  simp [system] at hmem

end TokenInv

/-- In every run in which no context draws its n-th token while another one has its own n-th token outstanding on a common instrument, tokens identify their block in every state. -/
theorem tokens_identify (hreach : ReachableWhile (system N expects enqueueMode) (OrdinalsApart expects enqueueMode) s) :
    TokensIdentify s := by
  have hinv : TokenInv s := hreach.invariant TokenInv.init fun _ _ _ h hordinals hnext => h.step hordinals hnext
  refine ⟨hinv.apart, fun inst msg _ _ hwaiting => ?_⟩
  have hunblocked := (linkInv_of_reachable hreach.reachable inst).unblocked
  simp [hunblocked] at hwaiting

/-- A block on one instrument. -/
def blockOn (funcName : String) : EnqueueOp := .parallel [] [⟨bytes funcName, .positional []⟩]

/-- A measure request runs a block. -/
def oneBlock (s : ServerState) (c : Nat) (funcName : String) : ServerState :=
  s.setRun c ((s.runs c).beginSync (fun _ _ => true) (blockOn funcName))

/-- Two measure requests run a block each at the same time, on different instruments. -/
theorem tokens_identify_twoBlocks :
    ∃ s, ReachableWhile (system .compact (fun _ _ => true) fun _ => false)
        (OrdinalsApart (fun _ _ => true) fun _ => false) s ∧
      (s.runs 0).registered = [(1, [bytes "DMM"])] ∧ (s.runs 1).registered = [(1, [bytes "Scope"])] ∧
      TokensIdentify s := by
  let start : ServerState := (system .compact (fun _ _ => true) fun _ => false).init
  let first := oneBlock start 0 "DMM.MEASURE"
  let second := oneBlock first 1 "Scope.READ"
  have hstart : OrdinalsApart (fun _ _ => true) (fun _ => false) start (.begin 0 (blockOn "DMM.MEASURE") true) := by
    intro instruments _ c' entry _ _ hentry
    simp [start, system] at hentry
  have hfirst : OrdinalsApart (fun _ _ => true) (fun _ => false) first (.begin 1 (blockOn "Scope.READ") true) := by
    intro instruments hopened c' entry hne _ hentry _ inst hinst
    have hinstruments : some instruments = some [bytes "Scope"] := hopened.symm.trans (by decide +kernel)
    obtain rfl := Option.some.inj hinstruments
    by_cases hzero : c' = 0
    · subst hzero
      have hdmm : some entry = some (1, [bytes "DMM"]) := hentry.symm.trans (by decide +kernel)
      obtain rfl := Option.some.inj hdmm
      rw [List.mem_singleton.mp hinst]
      decide +kernel
    · simp [first, oneBlock, setRun, hzero, start, system] at hentry
  have hreach : ReachableWhile (system .compact (fun _ _ => true) fun _ => false)
      (OrdinalsApart (fun _ _ => true) fun _ => false) second := (ReachableWhile.init.step hstart rfl).step hfirst rfl
  exact ⟨second, hreach, by decide +kernel, by decide +kernel, tokens_identify hreach⟩

/-- A job waits for its call of the only instrument while the script of the next job makes its own. -/
def twoJobs : List ServerLabel :=
  [.begin 0 (.call [bytes "DMM"] ⟨bytes "DMM.MEASURE", .positional []⟩) true] ++ sentTo 0 (bytes "DMM") 0 ++
    [.endScript 0, .begin 1 (.call [bytes "DMM"] ⟨bytes "DMM.MEASURE", .positional []⟩) true]

/-- Both jobs have the token 1 outstanding on the same instrument. -/
theorem tokens_collide_twoJobs :
    ∃ s, Reachable (system .compact (fun _ _ => true) fun _ => true) s ∧
      (s.runs 0).registered = [(1, [bytes "DMM"])] ∧ (s.runs 1).registered = [(1, [bytes "DMM"])] ∧
      ¬ TokensIdentify s := by
  obtain ⟨s, hreach, hview⟩ := @ReachableWhile.of_any _ _ (system .compact (fun _ _ => true) fun _ => true)
    (fun _ _ => True) _ twoJobs
    (fun s => (s.runs 0).registered = [(1, [bytes "DMM"])] && (s.runs 1).registered = [(1, [bytes "DMM"])] &&
      (s.runs 0).Alive && (s.runs 1).Alive && (s.runs 0).cleared = [] && (s.runs 1).cleared = []) (by decide +kernel)
  obtain ⟨⟨⟨⟨⟨hfirst, hsecond⟩, halive⟩, halive'⟩, hcleared⟩, hcleared'⟩ : (((((s.runs 0).registered = [(1, [bytes "DMM"])] ∧
    (s.runs 1).registered = [(1, [bytes "DMM"])]) ∧ (s.runs 0).Alive) ∧ (s.runs 1).Alive) ∧ (s.runs 0).cleared = []) ∧
    (s.runs 1).cleared = [] := by simpa using hview
  refine ⟨s, hreach, hfirst, hsecond, fun hidentify => ?_⟩
  exact hidentify.apart 0 1 1 [bytes "DMM"] [bytes "DMM"] (by decide) ⟨halive, by simp [hfirst], by simp [hcleared]⟩
    ⟨halive', by simp [hsecond], by simp [hcleared']⟩ (bytes "DMM") (by simp) (by simp)

end ServerState

end InstrumentServer
