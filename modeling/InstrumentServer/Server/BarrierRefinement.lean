import InstrumentServer.Server.SyncCoordinator

/-!
# The sync coordinator refines the barrier

After any history of calls the coordinator stores a barrier for a token exactly while the history has a live one, with the expected set of its latest registration and the members that acknowledged since. All that the methods answer is read off that.
-/

namespace InstrumentServer

open Barrier

namespace SyncCoordinator

/-- The call on the abstract barrier. -/
def SyncCall.abstract : SyncCall → Call SyncToken ByteString
  | .registerBarrier token instruments => .register token instruments.toFinset
  | .handleAck token inst => .ack token inst
  | .clearBarrier token => .clear token

@[simp] theorem SyncCall.abstract_token (call : SyncCall) : call.abstract.token = call.syncToken := by
  cases call <;> rfl

/-- The stored barriers are the live ones of the history. -/
structure Refines (c : SyncCoordinator) (history : List (Call SyncToken ByteString)) : Prop where
  stored : ∀ token barrier, c.barriers token = some barrier →
    ∃ since, Live history token barrier.expectedInstruments since ∧
      ∀ inst, inst ∈ barrier.ackedInstruments ↔ inst ∈ barrier.expectedInstruments ∧ .ack token inst ∈ since
  absent : ∀ token, c.barriers token = none → ∀ expected since, ¬ Live history token expected since

theorem refines_empty : Refines empty [] where
  stored := by simp [empty]
  absent := by
    rintro token - expected since ⟨⟨⟨earlier, heq⟩, _⟩, _, _⟩
    simp at heq

namespace Refines

variable {c : SyncCoordinator} {history : List (Call SyncToken ByteString)}

/-- The acknowledged members complete the barrier exactly when the last one acknowledges. -/
theorem insert_eq_iff {token : SyncToken} {barrier : SyncBarrier} {since : List (Call SyncToken ByteString)}
    {inst : ByteString} (hlive : Live history token barrier.expectedInstruments since)
    (hacked : ∀ other, other ∈ barrier.ackedInstruments ↔
      other ∈ barrier.expectedInstruments ∧ .ack token other ∈ since)
    (hexp : inst ∈ barrier.expectedInstruments) :
    insert inst barrier.ackedInstruments = barrier.expectedInstruments ↔
      LastToAck token barrier.expectedInstruments since inst := by
  rw [← completed_snoc_ack hlive.notCompleted]
  constructor
  · intro heq
    refine ⟨⟨inst, hexp⟩, fun other hother => ?_⟩
    rcases Finset.mem_insert.mp (heq ▸ hother) with rfl | hmem
    · simp
    · exact List.mem_append_left _ ((hacked other).mp hmem).2
  · rintro ⟨-, hall⟩
    ext other
    rw [Finset.mem_insert, hacked]
    constructor
    · rintro (rfl | hmem)
      · exact hexp
      · exact hmem.1
    · intro hother
      rcases List.mem_append.mp (hall other hother) with hmem | hmem
      · exact Or.inr ⟨hother, hmem⟩
      · exact Or.inl (by simpa using hmem)

/-- What an acknowledgement of a token does to the refinement at that token. -/
theorem snoc_ack (h : Refines c history) (token : SyncToken) (inst : ByteString) :
    (∀ barrier, (c.handleAck token inst).1.barriers token = some barrier →
      ∃ since, Live (history ++ [.ack token inst]) token barrier.expectedInstruments since ∧
        ∀ other, other ∈ barrier.ackedInstruments ↔
          other ∈ barrier.expectedInstruments ∧ .ack token other ∈ since) ∧
    ((c.handleAck token inst).1.barriers token = none →
      ∀ expected since, ¬ Live (history ++ [.ack token inst]) token expected since) := by
  cases hbarrier : c.barriers token with
  | none =>
      rw [handleAck_of_none hbarrier, hbarrier]
      refine ⟨by simp, fun _ expected since hlive => ?_⟩
      obtain ⟨before, -, hbefore, -⟩ := live_snoc_ack.mp hlive
      exact h.absent token hbarrier expected before hbefore
  | some barrier =>
      obtain ⟨since, hlive, hacked⟩ := h.stored token barrier hbarrier
      rcases handleAck_of_some inst hbarrier with
        ⟨hstranger, heq⟩ | ⟨hexp, hall, -, hnone⟩ | ⟨hexp, hall, -, hsome⟩
      · rw [heq, hbarrier]
        refine ⟨?_, by simp⟩
        rintro barrier' ⟨⟩
        refine ⟨_, live_snoc_ack.mpr ⟨since, rfl, hlive, fun hlast => hstranger hlast.isExpected⟩, fun other => ?_⟩
        rw [hacked other]
        simp only [List.mem_append, List.mem_singleton, Call.ack.injEq, true_and, and_congr_right_iff]
        intro hother
        constructor
        · exact Or.inl
        · rintro (hmem | rfl)
          · exact hmem
          · exact absurd hother hstranger
      · rw [hnone]
        refine ⟨by simp, fun _ expected since' hlive' => ?_⟩
        obtain ⟨before, -, hbefore, hnotLast⟩ := live_snoc_ack.mp hlive'
        obtain ⟨rfl, rfl⟩ := hbefore.registered.unique hlive.registered
        exact hnotLast ((insert_eq_iff hlive hacked hexp).mp hall)
      · rw [hsome]
        refine ⟨?_, by simp⟩
        rintro barrier' ⟨⟩
        refine ⟨_, live_snoc_ack.mpr ⟨since, rfl, hlive, fun hlast => hall ((insert_eq_iff hlive hacked hexp).mpr hlast)⟩,
          fun other => ?_⟩
        rw [Finset.mem_insert, hacked other]
        simp only [List.mem_append, List.mem_singleton, Call.ack.injEq, true_and]
        constructor
        · rintro (rfl | ⟨hother, hmem⟩)
          · exact ⟨hexp, Or.inr rfl⟩
          · exact ⟨hother, Or.inl hmem⟩
        · rintro ⟨hother, hmem | rfl⟩
          · exact Or.inr ⟨hother, hmem⟩
          · exact Or.inl rfl

/-- Every call preserves the refinement. -/
theorem snoc (h : Refines c history) (call : SyncCall) :
    Refines (c.apply call) (history ++ [call.abstract]) := by
  -- tokens other than the call's own: nothing stored changes and the new call does not count
  have hother : ∀ token, token ≠ call.syncToken →
      (∀ barrier, (c.apply call).barriers token = some barrier →
        ∃ since, Live (history ++ [call.abstract]) token barrier.expectedInstruments since ∧
          ∀ inst, inst ∈ barrier.ackedInstruments ↔
            inst ∈ barrier.expectedInstruments ∧ .ack token inst ∈ since) ∧
      ((c.apply call).barriers token = none →
        ∀ expected since, ¬ Live (history ++ [call.abstract]) token expected since) := by
    intro token hne
    have htoken : call.abstract.token ≠ token := by simpa using Ne.symm hne
    rw [apply_barriers_of_ne c call hne]
    refine ⟨fun barrier hbarrier => ?_, fun hnone expected since hlive => ?_⟩
    · obtain ⟨since, hlive, hacked⟩ := h.stored token barrier hbarrier
      refine ⟨_, (live_snoc_of_ne htoken).mpr ⟨since, rfl, hlive⟩, fun inst => ?_⟩
      have hack : Call.ack token inst ≠ call.abstract := fun he => htoken (by rw [← he]; rfl)
      rw [hacked inst, List.mem_append, List.mem_singleton]
      simp [hack]
    · obtain ⟨before, -, hbefore⟩ := (live_snoc_of_ne htoken).mp hlive
      exact h.absent token hnone expected before hbefore
  have hself : (∀ barrier, (c.apply call).barriers call.syncToken = some barrier →
        ∃ since, Live (history ++ [call.abstract]) call.syncToken barrier.expectedInstruments since ∧
          ∀ inst, inst ∈ barrier.ackedInstruments ↔
            inst ∈ barrier.expectedInstruments ∧ .ack call.syncToken inst ∈ since) ∧
      ((c.apply call).barriers call.syncToken = none →
        ∀ expected since, ¬ Live (history ++ [call.abstract]) call.syncToken expected since) := by
    cases call with
    | registerBarrier token instruments =>
        simp only [apply, SyncCall.syncToken, SyncCall.abstract, registerBarrier_self]
        refine ⟨?_, by simp⟩
        rintro barrier ⟨⟩
        exact ⟨[], live_snoc_register.mpr ⟨rfl, rfl⟩, by simp⟩
    | clearBarrier token =>
        simp only [apply, SyncCall.syncToken, SyncCall.abstract, clearBarrier_self]
        exact ⟨by simp, fun _ _ _ => not_live_snoc_clear⟩
    | handleAck token inst => exact h.snoc_ack token inst
  constructor
  · intro token
    by_cases hne : token = call.syncToken
    · exact hne ▸ hself.1
    · exact (hother token hne).1
  · intro token
    by_cases hne : token = call.syncToken
    · exact hne ▸ hself.2
    · exact (hother token hne).2

theorem run (history : List SyncCall) : Refines (empty.run history) (history.map SyncCall.abstract) := by
  induction history using List.reverseRecOn with
  | nil => exact refines_empty
  | append_singleton history call ih =>
      rw [run_snoc, List.map_append]
      exact ih.snoc call

/-- An acknowledgement is answered with true exactly when it is the last one of a live barrier. -/
theorem handleAck_iff (h : Refines c history) (token : SyncToken) (inst : ByteString) :
    (c.handleAck token inst).2 = true ↔
      ∃ expected since, Live history token expected since ∧ LastToAck token expected since inst := by
  cases hbarrier : c.barriers token with
  | none =>
      rw [handleAck_of_none hbarrier]
      simp only [Bool.false_eq_true, false_iff]
      rintro ⟨expected, since, hlive, -⟩
      exact h.absent token hbarrier expected since hlive
  | some barrier =>
      obtain ⟨since, hlive, hacked⟩ := h.stored token barrier hbarrier
      have hunique : (∃ expected since', Live history token expected since' ∧ LastToAck token expected since' inst) ↔
          LastToAck token barrier.expectedInstruments since inst := by
        constructor
        · rintro ⟨expected, since', hlive', hlast⟩
          obtain ⟨rfl, rfl⟩ := hlive'.registered.unique hlive.registered
          exact hlast
        · exact fun hlast => ⟨_, since, hlive, hlast⟩
      rw [hunique]
      rcases handleAck_of_some inst hbarrier with
        ⟨hstranger, heq⟩ | ⟨hexp, hall, htrue, -⟩ | ⟨hexp, hall, hfalse, -⟩
      · rw [heq]
        simp only [Bool.false_eq_true, false_iff]
        exact fun hlast => hstranger hlast.isExpected
      · exact ⟨fun _ => (insert_eq_iff hlive hacked hexp).mp hall, fun _ => htrue⟩
      · rw [hfalse]
        simp only [Bool.false_eq_true, false_iff]
        exact fun hlast => hall ((insert_eq_iff hlive hacked hexp).mpr hlast)

/-- The instruments still waited for are the expected ones that have not acknowledged. -/
theorem mem_waiting_iff (h : Refines c history) (token : SyncToken) (inst : ByteString) :
    inst ∈ c.getWaitingInstruments token ↔
      ∃ expected since, Live history token expected since ∧ inst ∈ expected ∧ .ack token inst ∉ since := by
  cases hbarrier : c.barriers token with
  | none =>
      simp only [getWaitingInstruments, hbarrier, List.not_mem_nil, false_iff]
      rintro ⟨expected, since, hlive, -⟩
      exact h.absent token hbarrier expected since hlive
  | some barrier =>
      obtain ⟨since, hlive, hacked⟩ := h.stored token barrier hbarrier
      simp only [getWaitingInstruments, hbarrier, List.mem_filter, Finset.mem_sort, decide_eq_true_eq, hacked]
      constructor
      · rintro ⟨hexp, hnot⟩
        exact ⟨_, since, hlive, hexp, fun hmem => hnot ⟨hexp, hmem⟩⟩
      · rintro ⟨expected, since', hlive', hexp, hnot⟩
        obtain ⟨rfl, rfl⟩ := hlive'.registered.unique hlive.registered
        exact ⟨hexp, fun hmem => hnot hmem.2⟩

end Refines

/-! ### At most one completion per registration -/

theorem completions_of_none {token : SyncToken} {c : SyncCoordinator} {calls : List SyncCall}
    (hnone : c.barriers token = none) (hcalls : ∀ instruments, .registerBarrier token instruments ∉ calls) :
    completions token c calls = 0 := by
  induction calls generalizing c with
  | nil => rfl
  | cons call calls ih =>
      have hrest : ∀ instruments, .registerBarrier token instruments ∉ calls :=
        fun instruments hmem => hcalls instruments (List.mem_cons_of_mem _ hmem)
      have hnext : (c.apply call).barriers token = none := by
        by_cases hne : token = call.syncToken
        · cases call with
          | registerBarrier token' instruments => exact absurd (hne ▸ List.mem_cons_self) (hcalls instruments)
          | clearBarrier token' =>
              obtain rfl : token = token' := hne
              exact clearBarrier_self c token
          | handleAck token' inst =>
              obtain rfl : token = token' := hne
              simpa [apply, handleAck_of_none hnone] using hnone
        · rw [apply_barriers_of_ne c call hne]
          exact hnone
      cases call with
      | registerBarrier token' instruments => exact ih hnext hrest
      | clearBarrier token' => exact ih hnext hrest
      | handleAck token' inst =>
          have hreply : ¬ (token' = token ∧ (c.handleAck token' inst).2 = true) := by
            rintro ⟨rfl, htrue⟩
            simp [handleAck_of_none hnone] at htrue
          rw [completions, if_neg hreply, Nat.zero_add]
          exact ih hnext hrest

theorem completions_le_one {token : SyncToken} (c : SyncCoordinator) {calls : List SyncCall}
    (hcalls : ∀ instruments, .registerBarrier token instruments ∉ calls) : completions token c calls ≤ 1 := by
  induction calls generalizing c with
  | nil => exact Nat.zero_le 1
  | cons call calls ih =>
      have hrest : ∀ instruments, .registerBarrier token instruments ∉ calls :=
        fun instruments hmem => hcalls instruments (List.mem_cons_of_mem _ hmem)
      cases call with
      | registerBarrier token' instruments => exact ih _ hrest
      | clearBarrier token' => exact ih _ hrest
      | handleAck token' inst =>
          by_cases hreply : token' = token ∧ (c.handleAck token' inst).2 = true
          · obtain ⟨rfl, htrue⟩ := hreply
            have hgone : (c.handleAck token' inst).1.barriers token' = none := by
              cases hbarrier : c.barriers token' with
              | none => simp [handleAck_of_none hbarrier] at htrue
              | some barrier =>
                  rcases handleAck_of_some inst hbarrier with
                    ⟨-, heq⟩ | ⟨-, -, -, hnone⟩ | ⟨-, -, hfalse, -⟩
                  · simp [heq] at htrue
                  · exact hnone
                  · simp [hfalse] at htrue
            rw [completions, completions_of_none hgone hrest]
            simp [htrue]
          · rw [completions, if_neg hreply, Nat.zero_add]
            exact ih _ hrest

end SyncCoordinator

open SyncCoordinator in
/-- The coordinator is the barrier of its history: an acknowledgement is answered with true exactly when it is the last one of a live barrier, which happens at most once per registration; the instruments waited for are the expected ones that have not acknowledged, nobody when no barrier is live; and no call changes the barrier of another token. -/
theorem syncCoordinator_refines_barrier (history : List SyncCall) (token : SyncToken) :
    (∀ inst, ((empty.run history).handleAck token inst).2 = true ↔
      ∃ expected since, Live (history.map SyncCall.abstract) token expected since ∧
        LastToAck token expected since inst) ∧
    (∀ calls, (∀ instruments, .registerBarrier token instruments ∉ calls) →
      completions token (empty.run history) calls ≤ 1) ∧
    (∀ expected since, Live (history.map SyncCall.abstract) token expected since →
      ∀ inst, inst ∈ (empty.run history).getWaitingInstruments token ↔
        inst ∈ expected ∧ .ack token inst ∉ since) ∧
    ((∀ expected since, ¬ Live (history.map SyncCall.abstract) token expected since) →
      (empty.run history).getWaitingInstruments token = []) ∧
    (∀ call : SyncCall, call.syncToken ≠ token →
      ((empty.run history).apply call).barriers token = (empty.run history).barriers token) := by
  have h := Refines.run history
  refine ⟨fun inst => h.handleAck_iff token inst, fun calls hcalls => completions_le_one _ hcalls, ?_, ?_, ?_⟩
  · intro expected since hlive inst
    rw [h.mem_waiting_iff token inst]
    constructor
    · rintro ⟨expected', since', hlive', hmem⟩
      obtain ⟨rfl, rfl⟩ := hlive'.registered.unique hlive.registered
      exact hmem
    · exact fun hmem => ⟨expected, since, hlive, hmem⟩
  · intro hdead
    refine List.eq_nil_iff_forall_not_mem.mpr fun inst hmem => ?_
    obtain ⟨expected, since, hlive, -⟩ := (h.mem_waiting_iff token inst).mp hmem
    exact hdead expected since hlive
  · exact fun call hne => apply_barriers_of_ne _ call hne.symm

end InstrumentServer
