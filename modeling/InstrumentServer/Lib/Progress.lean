import InstrumentServer.Lib.Transition
import Mathlib.Algebra.BigOperators.Finprod

/-!
# Systems that come to rest

A measure that every step of a certain kind makes smaller bounds the number of such steps in a row. Where moreover some such step is possible in every state that is not settled, a run of them can only end in a settled state, and one that ends there exists. The measure of a system of many components is the sum of what is left to do in each.
-/

namespace Transition

variable {State Label : Type} {T : System State Label} {ok : State → Label → Prop}
  [∀ s label, Decidable (ok s label)] {Inv : State → Prop} {measure : State → Nat}

/-- An invariant along a run. -/
theorem System.runWhile_invariant (hstep : ∀ s t label, Inv s → ok s label → T.step s label = some t → Inv t)
    {labels : List Label} {s t : State} (hs : Inv s) (hrun : T.runWhile ok s labels = some t) : Inv t := by
  induction labels generalizing s with
  | nil =>
      obtain rfl : s = t := by simpa [System.runWhile] using hrun
      exact hs
  | cons label labels ih =>
      rw [System.runWhile] at hrun
      split at hrun
      · rename_i hok
        obtain ⟨mid, hmid, hrest⟩ := Option.bind_eq_some_iff.mp hrun
        exact ih (hstep s mid label hs hok hmid) hrest
      · simp at hrun

/-- A run of steps that each make the measure smaller is no longer than the measure says. -/
theorem System.length_runWhile_le (hstep : ∀ s t label, Inv s → ok s label → T.step s label = some t → Inv t)
    (hless : ∀ s t label, Inv s → ok s label → T.step s label = some t → measure t < measure s)
    {labels : List Label} {s t : State} (hs : Inv s) (hrun : T.runWhile ok s labels = some t) :
    labels.length + measure t ≤ measure s := by
  induction labels generalizing s with
  | nil =>
      obtain rfl : s = t := by simpa [System.runWhile] using hrun
      exact Nat.le_of_eq (Nat.zero_add _)
  | cons label labels ih =>
      rw [System.runWhile] at hrun
      split at hrun
      · rename_i hok
        obtain ⟨mid, hmid, hrest⟩ := Option.bind_eq_some_iff.mp hrun
        have hlength := ih (hstep s mid label hs hok hmid) hrest
        have hsmaller := hless s mid label hs hok hmid
        rw [List.length_cons]
        omega
      · simp at hrun

/-- No step of the kind is possible. -/
def System.AtRest (T : System State Label) (ok : State → Label → Prop) (s : State) : Prop :=
  ∀ label, ok s label → T.step s label = none

/-- From every state a run of such steps leads to rest. -/
theorem System.exists_atRest (hstep : ∀ s t label, Inv s → ok s label → T.step s label = some t → Inv t)
    (hless : ∀ s t label, Inv s → ok s label → T.step s label = some t → measure t < measure s)
    {s : State} (hs : Inv s) : ∃ labels t, T.runWhile ok s labels = some t ∧ T.AtRest ok t := by
  induction hmeasure : measure s using Nat.strongRecOn generalizing s with
  | ind n ih =>
      by_cases hrest : T.AtRest ok s
      · exact ⟨[], s, rfl, hrest⟩
      · simp only [System.AtRest, not_forall] at hrest
        obtain ⟨label, hok, hsome⟩ := hrest
        obtain ⟨mid, hmid⟩ := Option.ne_none_iff_exists'.mp hsome
        obtain ⟨labels, t, hrun, ht⟩ :=
          ih (measure mid) (hmeasure ▸ hless s mid label hs hok hmid) (hstep s mid label hs hok hmid) rfl
        refine ⟨label :: labels, t, ?_, ht⟩
        rw [System.runWhile, if_pos hok, hmid]
        exact hrun

/-! ### Systems of components -/

section Components

variable {ι Component : Type*} [DecidableEq ι] {weight : Component → Nat} {components : ι → Component} {i : ι}
  {component : Component} {k : Nat}

/-- One component grows by at most `k`. -/
theorem sum_update_le (S : Finset ι) (hless : weight component ≤ weight (components i) + k) :
    ∑ j ∈ S, weight (Function.update components i component j) ≤ ∑ j ∈ S, weight (components j) + k := by
  by_cases hi : i ∈ S
  · have hrest : ∑ j ∈ S.erase i, weight (Function.update components i component j) = ∑ j ∈ S.erase i, weight (components j) :=
      Finset.sum_congr rfl fun j hj => by rw [Function.update_of_ne (Finset.ne_of_mem_erase hj)]
    rw [← Finset.sum_erase_add _ _ hi, hrest, Function.update_self, ← Finset.sum_erase_add S _ hi]
    omega
  · have hsame : ∑ j ∈ S, weight (Function.update components i component j) = ∑ j ∈ S, weight (components j) :=
      Finset.sum_congr rfl fun j hj => by rw [Function.update_of_ne (ne_of_mem_of_not_mem hj hi)]
    rw [hsame]
    exact Nat.le_add_right _ _

/-- One component pays for what others may grow by. -/
theorem sum_update_add_lt {S : Finset ι} (hi : i ∈ S) (hless : weight component + k < weight (components i)) :
    ∑ j ∈ S, weight (Function.update components i component j) + k < ∑ j ∈ S, weight (components j) := by
  have hrest : ∑ j ∈ S.erase i, weight (Function.update components i component j) = ∑ j ∈ S.erase i, weight (components j) :=
    Finset.sum_congr rfl fun j hj => by rw [Function.update_of_ne (Finset.ne_of_mem_erase hj)]
  rw [← Finset.sum_erase_add _ _ hi, hrest, Function.update_self, ← Finset.sum_erase_add S _ hi]
  omega

/-- The same for the components on a list, each of which stands there once. -/
theorem sum_map_le {order : List ι} (hdistinct : order.Nodup) {cost cost' : ι → Nat} (hself : cost' i ≤ cost i + k)
    (hother : ∀ j, j ≠ i → cost' j = cost j) : (order.map cost').sum ≤ (order.map cost).sum + k := by
  induction order with
  | nil => exact Nat.zero_le _
  | cons j order ih =>
      obtain ⟨hnew, hrest⟩ := List.nodup_cons.mp hdistinct
      simp only [List.map_cons, List.sum_cons]
      by_cases hj : j = i
      · have hsame : order.map cost' = order.map cost :=
          List.map_congr_left fun other hmem => hother other fun heq => hnew (hj.trans heq.symm ▸ hmem)
        rw [hsame, hj]
        omega
      · have hless := ih hrest
        rw [hother j hj]
        omega

/-- Only finitely many components have something left to do. -/
def FinitelyBusy (weight : Component → Nat) (components : ι → Component) : Prop :=
  (Function.support fun j => weight (components j)).Finite

theorem FinitelyBusy.update (hfinite : FinitelyBusy weight components) (i : ι) (component : Component) :
    FinitelyBusy weight (Function.update components i component) := by
  refine (hfinite.insert i).subset fun j hj => ?_
  by_cases hji : j = i
  · exact Or.inl hji
  · refine Or.inr ?_
    rwa [Function.mem_support, Function.update_of_ne hji] at hj

/-- The sum over all components, as one over finitely many that contain the busy ones before and after a change. -/
theorem FinitelyBusy.exists_sum (hfinite : FinitelyBusy weight components) (i : ι) (component : Component) :
    ∃ S : Finset ι, i ∈ S ∧ ∑ᶠ j, weight (components j) = ∑ j ∈ S, weight (components j) ∧
      ∑ᶠ j, weight (Function.update components i component j) = ∑ j ∈ S, weight (Function.update components i component j) := by
  refine ⟨insert i hfinite.toFinset, Finset.mem_insert_self .., ?_, ?_⟩
  · refine finsum_eq_sum_of_support_subset _ fun j hj => ?_
    exact Finset.mem_coe.mpr (Finset.mem_insert_of_mem (hfinite.mem_toFinset.mpr hj))
  · refine finsum_eq_sum_of_support_subset _ fun j hj => ?_
    by_cases hji : j = i
    · exact Finset.mem_coe.mpr (Finset.mem_insert.mpr (Or.inl hji))
    · rw [Function.mem_support, Function.update_of_ne hji] at hj
      exact Finset.mem_coe.mpr (Finset.mem_insert_of_mem (hfinite.mem_toFinset.mpr hj))

theorem finsum_update_le (hfinite : FinitelyBusy weight components) (hless : weight component ≤ weight (components i) + k) :
    ∑ᶠ j, weight (Function.update components i component j) ≤ ∑ᶠ j, weight (components j) + k := by
  obtain ⟨S, -, hsum, hsum'⟩ := hfinite.exists_sum i component
  rw [hsum, hsum']
  exact sum_update_le S hless

theorem finsum_update_lt (hfinite : FinitelyBusy weight components) (hless : weight component < weight (components i)) :
    ∑ᶠ j, weight (Function.update components i component j) < ∑ᶠ j, weight (components j) := by
  obtain ⟨S, hi, hsum, hsum'⟩ := hfinite.exists_sum i component
  rw [hsum, hsum']
  exact sum_update_add_lt (k := 0) hi hless

end Components

end Transition
