import Mathlib.Data.List.Count
import Mathlib.Logic.Function.Basic

/-!
# Handles with several owners

A handle that is opened again for every owner and closed once by each. The owners stand at the places of a list; a place is empty once its owner is gone. `Counted` says that every handle is open as often as owners hold it, and each rule is about one change of the list together with the change of the count that goes with it.
-/

namespace SharedHandles

variable {Owner Handle : Type} [DecidableEq Handle] {holds : Owner → Option Handle}

/-- The number of owners that hold a handle. -/
def holders (holds : Owner → Option Handle) (owners : List (Option Owner)) (h : Handle) : Nat :=
  owners.countP fun owner => owner.bind holds = some h

def Counted (holds : Owner → Option Handle) (owners : List (Option Owner)) (opens : Handle → Nat) : Prop :=
  ∀ h, opens h = holders holds owners h

variable {owners : List (Option Owner)} {opens : Handle → Nat} {i : Nat} {old new : Option Owner} {h : Handle}

theorem holders_append_singleton (owners : List (Option Owner)) (new : Option Owner) (h : Handle) :
    holders holds (owners ++ [new]) h = holders holds owners h + if new.bind holds = some h then 1 else 0 := by
  rw [holders, holders, List.countP_append, List.countP_singleton]
  simp only [decide_eq_true_eq]

theorem holders_set (hold : owners[i]? = some old) (new : Option Owner) (h : Handle) :
    holders holds (owners.set i new) h + (if old.bind holds = some h then 1 else 0) =
      holders holds owners h + if new.bind holds = some h then 1 else 0 := by
  obtain ⟨hi, rfl⟩ := List.getElem?_eq_some_iff.mp hold
  have hpositive : owners[i].bind holds = some h → 0 < holders holds owners h := fun hsome =>
    List.countP_pos_iff.mpr ⟨owners[i], List.getElem_mem hi, decide_eq_true hsome⟩
  rw [holders] at hpositive
  rw [holders, holders, List.countP_set hi]
  simp only [decide_eq_true_eq]
  split
  · rename_i hsome
    have hone := hpositive hsome
    omega
  · omega

theorem counted_nil : Counted holds [] fun _ => 0 := fun _ => rfl

namespace Counted

theorem eq_zero (hcounted : Counted holds owners opens) (hgone : ∀ owner ∈ owners, owner = none) (h : Handle) :
    opens h = 0 := by
  rw [hcounted h, holders, List.countP_eq_zero]
  intro owner howner
  simp [hgone owner howner]

theorem pos (hcounted : Counted holds owners opens) (hold : owners[i]? = some old) (hheld : old.bind holds = some h) :
    0 < opens h := by
  rw [hcounted h, holders]
  exact List.countP_pos_iff.mpr ⟨old, List.mem_of_getElem? hold, decide_eq_true hheld⟩

/-- A new owner opens its handle. -/
theorem opened (hcounted : Counted holds owners opens) (hnew : new.bind holds = some h) :
    Counted holds (owners ++ [new]) (Function.update opens h (opens h + 1)) := by
  intro other
  rw [holders_append_singleton, hnew, ← hcounted other]
  by_cases hother : other = h
  · rw [hother, Function.update_self, if_pos rfl]
  · rw [Function.update_of_ne hother, if_neg fun heq => hother (Option.some.inj heq).symm]
    rfl

/-- An owner closes its handle. -/
theorem closed (hcounted : Counted holds owners opens) (hold : owners[i]? = some old) (hheld : old.bind holds = some h)
    (hnew : new.bind holds = none) : Counted holds (owners.set i new) (Function.update opens h (opens h - 1)) := by
  intro other
  have hset := @holders_set _ _ _ holds _ _ _ hold new other
  have hpos := hcounted.pos hold hheld
  rw [hheld, hnew, ← hcounted other] at hset
  by_cases hother : other = h
  · rw [hother, if_pos rfl, if_neg (Option.some_ne_none h).symm] at hset
    rw [hother, Function.update_self]
    omega
  · rw [if_neg fun heq => hother (Option.some.inj heq).symm, if_neg (Option.some_ne_none other).symm] at hset
    rw [Function.update_of_ne hother]
    omega

/-- An owner changes and holds what it held. -/
theorem same (hcounted : Counted holds owners opens) (hold : owners[i]? = some old)
    (hsame : new.bind holds = old.bind holds) : Counted holds (owners.set i new) opens := by
  intro other
  have hset := @holders_set _ _ _ holds _ _ _ hold new other
  rw [hsame] at hset
  rw [hcounted other]
  omega

/-- A handle passes from one owner to a new one. -/
theorem passed (hcounted : Counted holds owners opens) {heir : Option Owner} (hold : owners[i]? = some old)
    (hheir : heir.bind holds = old.bind holds) (hnew : new.bind holds = none) :
    Counted holds (owners.set i new ++ [heir]) opens := by
  intro other
  have hset := @holders_set _ _ _ holds _ _ _ hold new other
  rw [holders_append_singleton, hheir, hcounted other]
  rw [hnew, if_neg (Option.some_ne_none other).symm] at hset
  omega

/-- A handle passes from one owner to another, which had none. -/
theorem passedTo (hcounted : Counted holds owners opens) {j : Nat} {empty heir : Option Owner} (hne : i ≠ j)
    (hold : owners[i]? = some old) (hempty : owners[j]? = some empty) (hnone : empty.bind holds = none)
    (hheir : heir.bind holds = old.bind holds) (hnew : new.bind holds = none) :
    Counted holds ((owners.set j heir).set i new) opens := by
  intro other
  have hfirst := @holders_set _ _ _ holds _ _ _ hempty heir other
  have hkept : (owners.set j heir)[i]? = some old := by rw [List.getElem?_set_ne (Ne.symm hne), hold]
  have hsecond := @holders_set _ _ _ holds _ _ _ hkept new other
  rw [hnone, hheir, if_neg (Option.some_ne_none other).symm] at hfirst
  rw [hnew, if_neg (Option.some_ne_none other).symm] at hsecond
  rw [hcounted other]
  omega

end Counted

end SharedHandles
