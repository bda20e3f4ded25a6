import Mathlib.Data.List.Infix

/-!
# Loops that count an `int`

`for (int i = first; i <= last; ++i)` with a body that passes a state on or throws. A run has a bound on its rounds, so a loop without an end has no result; a result says which values the counter took and how the loop ended. Incrementing the greatest `int` is an overflow, with which the behaviour of the loop ends; or the counter wraps around.

The loop is a fold over the numbers from `first` to `last`, but for the last increment: if `last` is the greatest `int`, the counter overflows behind the fold, and a counter that wraps around never leaves the loop.
-/

namespace CountedLoop

variable {σ ε : Type}

inductive Outcome (σ ε : Type) where
  | finished (state : σ)
  | thrown (error : ε)
  /-- the counter was the greatest `int` and was incremented -/
  | overflowed (state : σ)

def checked (counter : Int32) : Option Int32 := if counter = Int32.maxValue then none else some (counter + 1)

def wrapping (counter : Int32) : Option Int32 := some (counter + 1)

/-- At most `rounds` comparisons of the counter; with the values for which the body was entered. -/
def run (next : Int32 → Option Int32) (body : σ → Int → Except ε σ) (last : Int32) :
    Nat → Int32 → σ → Option (List Int32 × Outcome σ ε)
  | 0, _, _ => none
  | rounds + 1, counter, state =>
      if counter ≤ last then
        match body state counter.toInt with
        | .error e => some ([counter], .thrown e)
        | .ok state =>
            match next counter with
            | none => some ([counter], .overflowed state)
            | some counter' =>
                (run next body last rounds counter' state).map fun result => (counter :: result.1, result.2)
      else some ([], .finished state)

/-- The numbers from `first` to `last`, none if `last` is smaller. -/
def numbers (first last : Int) : List Int := (List.range (last + 1 - first).toNat).map fun k : Nat => first + k

/-- What a loop does that counts from `first` to `last`; an exception of the body may leave it. -/
structure Counts (first last : Int32) (visited : List Int32) (outcome : Outcome σ ε) : Prop where
  defined : ∀ state, outcome ≠ .overflowed state
  ordered : visited.map Int32.toInt <+: numbers first.toInt last.toInt
  all : (∀ e, outcome ≠ .thrown e) → visited.map Int32.toInt = numbers first.toInt last.toInt

/-- The loop ends, and it counts from `first` to `last`. -/
def CountsThrough (body : σ → Int → Except ε σ) (first last : Int32) (state : σ) : Prop :=
  ∃ rounds visited outcome, run checked body last rounds first state = some (visited, outcome) ∧
    Counts first last visited outcome

/-! ### The numbers of a loop -/

theorem numbers_of_lt {first last : Int} (h : last < first) : numbers first last = [] := by
  have hzero : (last + 1 - first).toNat = 0 := by omega
  rw [numbers, hzero]
  rfl

theorem numbers_of_le {first last : Int} (h : first ≤ last) : numbers first last = first :: numbers (first + 1) last := by
  have hsucc : (last + 1 - first).toNat = (last + 1 - (first + 1)).toNat + 1 := by omega
  rw [numbers, hsucc, List.range_succ_eq_map, List.map_cons, List.map_map, numbers]
  congr 1
  · simp
  · refine List.map_congr_left fun k _ => ?_
    simp only [Function.comp_apply, Nat.succ_eq_add_one]
    omega

/-! ### The loop as a fold -/

section

variable {body : σ → Int → Except ε σ} {last counter : Int32} {state : σ} {rounds : Nat}

/-- How a loop ends whose fold comes to this. -/
def Outcome.ofFold (last : Int32) : Except ε σ → Outcome σ ε
  | .error e => .thrown e
  | .ok state => if last = Int32.maxValue then .overflowed state else .finished state

theorem toInt_add_one (h : counter ≠ Int32.maxValue) : (counter + 1).toInt = counter.toInt + 1 := by
  have hne : counter.toInt ≠ 2 ^ 31 - 1 := by
    rw [← Int32.toInt_maxValue, Ne, Int32.toInt_inj]
    exact h
  have hlower := counter.le_toInt
  have hupper := counter.toInt_lt
  rw [Int32.toInt_add, Int32.toInt_one]
  exact Int.bmod_eq_of_le (by omega) (by omega)

theorem le_maxValue (counter : Int32) : counter ≤ Int32.maxValue := Int32.le_iff_toInt_le.mpr counter.toInt_le

theorem run_done {next : Int32 → Option Int32} (h : ¬ counter ≤ last) :
    run next body last (rounds + 1) counter state = some ([], .finished state) := by
  rw [run, if_neg h]

section

variable {next : Int32 → Option Int32} {state' : σ} (hle : counter ≤ last)

include hle

theorem run_throws {e : ε} (hbody : body state counter.toInt = .error e) :
    run next body last (rounds + 1) counter state = some ([counter], .thrown e) := by
  rw [run, if_pos hle, hbody]

theorem run_overflows (hbody : body state counter.toInt = .ok state') (hnext : next counter = none) :
    run next body last (rounds + 1) counter state = some ([counter], .overflowed state') := by
  simp only [run, if_pos hle, hbody, hnext]

theorem run_next {counter' : Int32} (hbody : body state counter.toInt = .ok state')
    (hnext : next counter = some counter') :
    run next body last (rounds + 1) counter state =
      (run next body last rounds counter' state').map fun result => (counter :: result.1, result.2) := by
  simp only [run, if_pos hle, hbody, hnext]

end

theorem run_checked (body : σ → Int → Except ε σ) (last : Int32) {rounds : Nat} {counter : Int32} (state : σ)
    (hrounds : (numbers counter.toInt last.toInt).length < rounds) :
    ∃ visited, run checked body last rounds counter state =
        some (visited, .ofFold last ((numbers counter.toInt last.toInt).foldlM body state)) ∧
      visited.map Int32.toInt <+: numbers counter.toInt last.toInt ∧
      ∀ state', (numbers counter.toInt last.toInt).foldlM body state = .ok state' →
        visited.map Int32.toInt = numbers counter.toInt last.toInt := by
  induction rounds generalizing counter state with
  | zero => omega
  | succ rounds ih =>
      by_cases hle : counter ≤ last
      · have hcons := numbers_of_le (Int32.le_iff_toInt_le.mp hle)
        rw [hcons, List.foldlM_cons]
        cases hbody : body state counter.toInt with
        | error e => exact ⟨[counter], run_throws hle hbody, by simp, fun _ hfold => by contradiction⟩
        | ok state =>
            by_cases hmax : counter = Int32.maxValue
            · -- no number comes behind the counter
              obtain rfl : last = counter := Int32.le_antisymm (hmax ▸ le_maxValue last) hle
              have hnil : numbers (last.toInt + 1) last.toInt = [] := numbers_of_lt (by omega)
              have houtcome : Outcome.ofFold last (Except.ok state : Except ε σ) = .overflowed state := if_pos hmax
              rw [hnil]
              refine ⟨[last], ?_, by simp, fun _ _ => rfl⟩
              rw [run_overflows hle hbody (if_pos hmax), ← houtcome]
              rfl
            · have hsucc := toInt_add_one hmax
              rw [hcons, List.length_cons, ← hsucc] at hrounds
              obtain ⟨visited, hrun, hordered, hall⟩ := ih state (Nat.lt_of_succ_lt_succ hrounds)
              rw [hsucc] at hrun hordered hall
              refine ⟨counter :: visited, ?_, ?_, fun state' hfold => ?_⟩
              · rw [run_next hle hbody (if_neg hmax), hrun]
                rfl
              · rw [List.map_cons, List.prefix_cons_inj]
                exact hordered
              · rw [List.map_cons, hall state' hfold]
      · have hlt : last.toInt < counter.toInt := by
          rw [Int32.le_iff_toInt_le] at hle
          omega
        have hmax : last ≠ Int32.maxValue := fun hmax => hle (hmax ▸ le_maxValue counter)
        have houtcome : Outcome.ofFold last (Except.ok state : Except ε σ) = .finished state := if_neg hmax
        rw [run_done hle, numbers_of_lt hlt, ← houtcome]
        exact ⟨[], rfl, by simp, fun _ _ => rfl⟩

/-- More rounds do not change a result. -/
theorem run_mono {next : Int32 → Option Int32} {rounds' : Nat} {result : List Int32 × Outcome σ ε}
    (hrun : run next body last rounds counter state = some result) (hle : rounds ≤ rounds') :
    run next body last rounds' counter state = some result := by
  induction rounds generalizing rounds' counter state result with
  | zero => contradiction
  | succ rounds ih =>
      obtain ⟨rounds', rfl⟩ := Nat.exists_eq_add_of_le' (Nat.one_le_iff_ne_zero.mpr (Nat.ne_zero_of_lt hle))
      by_cases hround : counter ≤ last
      · cases hbody : body state counter.toInt with
        | error e => rwa [run_throws hround hbody] at hrun ⊢
        | ok state' =>
            cases hnext : next counter with
            | none => rwa [run_overflows hround hbody hnext] at hrun ⊢
            | some counter' =>
                rw [run_next hround hbody hnext, Option.map_eq_some_iff] at hrun ⊢
                obtain ⟨rest, hrest, hresult⟩ := hrun
                exact ⟨rest, ih hrest (Nat.le_of_succ_le_succ hle), hresult⟩
      · rwa [run_done hround] at hrun ⊢

/-- The exact condition: the last number is not the greatest `int`, or the body throws before the counter is there. -/
theorem countsThrough_iff (body : σ → Int → Except ε σ) (first last : Int32) (state : σ) :
    CountsThrough body first last state ↔
      last ≠ Int32.maxValue ∨ ∃ e, (numbers first.toInt last.toInt).foldlM body state = .error e := by
  obtain ⟨visited, hrun, hordered, hall⟩ := run_checked body last state (Nat.lt_succ_self _)
  constructor
  · rintro ⟨rounds, visited', outcome, hrun', hcounts⟩
    have hsame := (run_mono hrun (Nat.le_max_left _ rounds)).symm.trans (run_mono hrun' (Nat.le_max_right _ rounds))
    obtain ⟨-, houtcome⟩ := Prod.mk.inj (Option.some.inj hsame)
    by_contra hnot
    obtain ⟨hlast, hthrows⟩ := not_or.mp hnot
    cases hfold : (numbers first.toInt last.toInt).foldlM body state with
    | error e => exact hthrows ⟨e, hfold⟩
    | ok state' =>
        rw [hfold, Outcome.ofFold, if_pos (not_not.mp hlast)] at houtcome
        exact hcounts.defined state' houtcome.symm
  · intro hcondition
    refine ⟨_, visited, _, hrun, fun state' houtcome => ?_, hordered, fun hnot => ?_⟩
    · cases hfold : (numbers first.toInt last.toInt).foldlM body state with
      | error e => simp [hfold, Outcome.ofFold] at houtcome
      | ok state'' =>
          have hlast : last ≠ Int32.maxValue := hcondition.resolve_right (by simp [hfold])
          simp [hfold, Outcome.ofFold, hlast] at houtcome
    · cases hfold : (numbers first.toInt last.toInt).foldlM body state with
      | error e => exact absurd (congrArg (Outcome.ofFold last) hfold) (hnot e)
      | ok state' => exact hall state' hfold

section

variable {P : σ → Prop} (hbody : ∀ state n, P state → ∃ state', body state n = .ok state' ∧ P state')

include hbody

theorem exists_foldlM_ok (ns : List Int) {state : σ} (hstate : P state) :
    ∃ state', ns.foldlM body state = .ok state' := by
  induction ns generalizing state with
  | nil => exact ⟨state, rfl⟩
  | cons n ns ih =>
      obtain ⟨state', hround, hkept⟩ := hbody state n hstate
      obtain ⟨result, hrest⟩ := ih hkept
      exact ⟨result, by rw [List.foldlM_cons, hround]; exact hrest⟩

/-- Without an exception the counter overflows. -/
theorem not_countsThrough_maxValue (first : Int32) (hstate : P state) :
    ¬ CountsThrough body first Int32.maxValue state := by
  obtain ⟨state', hfold⟩ := exists_foldlM_ok hbody (numbers first.toInt Int32.maxValue.toInt) hstate
  rw [countsThrough_iff, hfold]
  simp

/-- Behind the greatest `int` a wrapping counter starts again: the loop has no end. -/
theorem run_wrapping_eq_none (hstate : P state) : run wrapping body Int32.maxValue rounds counter state = none := by
  induction rounds generalizing counter state with
  | zero => rfl
  | succ rounds ih =>
      obtain ⟨state', hround, hkept⟩ := hbody state counter.toInt hstate
      have hnext : wrapping counter = some (counter + 1) := rfl
      rw [run_next (le_maxValue counter) hround hnext, ih hkept, Option.map_none]

end

end

end CountedLoop
