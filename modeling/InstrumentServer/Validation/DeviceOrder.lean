import InstrumentServer.Validation.QuantumDotDevice
import Mathlib.Data.List.Range

/-!
# The order of the gates of a group

An order describes a row of gates: an ohmic contact and a reservoir at either end, and between them barriers with a plunger between any two neighbours. The validator looks at fixed places from both ends, at the parity of the places between them, and at two counts.
-/

namespace InstrumentServer

inductive GateSymbol where
  | ohmic
  | reservoir
  | barrier
  | plunger
deriving DecidableEq

/-- The global list whose gates a symbol stands for. -/
def GateSymbol.key : GateSymbol → ByteString
  | .ohmic => bytes "Ohmics"
  | .reservoir => bytes "ReservoirGates"
  | .barrier => bytes "BarrierGates"
  | .plunger => bytes "PlungerGates"

/-- The layout of a device with `k` plungers. -/
def deviceLayout (k : Nat) : List GateSymbol :=
  [.ohmic, .reservoir, .barrier] ++ (List.replicate k [GateSymbol.plunger, .barrier]).flatten ++ [.reservoir, .ohmic]

/-- The order names a gate for every symbol of some layout. -/
def FollowsLayout (gates : GlobalGates) (order : List ByteString) : Prop :=
  ∃ k, List.Forall₂ (fun gate symbol => gate ∈ gates.of symbol.key) order (deviceLayout k)

/-! ### Layouts by place -/

/-- The symbol at place `i` between the ends. -/
def centerSymbol (i : Nat) : GateSymbol := if i % 2 = 0 then .barrier else .plunger

/-- The symbol at place `i` of a layout of length `n`. -/
def symbolAt (n i : Nat) : GateSymbol :=
  if i = 0 ∨ i + 1 = n then .ohmic else if i = 1 ∨ i + 2 = n then .reservoir else centerSymbol i

theorem map_centerSymbol (k : Nat) :
    (List.range' 2 (2 * k + 1)).map centerSymbol =
      .barrier :: (List.replicate k [GateSymbol.plunger, .barrier]).flatten := by
  induction k with
  | zero => rfl
  | succ k ih =>
      have hplunger : centerSymbol (2 * k + 3) = .plunger := if_neg (by omega)
      have hbarrier : centerSymbol (2 * k + 4) = .barrier := if_pos (by omega)
      have hrange : List.range' 2 (2 * (k + 1) + 1) = List.range' 2 (2 * k + 1) ++ [2 * k + 3, 2 * k + 4] := by
        rw [show 2 * (k + 1) + 1 = 2 * k + 1 + 2 by omega, ← List.range'_append_1]
        simp [List.range'_succ]
        omega
      rw [hrange, List.map_append, ih, List.replicate_succ', List.flatten_append]
      simp [hplunger, hbarrier]

/-- A layout is what its places say. -/
theorem deviceLayout_eq_map (k : Nat) : deviceLayout k = (List.range (2 * k + 5)).map (symbolAt (2 * k + 5)) := by
  have hrange : List.range (2 * k + 5) = [0, 1] ++ List.range' 2 (2 * k + 1) ++ [2 * k + 3, 2 * k + 4] := by
    rw [List.range_eq_range', show 2 * k + 5 = 2 + (2 * k + 1) + 2 by omega, ← List.range'_append_1,
      ← List.range'_append_1]
    simp [List.range'_succ]
    omega
  have hcenter : (List.range' 2 (2 * k + 1)).map (symbolAt (2 * k + 5)) = (List.range' 2 (2 * k + 1)).map centerSymbol := by
    refine List.map_congr_left fun i hi => ?_
    have hplace := List.mem_range'_1.mp hi
    rw [symbolAt, if_neg (by omega), if_neg (by omega)]
  have hfirst : symbolAt (2 * k + 5) 0 = .ohmic := if_pos (Or.inl rfl)
  have hsecond : symbolAt (2 * k + 5) 1 = .reservoir := by
    rw [symbolAt, if_neg (by omega), if_pos (Or.inl rfl)]
  have hnext : symbolAt (2 * k + 5) (2 * k + 3) = .reservoir := by
    rw [symbolAt, if_neg (by omega), if_pos (Or.inr rfl)]
  have hlast : symbolAt (2 * k + 5) (2 * k + 4) = .ohmic := if_pos (Or.inr rfl)
  rw [hrange, List.map_append, List.map_append, hcenter, map_centerSymbol, deviceLayout]
  simp [hfirst, hsecond, hnext, hlast]

theorem length_deviceLayout (k : Nat) : (deviceLayout k).length = 2 * k + 5 := by
  rw [deviceLayout_eq_map, List.length_map, List.length_range]

/-- An order follows a layout if its length is that of one and every place has a gate for its symbol. -/
theorem followsLayout_iff {gates : GlobalGates} {order : List ByteString} :
    FollowsLayout gates order ↔ (∃ k, order.length = 2 * k + 5) ∧
      ∀ i < order.length, order.getD i [] ∈ gates.of (symbolAt order.length i).key := by
  simp only [FollowsLayout, List.forall₂_iff_get]
  have hplaces : ∀ k, order.length = 2 * k + 5 →
      ((∀ i (h₁ : i < order.length) (h₂ : i < (deviceLayout k).length),
          order.get ⟨i, h₁⟩ ∈ gates.of ((deviceLayout k).get ⟨i, h₂⟩).key) ↔
        ∀ i < order.length, order.getD i [] ∈ gates.of (symbolAt order.length i).key) := by
    intro k hlength
    have hsymbol : ∀ i (h₂ : i < (deviceLayout k).length), (deviceLayout k).get ⟨i, h₂⟩ = symbolAt order.length i := by
      intro i h₂
      simp [deviceLayout_eq_map, hlength]
    refine forall_congr' fun i => forall_congr' fun h₁ => ?_
    have hlt : i < (deviceLayout k).length := by rw [length_deviceLayout, ← hlength]; exact h₁
    rw [List.getD_eq_getElem?_getD, List.getElem?_eq_getElem h₁, Option.getD_some, ← hsymbol i hlt]
    exact ⟨fun h => h hlt, fun h _ => h⟩
  constructor
  · rintro ⟨k, hlength, h⟩
    rw [length_deviceLayout] at hlength
    exact ⟨⟨k, hlength⟩, (hplaces k hlength).mp h⟩
  · rintro ⟨⟨k, hlength⟩, h⟩
    exact ⟨k, hlength.trans (length_deviceLayout k).symm, (hplaces k hlength).mpr h⟩

/-! ### The check -/

/-- The even places of the center are one more than the odd ones exactly if the number of places is odd. -/
theorem length_filter_centerPlaces (m : Nat) :
    ((List.range' 2 m).filter fun i => i % 2 = 0).length = (m + 1) / 2 ∧
      ((List.range' 2 m).filter fun i => ¬ i % 2 = 0).length = m / 2 := by
  induction m with
  | zero => exact ⟨rfl, rfl⟩
  | succ m ih =>
      obtain ⟨hbarriers, hplungers⟩ := ih
      rw [List.range'_1_concat, List.filter_append, List.filter_append, List.length_append, List.length_append, hbarriers,
        hplungers]
      rw [List.filter_singleton, List.filter_singleton]
      by_cases heven : (2 + m) % 2 = 0
      · rw [decide_eq_true heven, decide_eq_false (not_not_intro heven), cond_true, cond_false, List.length_singleton,
          List.length_nil]
        omega
      · rw [decide_eq_false heven, decide_eq_true heven, cond_true, cond_false, List.length_singleton, List.length_nil]
        omega

theorem accepts_validateCenter {gpath : List ByteString} {gates : GlobalGates} {order : List ByteString} {i : Nat} :
    (validateCenter gpath gates order i).Accepts () ↔ order.getD i [] ∈ gates.of (centerSymbol i).key := by
  rw [validateCenter, centerSymbol]
  split <;> exact accepts_requireGate

theorem accepts_validateOrder {gpath : List ByteString} {gates : GlobalGates} {text : ByteString} :
    (validateOrder gpath gates text).Accepts () ↔ FollowsLayout gates (splitSemicolon text) := by
  rw [validateOrder, followsLayout_iff]
  generalize splitSemicolon text = order
  dsimp only
  split
  · rename_i hshort
    refine iff_of_false accepts_addError ?_
    rintro ⟨⟨k, hlength⟩, -⟩
    omega
  · rename_i hlong
    obtain ⟨hbarriers, hplungers⟩ := length_filter_centerPlaces (order.length - 4)
    rw [← centerPlaces] at hbarriers hplungers
    simp only [Validator.accepts_then, accepts_requireGate, Validator.accepts_forEach, accepts_validateCenter, hbarriers,
      hplungers]
    constructor
    · rintro ⟨hfirst, hlast, hsecond, hnext, hcenter, hcount⟩
      split at hcount
      · exact absurd hcount accepts_addError
      · rename_i hodd
        refine ⟨⟨(order.length - 5) / 2, by omega⟩, fun i hi => ?_⟩
        rw [symbolAt]
        split
        · rename_i hend
          rcases hend with rfl | hend
          · exact hfirst
          · obtain rfl : i = order.length - 1 := by omega
            exact hlast
        · split
          · rename_i hend
            rcases hend with rfl | hend
            · exact hsecond
            · obtain rfl : i = order.length - 2 := by omega
              exact hnext
          · exact hcenter i (List.mem_range'_1.mpr (by omega))
    · rintro ⟨⟨k, hlength⟩, hplaces⟩
      refine ⟨?_, ?_, ?_, ?_, fun i hi => ?_, ?_⟩
      · have hplace := hplaces 0 (by omega)
        rwa [symbolAt, if_pos (Or.inl rfl)] at hplace
      · have hplace := hplaces (order.length - 1) (by omega)
        rwa [symbolAt, if_pos (by omega)] at hplace
      · have hplace := hplaces 1 (by omega)
        rwa [symbolAt, if_neg (by omega), if_pos (Or.inl rfl)] at hplace
      · have hplace := hplaces (order.length - 2) (by omega)
        rwa [symbolAt, if_neg (by omega), if_pos (by omega)] at hplace
      · have hrange := List.mem_range'_1.mp hi
        have hplace := hplaces i (by omega)
        rwa [symbolAt, if_neg (by omega), if_neg (by omega)] at hplace
      · rw [if_neg (by omega)]
        exact Validator.accepts_pure.mpr rfl

/-- A layout has an odd number of places, five or more. -/
theorem FollowsLayout.length {gates : GlobalGates} {order : List ByteString} (hfollows : FollowsLayout gates order) :
    order.length % 2 = 1 ∧ 5 ≤ order.length := by
  obtain ⟨⟨k, hlength⟩, -⟩ := followsLayout_iff.mp hfollows
  omega

theorem ends_requireGate (gpath gates : List ByteString) (gate msg : ByteString) : (requireGate gpath gates gate msg).Ends := by
  rw [requireGate]
  split
  · exact Validator.ends_pure ()
  · exact Validator.ends_report _

theorem ends_validateOrder (gpath : List ByteString) (gates : GlobalGates) (text : ByteString) :
    (validateOrder gpath gates text).Ends := by
  rw [validateOrder]
  dsimp only
  split
  · exact Validator.ends_report _
  · refine (ends_requireGate ..).bind fun _ => (ends_requireGate ..).bind fun _ => (ends_requireGate ..).bind fun _ =>
      (ends_requireGate ..).bind fun _ => (Validator.ends_forEach fun i => ?_).bind fun _ => ?_
    · rw [validateCenter]
      split <;> exact ends_requireGate ..
    · split
      · exact Validator.ends_report _
      · exact Validator.ends_pure ()

/-- No error is added for an order exactly if it follows the layout of a device. -/
theorem order_accepted_iff (gpath : List ByteString) (gates : GlobalGates) (text : ByteString) :
    ((validateOrder gpath gates text).reported = [] ↔ FollowsLayout gates (splitSemicolon text)) ∧
      (FollowsLayout gates (splitSemicolon text) →
        (splitSemicolon text).length % 2 = 1 ∧ 5 ≤ (splitSemicolon text).length) := by
  refine ⟨?_, FollowsLayout.length⟩
  rw [← (ends_validateOrder gpath gates text).accepts_iff]
  exact accepts_validateOrder

end InstrumentServer
