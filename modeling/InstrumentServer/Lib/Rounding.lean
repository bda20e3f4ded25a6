import InstrumentServer.Lib.Double
import Mathlib.Algebra.Order.Field.Rat
import Mathlib.Algebra.Order.Field.Power
import Mathlib.Data.Rat.Cast.Order
import Mathlib.Tactic.FieldSimp
import Mathlib.Tactic.Linarith
import Mathlib.Tactic.NormNum
import Mathlib.Tactic.Positivity
import Mathlib.Tactic.Ring

/-!
# Exact values and rounding

The rational number a finite `double` stands for, a quotient rounded to the nearest number, and with it the bits of the binary number nearest to a quotient, for a format with `width` bits of fraction and the largest exponent `top`. A number within one half of a quotient is as near to it as any other: `abs_sub_le_of_half`.
-/

namespace Rounding

/-- A quotient rounded to the nearest number, ties to even. -/
def quotient (n d : Nat) : Nat :=
  let remainder := n % d
  if d < 2 * remainder ∨ 2 * remainder = d ∧ n / d % 2 = 1 then n / d + 1 else n / d

theorem abs_quotient_sub_le (n : Nat) {d : Nat} (hd : 0 < d) : |(quotient n d : ℚ) - n / d| ≤ 1 / 2 := by
  have hdq : (0 : ℚ) < d := Nat.cast_pos.mpr hd
  have hn : (n : ℚ) = d * (n / d : Nat) + (n % d : Nat) := by exact_mod_cast (Nat.div_add_mod n d).symm
  have hlt : ((n % d : Nat) : ℚ) < d := by exact_mod_cast Nat.mod_lt n hd
  have hscale : ∀ m : ℚ, |m * d - n| ≤ d / 2 → |m - n / d| ≤ 1 / 2 := by
    intro m hm
    have heq : m - n / d = (m * d - n) / d := by field_simp
    rw [heq, abs_div, abs_of_pos hdq, div_le_iff₀ hdq]
    linarith
  apply hscale
  rw [quotient]
  split
  · rename_i hup
    have hhalf : (d : ℚ) ≤ 2 * (n % d : Nat) := by
      rcases hup with h | ⟨h, -⟩
      · exact_mod_cast h.le
      · exact_mod_cast h.symm.le
    rw [hn]
    push_cast
    rw [abs_le]
    constructor <;> nlinarith
  · rename_i hdown
    have hhalf : 2 * ((n % d : Nat) : ℚ) ≤ d := by
      have h : 2 * (n % d) ≤ d := by omega
      exact_mod_cast h
    have hnonneg : (0 : ℚ) ≤ (n % d : Nat) := Nat.cast_nonneg _
    rw [hn, abs_le]
    constructor <;> nlinarith

/-- No integer is nearer than one within one half. -/
theorem abs_sub_le_of_half {x : ℚ} {m : ℤ} (hhalf : |(m : ℚ) - x| ≤ 1 / 2) (k : ℤ) : |(m : ℚ) - x| ≤ |(k : ℚ) - x| := by
  rcases eq_or_ne k m with rfl | hne
  · exact le_rfl
  · have hapart : (1 : ℚ) ≤ |(k : ℚ) - m| := by
      exact_mod_cast Int.one_le_abs (sub_ne_zero.mpr hne)
    have htriangle : |(k : ℚ) - m| ≤ |(k : ℚ) - x| + |(m : ℚ) - x| := by
      rw [abs_sub_comm (m : ℚ) x]
      exact abs_sub_le _ _ _
    linarith

/-- The bits without the sign of the binary number nearest to `n / d`, ties to even. A carry out of the significand moves into the exponent, up to infinity. -/
def toBits (width top n d : Nat) : Nat :=
  if n = 0 then 0
  else
    -- the power of two just below the quotient, but not below the least normal number
    let guess : Int := Nat.log2 n - Nat.log2 d
    let below := n * 2 ^ (-guess).toNat < d * 2 ^ guess.toNat
    let least : Int := 1 - (top / 2 : Nat)
    let exponent := max least (if below then guess - 1 else guess)
    let unit : Int := exponent - width
    let significand := quotient (n * 2 ^ (-unit).toNat) (d * 2 ^ unit.toNat)
    min (top * 2 ^ width) ((exponent - least).toNat * 2 ^ width + significand)

end Rounding

namespace Double

def significand (d : Double) : Nat := if d.exponent = 0 then d.fraction else 2 ^ 52 + d.fraction

/-- The value without the sign. -/
def magnitude (d : Double) : ℚ := d.significand * (2 : ℚ) ^ ((max d.exponent 1 : Nat) - 1075 : Int)

/-- The number a finite double stands for. -/
def toRat (d : Double) : ℚ := if d.isNegative then -d.magnitude else d.magnitude

theorem magnitude_nonneg (d : Double) : 0 ≤ d.magnitude := by
  rw [magnitude]
  positivity

theorem abs_toRat (d : Double) : |d.toRat| = d.magnitude := by
  rw [toRat]
  split
  · rw [abs_neg, abs_of_nonneg d.magnitude_nonneg]
  · exact abs_of_nonneg d.magnitude_nonneg

/-- The double nearest to `n / d`. -/
def ofQuotient (negative : Bool) (n d : Nat) : Double :=
  ⟨BitVec.ofNat 64 ((if negative then 2 ^ 63 else 0) + Rounding.toBits 52 2047 n d)⟩

example : one.toRat = 1 := by decide +kernel

example : ofQuotient false 1 1 = one := by decide

/-- One tenth is rounded up. -/
example : ofQuotient false 1 10 = ⟨0x3FB999999999999A⟩ := by decide

/-- The least positive double is 2^-1074. -/
example : ofQuotient true 1 (2 ^ 1074) = ⟨0x8000000000000001⟩ := by decide +kernel

end Double
