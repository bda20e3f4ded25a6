import Mathlib.Algebra.Group.Nat.Defs
import Mathlib.Data.Nat.Log

/-!
# Double-precision numbers

A `double` is its 64 bits: nothing here computes with doubles, they are carried, compared bit by bit, and asked whether they are finite. The conversions are the ones a C++ `static_cast` performs: between a `double` and an integer, rounding to nearest with ties to even one way and truncation towards zero the other, and from a `float`, which is exact.
-/

structure Double where
  bits : BitVec 64
deriving DecidableEq

namespace Double

/-- The biased exponent. -/
def exponent (d : Double) : Nat := (d.bits.extractLsb' 52 11).toNat

/-- The stored part of the significand. -/
def fraction (d : Double) : Nat := (d.bits.extractLsb' 0 52).toNat

def isNegative (d : Double) : Bool := d.bits.getLsbD 63

/-- Neither an infinity nor a NaN. -/
def isFinite (d : Double) : Bool := d.exponent != 2047

/-- `d < 0`, which holds of neither a zero nor a NaN. -/
def isBelowZero (d : Double) : Bool :=
  d.isNegative && !(d.exponent == 0 && d.fraction == 0) && !(d.exponent == 2047 && d.fraction != 0)

/-- The bits of the double nearest to a natural number, ties to even. A carry out of the significand moves into the exponent. -/
def magnitudeBits (n : Nat) : Nat :=
  if n = 0 then 0
  else
    let e := Nat.log2 n
    if e ≤ 52 then (e + 1023) * 2 ^ 52 + (n * 2 ^ (52 - e) - 2 ^ 52)
    else
      let shift := e - 52
      let quotient := n / 2 ^ shift
      let remainder := n % 2 ^ shift
      let half := 2 ^ (shift - 1)
      let rounded := if half < remainder ∨ remainder = half ∧ quotient % 2 = 1 then quotient + 1 else quotient
      (e + 1023) * 2 ^ 52 + (rounded - 2 ^ 52)

def ofInt (i : Int) : Double :=
  ⟨BitVec.ofNat 64 ((if i < 0 then 2 ^ 63 else 0) + magnitudeBits i.natAbs)⟩

/-- The same with a sign of its own, which zero has too. -/
def ofSignedNat (negative : Bool) (n : Nat) : Double :=
  ⟨BitVec.ofNat 64 ((if negative then 2 ^ 63 else 0) + magnitudeBits n)⟩

/-- Truncation towards zero; the value of an infinity or a NaN is unspecified. -/
def toInt (d : Double) : Int :=
  let significand := 2 ^ 52 + d.fraction
  let magnitude : Nat :=
    if d.exponent = 0 ∨ d.exponent = 2047 then 0
    else if 1075 ≤ d.exponent then significand * 2 ^ (d.exponent - 1075)
    else significand / 2 ^ (1075 - d.exponent)
  if d.isNegative then -(magnitude : Int) else magnitude

/-- The double with the value of the `float` with these bits. -/
def ofFloat (bits : UInt32) : Double :=
  let exponent := bits.toNat / 2 ^ 23 % 2 ^ 8
  let fraction := bits.toNat % 2 ^ 23
  let magnitude :=
    if exponent = 255 then 2047 * 2 ^ 52 + fraction * 2 ^ 29
    else if exponent ≠ 0 then (exponent + 896) * 2 ^ 52 + fraction * 2 ^ 29
    else if fraction = 0 then 0
    else (Nat.log2 fraction + 874) * 2 ^ 52 + (fraction * 2 ^ (52 - Nat.log2 fraction) - 2 ^ 52)
  ⟨BitVec.ofNat 64 (bits.toNat / 2 ^ 31 * 2 ^ 63 + magnitude)⟩

def one : Double := ⟨0x3FF0000000000000⟩

def notANumber : Double := ⟨0x7FF8000000000000⟩

example : ofInt 1 = one := by decide

example : (ofInt 9007199254740993).toInt = 9007199254740992 := by decide

example : (ofInt (-7)).toInt = -7 := by decide

example : ofFloat 0x3F800000 = one := by decide

/-- The least positive `float` is 2^-149. -/
example : ofFloat 1 = ⟨0x36A0000000000000⟩ := by decide

end Double
