import InstrumentServer.Lib.Lists
import Mathlib.Order.Lattice
import Mathlib.Data.List.Lex
import Mathlib.Data.List.Basic

/-!
# Byte strings

A `std::string` is any sequence of bytes, so that is what the model uses; text constants are written with `bytes`. Three things are needed of byte strings: their order, which is the order of the keys of a `std::map`, whether they are valid UTF-8, and the decimal text of a number, which determines the number.
-/

abbrev ByteString : Type := List UInt8

/-- The bytes of a text constant. -/
def bytes (text : String) : ByteString := text.toByteArray.data.toList

instance byteLinearOrder : LinearOrder UInt8 where
  le_refl a := UInt8.le_refl a
  le_trans a b c := UInt8.le_trans
  lt_iff_le_not_ge a b := by
    rw [UInt8.lt_iff_toNat_lt, UInt8.le_iff_toNat_le, UInt8.le_iff_toNat_le]
    omega
  le_antisymm a b := UInt8.le_antisymm
  le_total a b := UInt8.le_total a b
  toDecidableLE a b := inferInstance
  toDecidableLT a b := inferInstance

namespace ByteString

instance lawfulBEq : LawfulBEq ByteString := inferInstance

/-- The byte sequence is the UTF-8 encoding of some text. -/
def ValidUtf8 (b : ByteString) : Prop := (ByteArray.mk b.toArray).IsValidUTF8

instance (b : ByteString) : Decidable (ValidUtf8 b) :=
  inferInstanceAs (Decidable (ByteArray.mk b.toArray).IsValidUTF8)

theorem validUtf8_bytes (text : String) : ValidUtf8 (bytes text) := text.isValidUTF8

theorem ValidUtf8.append {a b : ByteString} (ha : ValidUtf8 a) (hb : ValidUtf8 b) : ValidUtf8 (a ++ b) := by
  have happend : ByteArray.mk (a ++ b).toArray = ByteArray.mk a.toArray ++ ByteArray.mk b.toArray := by
    ext1
    simp
  rw [ValidUtf8, happend]
  exact ByteArray.IsValidUTF8.append ha hb

theorem validUtf8_of_forall_mem {s : ByteString} (hs : ∀ b ∈ s, ValidUtf8 [b]) : ValidUtf8 s := by
  induction s with
  | nil => exact validUtf8_bytes ""
  | cons b s ih => exact (hs b List.mem_cons_self).append (ih fun c hc => hs c (List.mem_cons_of_mem b hc))

theorem validUtf8_replicate {b : UInt8} (hb : ValidUtf8 [b]) (n : Nat) : ValidUtf8 (List.replicate n b) :=
  validUtf8_of_forall_mem fun _ hc => List.eq_of_mem_replicate hc ▸ hb

/-- An ASCII character. -/
theorem validUtf8_ascii {b : UInt8} (hb : b < 128) : ValidUtf8 [b] := by
  have hascii : ∀ i < 128, ValidUtf8 [UInt8.ofNat i] := by decide +kernel
  have hvalid := hascii b.toNat (UInt8.lt_iff_toNat_lt.mp hb)
  rwa [UInt8.ofNat_toNat] at hvalid

/-! ### Decimal text -/

/-- The decimal digits of a number, as `std::to_string` writes them. -/
def decimal (n : Nat) : ByteString := (Nat.toDigits 10 n).map fun c => UInt8.ofNat c.toNat

/-- The decimal text of a signed number. -/
def decimalInt (n : Int) : ByteString :=
  if n < 0 then bytes "-" ++ decimal n.natAbs else decimal n.natAbs

def isDigit (b : UInt8) : Bool := 48 ≤ b && b ≤ 57

/-- The number a digit sequence denotes. -/
def ofDecimal (digits : ByteString) : Nat := digits.foldl (fun value b => 10 * value + (b.toNat - 48)) 0

private theorem byte_of_isDigit {c : Char} (hc : c.isDigit) :
    isDigit (UInt8.ofNat c.toNat) = true ∧ (UInt8.ofNat c.toNat).toNat - 48 = c.toNat - '0'.toNat := by
  have hlow : 48 ≤ c.toNat ∧ c.toNat ≤ 57 := by
    simp only [Char.isDigit, ge_iff_le, Bool.and_eq_true, decide_eq_true_eq] at hc
    exact ⟨hc.1, hc.2⟩
  have hval : (UInt8.ofNat c.toNat).toNat = c.toNat := by
    rw [UInt8.toNat_ofNat']
    omega
  refine ⟨?_, by rw [hval]; rfl⟩
  simp only [isDigit, Bool.and_eq_true, decide_eq_true_eq, UInt8.le_iff_toNat_le, hval]
  exact hlow

theorem isDigit_of_mem_decimal {n : Nat} {b : UInt8} (hb : b ∈ decimal n) : isDigit b = true := by
  obtain ⟨c, hc, rfl⟩ := List.mem_map.mp hb
  exact (byte_of_isDigit (Nat.isDigit_of_mem_toDigits (by decide) (by decide) hc)).1

theorem decimal_ne_nil (n : Nat) : decimal n ≠ [] := by
  simp [decimal, Nat.toDigits_ne_nil]

theorem validUtf8_digit {b : UInt8} (hb : isDigit b = true) : ValidUtf8 [b] := by
  have hrange : 48 ≤ b.toNat ∧ b.toNat ≤ 57 := by simpa [isDigit, UInt8.le_iff_toNat_le] using hb
  exact validUtf8_ascii (UInt8.lt_iff_toNat_lt.mpr (Nat.lt_of_le_of_lt hrange.2 (by decide)))

theorem validUtf8_decimal (n : Nat) : ValidUtf8 (decimal n) :=
  validUtf8_of_forall_mem fun _ hb => validUtf8_digit (isDigit_of_mem_decimal hb)

theorem ofDecimal_decimal (n : Nat) : ofDecimal (decimal n) = n := by
  have hfold : ∀ (cs : List Char) (start : Nat), (∀ c ∈ cs, c.isDigit) →
      (cs.map fun c => UInt8.ofNat c.toNat).foldl (fun value b => 10 * value + (b.toNat - 48)) start =
        Nat.ofDigitChars 10 cs start := by
    intro cs
    induction cs with
    | nil => intro start _; rfl
    | cons c cs ih =>
        intro start hdigit
        rw [List.map_cons, List.foldl_cons, (byte_of_isDigit (hdigit c (by simp))).2, Nat.ofDigitChars_cons]
        exact ih _ fun d hd => hdigit d (by simp [hd])
  rw [ofDecimal, decimal, hfold _ _ fun c hc => Nat.isDigit_of_mem_toDigits (by decide) (by decide) hc]
  exact Nat.ofDigitChars_ten_toDigits

theorem decimal_injective : Function.Injective decimal := fun m n h => by
  rw [← ofDecimal_decimal m, h, ofDecimal_decimal]

theorem isDigit_or_minus_of_mem_decimalInt {n : Int} {b : UInt8} (hb : b ∈ decimalInt n) :
    isDigit b = true ∨ b = 45 := by
  have hminus : bytes "-" = [45] := by decide
  rw [decimalInt, hminus] at hb
  split at hb
  · rcases List.mem_append.mp hb with hb | hb
    · exact Or.inr (List.mem_singleton.mp hb)
    · exact Or.inl (isDigit_of_mem_decimal hb)
  · exact Or.inl (isDigit_of_mem_decimal hb)

theorem decimalInt_injective : Function.Injective decimalInt := by
  have hminus : bytes "-" = [45] := by decide
  have hsign : ∀ m n, bytes "-" ++ decimal m ≠ decimal n := by
    intro m n heq
    have hmem : 45 ∈ decimal n := by
      rw [← heq, hminus]
      exact List.mem_cons_self
    exact absurd (isDigit_of_mem_decimal hmem) (by decide)
  intro m n heq
  rw [decimalInt, decimalInt] at heq
  split at heq
  · split at heq
    · have habs := decimal_injective (List.append_cancel_left heq)
      omega
    · exact absurd heq (hsign _ _)
  · split at heq
    · exact absurd heq.symm (hsign _ _)
    · have habs := decimal_injective heq
      omega

/-- A signed number at the beginning of a text can be read off it. -/
theorem eq_of_decimalInt_append {left right : ByteString} {separator : UInt8} {m n : Int}
    (hseparator : isDigit separator = false) (hminus : separator ≠ 45)
    (h : decimalInt m ++ separator :: left = decimalInt n ++ separator :: right) : m = n ∧ left = right := by
  have hnot : ∀ k, separator ∉ decimalInt k := by
    intro k hmem
    rcases isDigit_or_minus_of_mem_decimalInt hmem with hdigit | hsign
    · rw [hdigit] at hseparator
      contradiction
    · exact hminus hsign
  obtain ⟨hnumber, hrest⟩ := Lists.eq_of_separator_append h (hnot m) (hnot n)
  exact ⟨decimalInt_injective hnumber, hrest⟩

/-- A number at the end of a text can be read off it. -/
theorem eq_of_append_decimal {left right : ByteString} {separator : UInt8} {m n : Nat}
    (hseparator : isDigit separator = false) (h : left ++ separator :: decimal m = right ++ separator :: decimal n) :
    m = n := by
  have hnot : ∀ k, separator ∉ decimal k := by
    intro k hmem
    rw [isDigit_of_mem_decimal hmem] at hseparator
    contradiction
  exact decimal_injective (Lists.eq_of_append_separator h (hnot m) (hnot n))

end ByteString
