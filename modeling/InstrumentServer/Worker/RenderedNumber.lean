import InstrumentServer.Lib.NumericText
import InstrumentServer.Worker.VisaPlugin

/-!
# Numbers in commands

A double parameter is written with `%lf` into an array of 128 bytes: six digits behind the point whatever the size of the number, and at most 127 characters. So a small number loses its digits, down to a zero, and a number of 128 digits loses its last ones, which makes it ten times smaller. `renderedNumber_iff` says which doubles a command names up to one part in a million.
-/

namespace InstrumentServer

open ByteString

namespace VisaPlugin

/-- The text denotes the number up to one part in a million. -/
def KeepsMagnitude (text : ByteString) (value : ℚ) : Prop :=
  ∃ shown, Denotes text shown ∧ |shown - value| ≤ |value| / 10 ^ 6

/-- Some number with six decimal places is that near, and the digits before the point and a minus fit into 127 characters. -/
def FitsFormat (x : Double) : Prop :=
  (∃ k : ℤ, |k / 10 ^ 6 - x.toRat| ≤ |x.toRat| / 10 ^ 6) ∧ |x.toRat| < 10 ^ (if x.isNegative then 126 else 127)

/-! ### The digits that are written -/

/-- The sign of a number as a factor. -/
def signFactor (negative : Bool) : ℚ := if negative then -1 else 1

theorem toRat_eq_signFactor (x : Double) : x.toRat = signFactor x.isNegative * x.magnitude := by
  rw [Double.toRat, signFactor]
  split <;> ring

theorem abs_signFactor_mul (negative : Bool) (a : ℚ) : |signFactor negative * a| = |a| := by
  cases negative <;> simp [signFactor]

theorem abs_signFactor_sub (negative : Bool) (a b : ℚ) : |signFactor negative * a - signFactor negative * b| = |a - b| := by
  rw [← mul_sub, abs_signFactor_mul]

theorem significand_lt (x : Double) : x.significand < 2 ^ 53 := by
  have hfraction : x.fraction < 2 ^ 52 := (x.bits.extractLsb' 0 52).isLt
  rw [Double.significand]
  split <;> omega

/-- `%lf` writes the nearest number of millionths, and an integer as it is. -/
theorem doubleText_eq {x : Double} (hfinite : x.isFinite = true) :
    ∃ n : Nat, doubleText x = fixedText x.isNegative n ∧ |(n : ℚ) - x.magnitude * 10 ^ 6| ≤ 1 / 2 ∧
      (2 ^ 53 ≤ x.magnitude → ∃ m : Nat, n = m * 10 ^ 6 ∧ x.magnitude = m) := by
  have hexponent : x.exponent ≠ 2047 := by simpa [Double.isFinite] using hfinite
  have hsignificand : (if x.exponent = 0 then x.fraction else 2 ^ 52 + x.fraction) = x.significand := rfl
  rw [doubleText, floatText, if_neg hexponent, hsignificand, binaryText]
  generalize hpower : ((max x.exponent 1 : Nat) : Int) - ((2047 / 2 + 52 : Nat) : Int) = power
  have hmagnitude : x.magnitude = x.significand * (2 : ℚ) ^ power := by
    rw [Double.magnitude, ← hpower]
    rfl
  split
  · rename_i hnonneg
    obtain ⟨k, rfl⟩ := Int.eq_ofNat_of_zero_le hnonneg
    have hinteger : x.magnitude = (x.significand * 2 ^ k : Nat) := by
      rw [hmagnitude]
      push_cast
      rfl
    refine ⟨_, rfl, ?_, fun _ => ⟨x.significand * 2 ^ k, rfl, hinteger⟩⟩
    have hexact : ((x.significand * 2 ^ k * 10 ^ 6 : Nat) : ℚ) = (x.significand * 2 ^ k : Nat) * 10 ^ 6 := by
      rw [Nat.cast_mul, Nat.cast_pow]
      rfl
    rw [hinteger, Int.toNat_natCast, hexact, sub_self, abs_zero]
    norm_num
  · rename_i hneg
    obtain ⟨k, hk⟩ := Int.eq_ofNat_of_zero_le (show 0 ≤ -power by omega)
    have hpow : (2 : ℚ) ^ power = 1 / 2 ^ k := by
      rw [show power = -(k : Int) by omega, zpow_neg, zpow_natCast, one_div]
    refine ⟨_, rfl, ?_, fun hlarge => ?_⟩
    · have hround := Rounding.abs_quotient_sub_le (x.significand * 10 ^ 6) (Nat.two_pow_pos k)
      rw [hk, Int.toNat_natCast, hmagnitude, hpow]
      push_cast at hround
      have hsame : (x.significand : ℚ) * (1 / 2 ^ k) * 10 ^ 6 = x.significand * 10 ^ 6 / 2 ^ k := by ring
      rw [hsame]
      exact hround
    · exfalso
      have hsmall : x.magnitude ≤ x.significand := by
        rw [hmagnitude, hpow]
        have hone : (1 : ℚ) / 2 ^ k ≤ 1 := by
          rw [div_le_one (by positivity)]
          exact one_le_pow₀ (by norm_num)
        nlinarith [Nat.cast_nonneg (α := ℚ) x.significand]
      have hlt : (x.significand : ℚ) < 2 ^ 53 := by exact_mod_cast significand_lt x
      linarith

/-- The six digits behind the point. -/
def fractionDigits (millionths : Nat) : ByteString :=
  List.replicate (6 - (decimal (millionths % 10 ^ 6)).length) 48 ++ decimal (millionths % 10 ^ 6)

theorem isDigit_of_mem_fractionDigits {millionths : Nat} {b : UInt8} (hb : b ∈ fractionDigits millionths) :
    isDigit b = true := by
  rcases List.mem_append.mp hb with hzero | hdigit
  · rw [List.eq_of_mem_replicate hzero]
    decide
  · exact isDigit_of_mem_decimal hdigit

theorem length_fractionDigits (millionths : Nat) : (fractionDigits millionths).length = 6 := by
  have hle : (decimal (millionths % 10 ^ 6)).length ≤ 6 :=
    (length_decimal_le_iff (by decide)).mpr (Nat.mod_lt _ (by decide))
  rw [fractionDigits, List.length_append, List.length_replicate]
  omega

theorem ofDecimal_fractionDigits (millionths : Nat) : ofDecimal (fractionDigits millionths) = millionths % 10 ^ 6 := by
  rw [fractionDigits, ofDecimal_append, ofDecimal_zeros, ofDecimal_decimal, Nat.zero_mul, Nat.zero_add]

theorem fractionDigits_integer (m : Nat) : fractionDigits (m * 10 ^ 6) = List.replicate 6 48 := by
  rw [fractionDigits, Nat.mul_mod_left]
  decide

/-- A minus, for a negative number. -/
def signText (negative : Bool) : ByteString := if negative then [45] else []

theorem length_signText (negative : Bool) : (signText negative).length = if negative then 1 else 0 := by
  cases negative <;> rfl

theorem fixedText_eq (negative : Bool) (millionths : Nat) :
    fixedText negative millionths =
      signText negative ++ (decimal (millionths / 10 ^ 6) ++ 46 :: fractionDigits millionths) := by
  have hminus : (if negative then bytes "-" else []) = signText negative := by
    cases negative <;> decide
  have hpoint : bytes "." = [46] := by decide
  rw [fixedText, hminus, hpoint, fractionDigits]
  simp only [List.append_assoc, List.cons_append, List.nil_append]

/-- A text that is not cut denotes its number of millionths. -/
theorem denotes_fixedText (negative : Bool) (millionths : Nat) :
    Denotes (fixedText negative millionths) (signFactor negative * (millionths / 10 ^ 6)) := by
  have hdenotes := @denotes_point negative _ _ (fractionDigits millionths) rfl (decimal_ne_nil (millionths / 10 ^ 6))
    (fun _ hb => isDigit_of_mem_decimal hb) (fun _ hb => isDigit_of_mem_fractionDigits hb)
  rw [ofDecimal_append, ofDecimal_decimal, ofDecimal_fractionDigits, length_fractionDigits, Nat.div_add_mod'] at hdenotes
  rw [fixedText_eq]
  exact hdenotes

/-- The text of an integer, cut behind all of its digits. -/
theorem denotes_take_of_fits {negative : Bool} {m size : Nat} (hfits : (signText negative ++ decimal m).length ≤ size) :
    Denotes ((fixedText negative (m * 10 ^ 6)).take size) (signFactor negative * m) := by
  rw [fixedText_eq, Nat.mul_div_cancel _ (by decide), fractionDigits_integer, ← List.append_assoc, List.take_append,
    List.take_of_length_le hfits]
  cases size - (signText negative ++ decimal m).length with
  | zero =>
      have hdenotes := @denotes_integer negative _ _ rfl (decimal_ne_nil m) fun _ hb => isDigit_of_mem_decimal hb
      rw [ofDecimal_decimal] at hdenotes
      rw [List.take_zero, List.append_nil]
      exact hdenotes
  | succ room =>
      have hzero : ∀ b ∈ List.replicate (min room 6) (48 : UInt8), isDigit b = true := by
        intro b hb
        rw [List.eq_of_mem_replicate hb]
        decide
      have hdenotes := @denotes_point negative _ _ _ rfl (decimal_ne_nil m) (fun _ hb => isDigit_of_mem_decimal hb) hzero
      rw [ofDecimal_append, ofDecimal_decimal, ofDecimal_zeros, List.length_replicate] at hdenotes
      have hvalue : ((m * 10 ^ min room 6 + 0 : Nat) : ℚ) / 10 ^ min room 6 = m := by
        push_cast
        field_simp
        ring
      rw [hvalue] at hdenotes
      rw [List.take_succ_cons, List.take_replicate, List.append_assoc]
      exact hdenotes

/-- The text of an integer, cut among its digits. -/
theorem denotes_take_of_cut {negative : Bool} {m size : Nat} (hsize : (signText negative).length < size)
    (hcut : size < (signText negative ++ decimal m).length) :
    ∃ t : Nat, Denotes ((fixedText negative (m * 10 ^ 6)).take size) (signFactor negative * t) ∧ t * 10 ≤ m := by
  rw [List.length_append] at hcut
  generalize hkept : (decimal m).take (size - (signText negative).length) = kept
  have hdigit : ∀ b ∈ kept, isDigit b = true := by
    intro b hb
    rw [← hkept] at hb
    exact isDigit_of_mem_decimal (List.mem_of_mem_take hb)
  have hne : kept ≠ [] := by
    rw [← hkept, ← List.length_pos_iff, List.length_take]
    omega
  have htext : (fixedText negative (m * 10 ^ 6)).take size = signText negative ++ kept := by
    rw [fixedText_eq, Nat.mul_div_cancel _ (by decide), List.take_append, List.take_of_length_le hsize.le, List.take_append,
      hkept, show size - (signText negative).length - (decimal m).length = 0 by omega, List.take_zero, List.append_nil]
  refine ⟨ofDecimal kept, ?_, ?_⟩
  · rw [htext]
    exact denotes_integer rfl hne hdigit
  · have hsplit := ofDecimal_append kept ((decimal m).drop (size - (signText negative).length))
    rw [← hkept, List.take_append_drop, ofDecimal_decimal, hkept, List.length_drop] at hsplit
    have hten : 10 ≤ 10 ^ ((decimal m).length - (size - (signText negative).length)) :=
      Nat.le_self_pow (by omega) 10
    calc ofDecimal kept * 10 ≤ ofDecimal kept * 10 ^ ((decimal m).length - (size - (signText negative).length)) :=
          Nat.mul_le_mul_left _ hten
      _ ≤ m := by omega

/-! ### The condition -/

theorem keepsMagnitude_iff {text : ByteString} {shown value : ℚ} (hdenotes : Denotes text shown) :
    KeepsMagnitude text value ↔ |shown - value| ≤ |value| / 10 ^ 6 := by
  constructor
  · rintro ⟨other, hother, hnear⟩
    rwa [hdenotes.unique hother]
  · exact fun hnear => ⟨shown, hdenotes, hnear⟩

theorem abs_div_sub_le_iff (a y : ℚ) : |a / 10 ^ 6 - y| ≤ y / 10 ^ 6 ↔ |a - y * 10 ^ 6| ≤ y := by
  have hmillion : (0 : ℚ) < 10 ^ 6 := by norm_num
  have heq : a / 10 ^ 6 - y = (a - y * 10 ^ 6) / 10 ^ 6 := by ring
  rw [heq, abs_div, abs_of_pos hmillion, div_le_div_iff_of_pos_right hmillion]

/-- A number of millionths that is near enough, without the sign. -/
theorem exists_millionths_iff (x : Double) :
    (∃ k : ℤ, |k / 10 ^ 6 - x.toRat| ≤ |x.toRat| / 10 ^ 6) ↔ ∃ k : ℤ, |k - x.magnitude * 10 ^ 6| ≤ x.magnitude := by
  rw [x.abs_toRat, toRat_eq_signFactor]
  simp only [← abs_div_sub_le_iff]
  cases x.isNegative with
  | false => simp [signFactor]
  | true =>
      have hflip : ∀ k : ℤ, |(k : ℚ) / 10 ^ 6 - signFactor true * x.magnitude| = |((-k : ℤ) : ℚ) / 10 ^ 6 - x.magnitude| := by
        intro k
        rw [← abs_neg, signFactor, if_pos rfl]
        push_cast
        ring_nf
      simp only [hflip]
      constructor
      · rintro ⟨k, hk⟩
        exact ⟨-k, hk⟩
      · rintro ⟨k, hk⟩
        exact ⟨-k, by rwa [neg_neg]⟩

theorem fits_iff_lt (negative : Bool) (m : Nat) :
    (signText negative ++ decimal m).length ≤ 127 ↔ (m : ℚ) < 10 ^ (if negative then 126 else 127) := by
  rw [List.length_append, length_signText]
  cases negative with
  | true =>
      have hlength : (decimal m).length ≤ 126 ↔ m < 10 ^ 126 := length_decimal_le_iff (by decide)
      rw [if_pos rfl, if_pos rfl]
      exact_mod_cast (show 1 + (decimal m).length ≤ 127 ↔ (decimal m).length ≤ 126 by omega).trans hlength
  | false =>
      have hlength : (decimal m).length ≤ 127 ↔ m < 10 ^ 127 := length_decimal_le_iff (by decide)
      rw [if_neg Bool.false_ne_true, if_neg Bool.false_ne_true, Nat.zero_add]
      exact_mod_cast hlength

/-- An integer is written as it is, up to the cut. -/
theorem keepsMagnitude_integer_iff {x : Double} {m : Nat} (hm : x.magnitude = m) (hpos : 0 < m) :
    KeepsMagnitude ((fixedText x.isNegative (m * 10 ^ 6)).take 127) x.toRat ↔ FitsFormat x := by
  have habs : |x.toRat| = m := by rw [x.abs_toRat, hm]
  have hvalue : x.toRat = signFactor x.isNegative * m := by rw [toRat_eq_signFactor, hm]
  have hmillionths : ∃ k : ℤ, |(k : ℚ) / 10 ^ 6 - x.toRat| ≤ |x.toRat| / 10 ^ 6 := by
    rw [exists_millionths_iff, hm]
    refine ⟨m * 10 ^ 6, ?_⟩
    rw [Int.cast_mul, Int.cast_pow, Int.cast_natCast, Int.cast_ofNat, sub_self, abs_zero]
    positivity
  rw [FitsFormat, and_iff_right hmillionths, habs, ← fits_iff_lt]
  by_cases hfits : (signText x.isNegative ++ decimal m).length ≤ 127
  · refine iff_of_true ((keepsMagnitude_iff (denotes_take_of_fits hfits)).mpr ?_) hfits
    rw [hvalue, sub_self, abs_zero]
    positivity
  · obtain ⟨t, hdenotes, hless⟩ := denotes_take_of_cut (by rw [length_signText]; split <;> decide) (not_le.mp hfits)
    refine iff_of_false (fun hkeeps => ?_) hfits
    have hnear := (keepsMagnitude_iff hdenotes).mp hkeeps
    rw [habs, hvalue, abs_signFactor_sub] at hnear
    have hlessq : (t : ℚ) * 10 ≤ m := by exact_mod_cast hless
    have hposq : (0 : ℚ) < m := by exact_mod_cast hpos
    have hapart := (abs_le.mp hnear).1
    linarith

/-- A number below 2^53 is written with all of its millionths. -/
theorem keepsMagnitude_small_iff {x : Double} {n : Nat} (hsmall : x.magnitude < 2 ^ 53)
    (hround : |(n : ℚ) - x.magnitude * 10 ^ 6| ≤ 1 / 2) :
    KeepsMagnitude ((fixedText x.isNegative n).take 127) x.toRat ↔ FitsFormat x := by
  have hn : n / 10 ^ 6 < 10 ^ 17 := by
    have hle : (n : ℚ) ≤ 2 ^ 53 * 10 ^ 6 + 1 / 2 := by
      have := (abs_le.mp hround).2
      linarith
    have hlt : (n : ℚ) < 10 ^ 17 * 10 ^ 6 := by
      have : (2 : ℚ) ^ 53 * 10 ^ 6 + 1 / 2 < 10 ^ 17 * 10 ^ 6 := by norm_num
      linarith
    rw [Nat.div_lt_iff_lt_mul (by decide)]
    exact_mod_cast hlt
  have hlength : (fixedText x.isNegative n).length ≤ 127 := by
    have hdigits := (length_decimal_le_iff (by decide : 0 < 17)).mpr hn
    rw [fixedText_eq, List.length_append, List.length_append, List.length_cons, length_fractionDigits, length_signText]
    split <;> omega
  have hrange : |x.toRat| < 10 ^ (if x.isNegative then 126 else 127) := by
    have hlarge : (2 : ℚ) ^ 53 < 10 ^ (if x.isNegative then 126 else 127) := by
      split <;> norm_num
    rw [x.abs_toRat]
    linarith
  rw [List.take_of_length_le hlength, keepsMagnitude_iff (denotes_fixedText _ _), FitsFormat, and_iff_left hrange,
    exists_millionths_iff, x.abs_toRat, toRat_eq_signFactor, abs_signFactor_sub, abs_div_sub_le_iff]
  constructor
  · exact fun hnear => ⟨n, hnear⟩
  · rintro ⟨k, hnear⟩
    exact (Rounding.abs_sub_le_of_half (m := n) hround k).trans hnear

/-- A finite double parameter keeps its magnitude exactly if it fits the format. -/
theorem keepsMagnitude_valueText_iff {x : Double} (hfinite : x.isFinite = true) :
    KeepsMagnitude (valueText (.double x)) x.toRat ↔ FitsFormat x := by
  obtain ⟨n, htext, hround, hlarge⟩ := doubleText_eq hfinite
  rw [valueText, htext]
  by_cases hbig : 2 ^ 53 ≤ x.magnitude
  · obtain ⟨m, rfl, hm⟩ := hlarge hbig
    have hpos : 0 < m := by
      have : (0 : ℚ) < m := by
        rw [← hm]
        linarith
      exact_mod_cast this
    exact keepsMagnitude_integer_iff hm hpos
  · exact keepsMagnitude_small_iff (not_le.mp hbig) hround

/-- The text in place of a placeholder keeps the magnitude of a finite double parameter exactly if the number fits the format. -/
theorem renderedNumber_iff {params : List PluginParam} {name : ByteString} {param : PluginParam} {x : Double}
    (hnamed : params.find? (fun param => param.name.text = name) = some param) (hvalue : param.value = .double x)
    (hfinite : x.isFinite = true) : KeepsMagnitude (placeholderText params name) x.toRat ↔ FitsFormat x := by
  rw [placeholderText, hnamed]
  dsimp only
  rw [hvalue]
  exact keepsMagnitude_valueText_iff hfinite

/-- A parameter named `value`. -/
def valueParam (x : Double) : PluginParam := ⟨.copy _ pluginMaxStringLen_pos (bytes "value"), .double x⟩

theorem renderedNumber_iff_one :
    FitsFormat Double.one ∧ KeepsMagnitude (placeholderText [valueParam Double.one] (bytes "value")) Double.one.toRat := by
  have hfits : FitsFormat Double.one := ⟨⟨10 ^ 6, by decide +kernel⟩, by decide +kernel⟩
  have hkeeps := renderedNumber_iff (by rfl : [valueParam Double.one].find? (fun param => param.name.text = bytes "value") =
    some (valueParam Double.one)) rfl (by decide)
  exact ⟨hfits, hkeeps.mpr hfits⟩

/-- 10^-7 -/
def tenthMicrovolt : Double := ⟨0x3E7AD7F29ABCAF48⟩

/-- Its text is a zero. -/
theorem renderedNumber_tenthMicrovolt :
    tenthMicrovolt.isFinite = true ∧ tenthMicrovolt.toRat ≠ 0 ∧
      placeholderText [valueParam tenthMicrovolt] (bytes "value") = bytes "0.000000" ∧
      ¬ KeepsMagnitude (placeholderText [valueParam tenthMicrovolt] (bytes "value")) tenthMicrovolt.toRat := by
  have htext : placeholderText [valueParam tenthMicrovolt] (bytes "value") = bytes "0.000000" := by
    decide +kernel
  have hzero : Denotes (bytes "0.000000") 0 :=
    ⟨.decimal false 0 (-6), by decide +kernel, by decide +kernel⟩
  refine ⟨by decide, by decide +kernel, htext, ?_⟩
  rw [htext, keepsMagnitude_iff hzero]
  decide +kernel

end VisaPlugin

end InstrumentServer
