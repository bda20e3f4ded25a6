import InstrumentServer.Lib.Rounding
import InstrumentServer.Lib.Strings

/-!
# Numbers in texts

What `strtod` reads from the beginning of a text in the "C" locale: white space, a sign, and then digits with a point and an exponent, the same with hexadecimal digits behind `0x`, or a word for infinity or NaN. The longest such prefix counts, whatever follows it. A numeral stands for a rational number; `strtod` gives the double nearest to it, `strtof` the `float`, and `std::stod` throws when there is no numeral or its value is out of range.
-/

inductive Numeral where
  | infinity (negative : Bool)
  | nan (negative : Bool)
  /-- `significand * 10 ^ exponent` -/
  | decimal (negative : Bool) (significand : Nat) (exponent : Int)
  /-- `significand * 2 ^ exponent` -/
  | binary (negative : Bool) (significand : Nat) (exponent : Int)
deriving DecidableEq

namespace Numeral

/-- The number a numeral stands for. -/
def value? : Numeral → Option ℚ
  | .decimal negative significand exponent => some ((if negative then -1 else 1) * significand * (10 : ℚ) ^ exponent)
  | .binary negative significand exponent => some ((if negative then -1 else 1) * significand * (2 : ℚ) ^ exponent)
  | .infinity _ | .nan _ => none

/-- The double nearest to the number. -/
def toDouble : Numeral → Double
  | .infinity negative => ⟨BitVec.ofNat 64 ((if negative then 2 ^ 63 else 0) + 2047 * 2 ^ 52)⟩
  | .nan _ => Double.notANumber
  | .decimal negative significand exponent =>
      Double.ofQuotient negative (significand * 10 ^ exponent.toNat) (10 ^ (-exponent).toNat)
  | .binary negative significand exponent =>
      Double.ofQuotient negative (significand * 2 ^ exponent.toNat) (2 ^ (-exponent).toNat)

/-- The bits of the `float` nearest to the number. -/
def toFloat (numeral : Numeral) : UInt32 :=
  let signed (negative : Bool) (bits : Nat) := UInt32.ofNat ((if negative then 2 ^ 31 else 0) + bits)
  match numeral with
  | .infinity negative => signed negative (255 * 2 ^ 23)
  | .nan negative => signed negative (255 * 2 ^ 23 + 2 ^ 22)
  | .decimal negative significand exponent =>
      signed negative (Rounding.toBits 23 255 (significand * 10 ^ exponent.toNat) (10 ^ (-exponent).toNat))
  | .binary negative significand exponent =>
      signed negative (Rounding.toBits 23 255 (significand * 2 ^ exponent.toNat) (2 ^ (-exponent).toNat))

/-- The number is not too large for a double, nor too small: below the least normal double it has to be exact. -/
def inRange (numeral : Numeral) : Bool :=
  match numeral.value? with
  | none => true
  | some value =>
      numeral.toDouble.isFinite &&
        (decide ((2 : ℚ) ^ (-1022 : Int) ≤ |value|) || decide (numeral.toDouble.toRat = value))

end Numeral

namespace ByteString

/-! ### `strtod` -/

/-- Whether there is a minus, and what follows the sign. -/
def splitSign : ByteString → Bool × ByteString
  | 45 :: rest => (true, rest)
  | 43 :: rest => (false, rest)
  | text => (false, text)

def isHexDigit (b : UInt8) : Bool := isDigit b || 97 ≤ toLower b && toLower b ≤ 102

/-- The number a sequence of hexadecimal digits denotes. -/
def ofHexadecimal (digits : ByteString) : Nat :=
  digits.foldl (fun value b => 16 * value + (if isDigit b then b.toNat - 48 else (toLower b).toNat - 87)) 0

/-- Digits with at most one point among them: the digits, how many of them are behind the point, and the rest. -/
def splitDigits (digit : UInt8 → Bool) (text : ByteString) : Option (ByteString × Nat × ByteString) :=
  let whole := text.takeWhile digit
  let (fraction, rest) :=
    match text.dropWhile digit with
    | 46 :: rest => (rest.takeWhile digit, rest.dropWhile digit)
    | rest => ([], rest)
  if whole ++ fraction = [] then none else some (whole ++ fraction, fraction.length, rest)

/-- An exponent behind a letter, and the rest. Without digits there is none. -/
def splitExponent (letter : UInt8) (text : ByteString) : Int × ByteString :=
  match text with
  | [] => (0, text)
  | b :: rest =>
      let (negative, rest) := splitSign rest
      let digits := rest.takeWhile isDigit
      if toLower b = letter ∧ digits ≠ [] then
        (if negative then -(ofDecimal digits) else ofDecimal digits, rest.dropWhile isDigit)
      else (0, text)

def readDecimal (negative : Bool) (text : ByteString) : Option (Numeral × ByteString) :=
  match splitDigits isDigit text with
  | none => none
  | some (digits, scale, rest) =>
      let (exponent, rest) := splitExponent 101 rest
      some (.decimal negative (ofDecimal digits) (exponent - scale), rest)

def readHexadecimal (negative : Bool) (text : ByteString) : Option (Numeral × ByteString) :=
  if (text.take 2).map toLower = bytes "0x" then
    match splitDigits isHexDigit (text.drop 2) with
    | none => none
    | some (digits, scale, rest) =>
        let (exponent, rest) := splitExponent 112 rest
        some (.binary negative (ofHexadecimal digits) (exponent - 4 * scale), rest)
  else none

/-- What follows a word that is written in any case. -/
def dropWord (word text : ByteString) : Option ByteString :=
  if (text.take word.length).map toLower = word then some (text.drop word.length) else none

/-- What follows the letters, digits and underscores in parentheses behind `nan`. -/
def dropNanChars (text : ByteString) : ByteString :=
  let nanChar (b : UInt8) := isDigit b || 97 ≤ toLower b && toLower b ≤ 122 || b = 95
  match text with
  | 40 :: rest => match rest.dropWhile nanChar with
    | 41 :: rest => rest
    | _ => text
  | _ => text

def readNumeralWord (negative : Bool) (text : ByteString) : Option (Numeral × ByteString) :=
  match dropWord (bytes "infinity") text, dropWord (bytes "inf") text, dropWord (bytes "nan") text with
  | some rest, _, _ | none, some rest, _ => some (.infinity negative, rest)
  | none, none, some rest => some (.nan negative, dropNanChars rest)
  | none, none, none => none

/-- The numeral at the beginning of a text, and what `endptr` points to. -/
def strtod (text : ByteString) : Option (Numeral × ByteString) :=
  let (negative, rest) := splitSign (text.dropWhile isSpace)
  (readNumeralWord negative rest).or ((readHexadecimal negative rest).or (readDecimal negative rest))

/-- `strtof(text, NULL)` -/
def strtof (text : ByteString) : UInt32 :=
  match strtod text with
  | some (numeral, _) => numeral.toFloat
  | none => 0

def stod (text : ByteString) : Option Double :=
  match strtod text with
  | some (numeral, _) => if numeral.inRange then some numeral.toDouble else none
  | none => none

/-- `std::stoll`. -/
def stoll (text : ByteString) : Option Int64 :=
  let (negative, rest) := splitSign (text.dropWhile isSpace)
  let digits := rest.takeWhile isDigit
  if digits = [] then none
  else
    let value : Int := if negative then -(ofDecimal digits) else ofDecimal digits
    if -2 ^ 63 ≤ value ∧ value < 2 ^ 63 then some (Int64.ofInt value) else none

/-- A sign is one character. -/
theorem splitSign_cases {text rest : ByteString} {negative : Bool} (h : splitSign text = (negative, rest)) :
    ∃ sign, text = sign ++ rest ∧ ∀ b ∈ sign, b = 43 ∨ b = 45 := by
  rw [splitSign.eq_def] at h
  split at h <;> obtain ⟨-, rfl⟩ := Prod.mk.inj h
  · exact ⟨[45], rfl, by simp⟩
  · exact ⟨[43], rfl, by simp⟩
  · exact ⟨[], rfl, by simp⟩

/-! ### Digits -/

theorem ofDecimal_append (digits more : ByteString) :
    ofDecimal (digits ++ more) = ofDecimal digits * 10 ^ more.length + ofDecimal more := by
  induction more using List.reverseRecOn with
  | nil => simp [ofDecimal]
  | append_singleton more b ih =>
      have hpush : ∀ start, ofDecimal (start ++ [b]) = 10 * ofDecimal start + (b.toNat - 48) := by
        intro start
        rw [ofDecimal, List.foldl_append]
        rfl
      rw [← List.append_assoc, hpush, hpush, ih, List.length_append, List.length_singleton, pow_succ]
      ring

theorem ofDecimal_zeros (n : Nat) : ofDecimal (List.replicate n 48) = 0 := by
  induction n with
  | zero => rfl
  | succ n ih =>
      rw [List.replicate_succ', ofDecimal_append, ih]
      rfl

theorem length_decimal_le_iff {n k : Nat} (hk : 0 < k) : (decimal n).length ≤ k ↔ n < 10 ^ k := by
  rw [decimal, List.length_map, Nat.length_toDigits_le_iff (by decide) hk]

/-! ### Numerals in decimal digits -/

theorem toLower_of_isDigit {b : UInt8} (hdigit : isDigit b = true) : toLower b = b := by
  have hrange : 48 ≤ b.toNat ∧ b.toNat ≤ 57 := by simpa [isDigit, UInt8.le_iff_toNat_le] using hdigit
  have hletter : (65 ≤ b && b ≤ 90) = false := by
    have h65 : (65 : UInt8).toNat = 65 := rfl
    rw [Bool.and_eq_false_iff, decide_eq_false_iff_not, UInt8.le_iff_toNat_le, h65]
    exact Or.inl (by omega)
  rw [toLower, hletter, if_neg Bool.false_ne_true]

/-- No word begins with a digit. -/
theorem readNumeralWord_of_digit {d : UInt8} (hd : isDigit d = true) (negative : Bool) (rest : ByteString) :
    readNumeralWord negative (d :: rest) = none := by
  have hword : ∀ letter word, isDigit letter = false → dropWord (letter :: word) (d :: rest) = none := by
    intro letter word hletter
    rw [dropWord, if_neg]
    rw [List.length_cons, List.take_succ_cons, List.map_cons, toLower_of_isDigit hd]
    rintro heq
    rw [(List.cons.inj heq).1, hletter] at hd
    contradiction
  rw [readNumeralWord, show bytes "infinity" = 105 :: bytes "nfinity" by decide, show bytes "inf" = 105 :: bytes "nf" by decide,
    show bytes "nan" = 110 :: bytes "an" by decide, hword _ _ (by decide), hword _ _ (by decide), hword _ _ (by decide)]

/-- Digits with anything but an `x` behind them are no hexadecimal numeral. -/
theorem readHexadecimal_of_digits {digits rest : ByteString} (hne : digits ≠ []) (hdigit : ∀ b ∈ digits, isDigit b = true)
    (hrest : ∀ b ∈ rest.head?, toLower b ≠ 120) (negative : Bool) : readHexadecimal negative (digits ++ rest) = none := by
  have hx : isDigit 120 = false := by decide
  obtain ⟨d, ds, rfl⟩ := List.exists_cons_of_ne_nil hne
  rw [readHexadecimal, if_neg]
  rw [show bytes "0x" = [48, 120] by decide, List.cons_append, List.take_succ_cons, List.map_cons]
  intro heq
  obtain ⟨-, hsecond⟩ := List.cons.inj heq
  cases ds with
  | cons e ds =>
      obtain ⟨hlower, -⟩ := List.cons.inj hsecond
      have he := hdigit e (by simp)
      rw [toLower_of_isDigit he] at hlower
      rw [hlower, hx] at he
      contradiction
  | nil =>
      cases rest with
      | nil => simp at hsecond
      | cons b rest => exact hrest b (by simp) (List.cons.inj hsecond).1

/-- A sign, digits, and anything but an `x`: a decimal numeral. -/
theorem strtod_signed {negative : Bool} {sign digits rest : ByteString} (hsign : sign = if negative then [45] else [])
    (hne : digits ≠ []) (hdigit : ∀ b ∈ digits, isDigit b = true) (hrest : ∀ b ∈ rest.head?, toLower b ≠ 120) :
    strtod (sign ++ (digits ++ rest)) = readDecimal negative (digits ++ rest) := by
  obtain ⟨d, ds, rfl⟩ := List.exists_cons_of_ne_nil hne
  have hd := hdigit d List.mem_cons_self
  have hstart : splitSign ((sign ++ (d :: ds ++ rest)).dropWhile isSpace) = (negative, d :: ds ++ rest) := by
    cases negative with
    | true =>
        rw [hsign, if_pos rfl, List.singleton_append, List.dropWhile_cons_of_neg (by decide)]
        rfl
    | false =>
        have hspace : ¬ isSpace d = true := by simp [not_isSpace_of_isDigit hd]
        rw [hsign, if_neg Bool.false_ne_true, List.nil_append, List.cons_append, List.dropWhile_cons_of_neg hspace,
          splitSign.eq_def]
        split
        · rename_i heq
          rw [(List.cons.inj heq).1] at hd
          contradiction
        · rename_i heq
          rw [(List.cons.inj heq).1] at hd
          contradiction
        · rfl
  rw [strtod, hstart]
  dsimp only
  rw [readHexadecimal_of_digits hne hdigit hrest, List.cons_append, readNumeralWord_of_digit hd, Option.none_or, Option.none_or]

theorem readDecimal_integer {digits : ByteString} (hne : digits ≠ []) (hdigit : ∀ b ∈ digits, isDigit b = true)
    (negative : Bool) : readDecimal negative digits = some (.decimal negative (ofDecimal digits) 0, []) := by
  rw [readDecimal, splitDigits, List.takeWhile_eq_self_iff.mpr hdigit, List.dropWhile_eq_nil_iff.mpr hdigit]
  simp [hne, splitExponent]

theorem readDecimal_point {digits fraction : ByteString} (hne : digits ≠ []) (hdigit : ∀ b ∈ digits, isDigit b = true)
    (hfraction : ∀ b ∈ fraction, isDigit b = true) (negative : Bool) :
    readDecimal negative (digits ++ 46 :: fraction) =
      some (.decimal negative (ofDecimal (digits ++ fraction)) (-fraction.length), []) := by
  have hpoint : ¬ isDigit 46 = true := by decide
  rw [readDecimal, splitDigits, List.takeWhile_append_of_pos hdigit, List.dropWhile_append_of_pos hdigit,
    List.takeWhile_cons_of_neg hpoint, List.dropWhile_cons_of_neg hpoint, List.append_nil]
  simp [hne, splitExponent, List.takeWhile_eq_self_iff.mpr hfraction, List.dropWhile_eq_nil_iff.mpr hfraction]

/-- The whole text is a numeral with this value. -/
def Denotes (text : ByteString) (value : ℚ) : Prop :=
  ∃ numeral, strtod text = some (numeral, []) ∧ numeral.value? = some value

theorem Denotes.unique {text : ByteString} {value value' : ℚ} (h : Denotes text value) (h' : Denotes text value') :
    value = value' := by
  obtain ⟨numeral, hread, hvalue⟩ := h
  obtain ⟨numeral', hread', hvalue'⟩ := h'
  rw [hread] at hread'
  obtain ⟨rfl, -⟩ := Prod.mk.inj (Option.some.inj hread')
  exact Option.some.inj (hvalue.symm.trans hvalue')

theorem denotes_integer {negative : Bool} {sign digits : ByteString} (hsign : sign = if negative then [45] else [])
    (hne : digits ≠ []) (hdigit : ∀ b ∈ digits, isDigit b = true) :
    Denotes (sign ++ digits) ((if negative then -1 else 1) * ofDecimal digits) := by
  have hread : strtod (sign ++ (digits ++ [])) = _ := strtod_signed hsign hne hdigit (by simp)
  rw [List.append_nil, readDecimal_integer hne hdigit] at hread
  exact ⟨_, hread, by simp [Numeral.value?]⟩

theorem denotes_point {negative : Bool} {sign digits fraction : ByteString} (hsign : sign = if negative then [45] else [])
    (hne : digits ≠ []) (hdigit : ∀ b ∈ digits, isDigit b = true) (hfraction : ∀ b ∈ fraction, isDigit b = true) :
    Denotes (sign ++ (digits ++ 46 :: fraction))
      ((if negative then -1 else 1) * (ofDecimal (digits ++ fraction) / 10 ^ fraction.length)) := by
  have hx : ∀ b ∈ (46 :: fraction).head?, toLower b ≠ 120 := by
    simp only [List.head?_cons, Option.mem_some_iff, forall_eq']
    decide
  have hread := strtod_signed hsign hne hdigit hx
  rw [readDecimal_point hne hdigit hfraction] at hread
  refine ⟨_, hread, ?_⟩
  rw [Numeral.value?, zpow_neg, zpow_natCast]
  exact congrArg some (by ring)

example : stod (bytes " -12.5e-1 V") = some (Numeral.decimal true 125 (-2)).toDouble := by decide +kernel

example : (strtod (bytes "0x1.8p3+")).bind (fun read => read.1.value?) = some 12 := by decide +kernel

example : strtod (bytes "1e+") = some (.decimal false 1 0, bytes "e+") := by decide

end ByteString
