import InstrumentServer.Lib.Json.Library

/-!
# A concrete JSON library

A compact writer, the strict reader of what it writes, and the proof that together they are a `JsonLibrary`. The writer escapes strings and prints integers as the library does, and doubles that are integers of at most 15 digits, with `.0` behind them. Any other finite double is written as its bit pattern with `.5` behind it, which is some one-to-one number text; the shortest decimal text is not modelled.
-/

namespace Json

namespace Text

/-! ### Writing -/

def hexDigit (n : Nat) : UInt8 := UInt8.ofNat (if n < 10 then 48 + n else 87 + n)

def unhex (b : UInt8) : Nat := if b.toNat < 58 then b.toNat - 48 else b.toNat - 87

/-- The letter that follows the backslash in a two-byte escape. -/
def escapeLetter (b : UInt8) : Option UInt8 :=
  if b = 34 then some 34
  else if b = 92 then some 92
  else if b = 8 then some 98
  else if b = 9 then some 116
  else if b = 10 then some 110
  else if b = 12 then some 102
  else if b = 13 then some 114
  else none

def unescapeLetter (letter : UInt8) : UInt8 :=
  if letter = 98 then 8
  else if letter = 116 then 9
  else if letter = 110 then 10
  else if letter = 102 then 12
  else if letter = 114 then 13
  else letter

def escapeByte (b : UInt8) : ByteString :=
  match escapeLetter b with
  | some letter => [92, letter]
  | none => if b < 32 then [92, 117, 48, 48, hexDigit (b.toNat / 16), hexDigit (b.toNat % 16)] else [b]

def writeString (s : ByteString) : ByteString := 34 :: (s.flatMap escapeByte ++ [34])

/-- The double is an integer that the library writes with all its digits. -/
def IsWhole (value : Double) : Prop :=
  value = Double.ofSignedNat value.isNegative value.toInt.natAbs ∧ value.toInt.natAbs < 10 ^ 15

instance (value : Double) : Decidable (IsWhole value) := inferInstanceAs (Decidable (_ ∧ _))

def writeDouble (value : Double) : ByteString :=
  if IsWhole value then
    (if value.isNegative then [45] else []) ++ (ByteString.decimal value.toInt.natAbs ++ [46, 48])
  else ByteString.decimal value.bits.toNat ++ [46, 53]

example : writeDouble Double.one = bytes "1.0" := by decide +kernel

mutual

def write : Json → ByteString
  | .null => bytes "null"
  | .boolean true => bytes "true"
  | .boolean false => bytes "false"
  | .integer value => ByteString.decimalInt value.toInt
  | .unsigned value => ByteString.decimal value.toNat
  | .float value => if value.isFinite then writeDouble value else bytes "null"
  | .string value => writeString value
  | .array items => 91 :: writeItems items
  | .object fields => 123 :: writeFields fields

/-- The items and the closing bracket. -/
def writeItems : List Json → ByteString
  | [] => [93]
  | item :: items =>
      write item ++ match items with
        | [] => [93]
        | _ :: _ => 44 :: writeItems items

/-- The fields and the closing brace. -/
def writeFields : List (ByteString × Json) → ByteString
  | [] => [125]
  | (key, value) :: fields =>
      writeString key ++ 58 :: (write value ++ match fields with
        | [] => [125]
        | _ :: _ => 44 :: writeFields fields)

end

theorem length_le_writeString (s : ByteString) : s.length ≤ (writeString s).length := by
  have hbyte : ∀ b, 1 ≤ (escapeByte b).length := by
    intro b
    rw [escapeByte]
    repeat' split
    all_goals simp
  have hbytes : s.length ≤ (s.flatMap escapeByte).length := by
    induction s with
    | nil => simp
    | cons b s ih =>
        have := hbyte b
        rw [List.flatMap_cons, List.length_append, List.length_cons]
        omega
  rw [writeString, List.length_cons, List.length_append]
  omega

/-- A document is at least as long as any of its fields. -/
theorem length_write_le_writeFields {key : ByteString} {value : Json} {fields : List (ByteString × Json)}
    (hmem : (key, value) ∈ fields) : (write value).length ≤ (writeFields fields).length := by
  induction fields with
  | nil => simp at hmem
  | cons field fields ih =>
      obtain ⟨key', value'⟩ := field
      have hcases : value = value' ∨ (key, value) ∈ fields := by
        rcases List.mem_cons.mp hmem with heq | hmem
        · exact Or.inl (Prod.mk.inj heq).2
        · exact Or.inr hmem
      cases fields with
      | nil =>
          obtain rfl := hcases.resolve_right (by simp)
          simp only [writeFields, List.length_append, List.length_cons]
          omega
      | cons field' fields =>
          simp only [writeFields, List.length_append, List.length_cons] at ih ⊢
          rcases hcases with rfl | hmem
          · omega
          · have hrest := ih hmem
            omega

theorem length_escapeByte_le (b : UInt8) : (escapeByte b).length ≤ 6 := by
  rw [escapeByte]
  repeat' split
  all_goals simp

theorem length_escapeByte_le_two {b : UInt8} (hb : 32 ≤ b) : (escapeByte b).length ≤ 2 := by
  rw [escapeByte, if_neg (UInt8.not_lt.mpr hb)]
  split <;> simp

theorem length_writeString_le {s : ByteString} {k : Nat} (hs : ∀ b ∈ s, (escapeByte b).length ≤ k) :
    (writeString s).length ≤ s.length * k + 2 := by
  have hsum : ((s.map fun b => (escapeByte b).length).sum) ≤ s.length * k := by
    have hle := List.sum_le_card_nsmul (s.map fun b => (escapeByte b).length) k (by simpa using hs)
    simpa using hle
  rw [writeString, List.length_cons, List.length_append, List.length_flatMap]
  exact Nat.succ_le_succ (Nat.succ_le_succ hsum)

/-- A field takes at most a colon and a comma besides its name and its value. -/
theorem length_writeFields_le {fields : List (ByteString × Json)} {k : Nat}
    (hkeys : ∀ key ∈ fields.map Prod.fst, (writeString key).length ≤ k) :
    (writeFields fields).length ≤ (fields.map fun field => (write field.2).length).sum + fields.length * (k + 2) + 1 := by
  induction fields with
  | nil => simp [writeFields]
  | cons field fields ih =>
      obtain ⟨hkey, hkeys⟩ := List.forall_mem_cons.mp hkeys
      have hrest := ih hkeys
      cases fields with
      | nil =>
          simp only [writeFields, List.length_append, List.length_cons, List.length_nil, List.map_cons, List.map_nil,
            List.sum_cons, List.sum_nil]
          omega
      | cons field' fields =>
          rw [List.map_cons, List.sum_cons, writeFields, List.length_cons, Nat.succ_mul]
          simp only [List.length_append, List.length_cons]
          simp only [List.length_cons] at hrest
          omega

/-! ### Reading -/

/-- The bytes of a string up to its closing quote. -/
def readChars : ByteString → Option (ByteString × ByteString)
  | [] => none
  | b :: rest =>
      if b = 34 then some ([], rest)
      else if b = 92 then
        match rest with
        | [] => none
        | letter :: rest =>
            if letter = 117 then
              match rest with
              | _ :: _ :: high :: low :: rest =>
                  (readChars rest).map fun (chars, rest) =>
                    (UInt8.ofNat (16 * unhex high + unhex low) :: chars, rest)
              | _ => none
            else (readChars rest).map fun (chars, rest) => (unescapeLetter letter :: chars, rest)
      else (readChars rest).map fun (chars, rest) => (b :: chars, rest)

/-- The number a digit sequence and what follows it denote. -/
def readDigits (negative : Bool) (input : ByteString) : Option (Json × ByteString) :=
  let digits := input.takeWhile ByteString.isDigit
  if digits = [] then none
  else
    let value := ByteString.ofDecimal digits
    match input.dropWhile ByteString.isDigit with
    | 46 :: 48 :: rest => some (.float (Double.ofSignedNat negative value), rest)
    | 46 :: 53 :: rest => some (.float ⟨BitVec.ofNat 64 value⟩, rest)
    | 46 :: _ => none
    | rest => some (if negative then .integer (Int64.ofInt (-value)) else .unsigned (UInt64.ofNat value), rest)

def readNumber (input : ByteString) : Option (Json × ByteString) :=
  match input with
  | 45 :: rest => readDigits true rest
  | _ => readDigits false input

def readWord (word : ByteString) (value : Json) (input : ByteString) : Option (Json × ByteString) :=
  if word <+: input then some (value, input.drop word.length) else none

mutual

def readValue : Nat → ByteString → Option (Json × ByteString)
  | fuel + 1, b :: rest =>
      if b = 123 then
        if rest.head? = some 125 then some (.object [], rest.tail)
        else (readFields fuel rest).map fun (fields, rest) => (.object fields, rest)
      else if b = 91 then
        if rest.head? = some 93 then some (.array [], rest.tail)
        else (readItems fuel rest).map fun (items, rest) => (.array items, rest)
      else if b = 34 then (readChars rest).map fun (chars, rest) => (.string chars, rest)
      else if b = 116 then readWord (bytes "true") (.boolean true) (b :: rest)
      else if b = 102 then readWord (bytes "false") (.boolean false) (b :: rest)
      else if b = 110 then readWord (bytes "null") .null (b :: rest)
      else readNumber (b :: rest)
  | _, _ => none

def readItems : Nat → ByteString → Option (List Json × ByteString)
  | 0, _ => none
  | fuel + 1, input => do
      let (item, rest) ← readValue fuel input
      match rest with
      | 93 :: rest => some ([item], rest)
      | 44 :: rest =>
          let (items, rest) ← readItems fuel rest
          some (item :: items, rest)
      | _ => none

def readFields : Nat → ByteString → Option (List (ByteString × Json) × ByteString)
  | fuel + 1, 34 :: input => do
      let (key, rest) ← readChars input
      match rest with
      | 58 :: rest =>
          let (value, rest) ← readValue fuel rest
          match rest with
          | 125 :: rest => some ([(key, value)], rest)
          | 44 :: rest =>
              let (fields, rest) ← readFields fuel rest
              some ((key, value) :: fields, rest)
          | _ => none
      | _ => none
  | _, _ => none

end

/-! ### Reading strings back -/

theorem unhex_hexDigit {n : Nat} (hn : n < 256) :
    16 * unhex (hexDigit (n / 16)) + unhex (hexDigit (n % 16)) = n := by
  have hdigit : ∀ d < 16, unhex (hexDigit d) = d := by decide
  rw [hdigit _ (by omega), hdigit _ (by omega)]
  omega

theorem unescapeLetter_escapeLetter {b letter : UInt8} (h : escapeLetter b = some letter) :
    letter ≠ 117 ∧ unescapeLetter letter = b := by
  revert h
  unfold escapeLetter
  repeat' split
  all_goals
    intro h
    simp only [Option.some.injEq, reduceCtorEq] at h
  all_goals
    subst h
    subst b
    decide

theorem readChars_quote (rest : ByteString) : readChars (34 :: rest) = some ([], rest) := by
  rw [readChars.eq_def]
  rfl

/-- Reading past one written byte. -/
theorem readChars_escapeByte (b : UInt8) (rest : ByteString) :
    readChars (escapeByte b ++ rest) = (readChars rest).map fun (chars, rest) => (b :: chars, rest) := by
  rw [escapeByte]
  split
  · rename_i letter hletter
    obtain ⟨hne, hback⟩ := unescapeLetter_escapeLetter hletter
    rw [readChars.eq_def]
    simp [hne, hback]
  · rename_i hnone
    split
    · have hb : UInt8.ofNat (16 * unhex (hexDigit (b.toNat / 16)) + unhex (hexDigit (b.toNat % 16))) = b := by
        rw [unhex_hexDigit b.toNat_lt, UInt8.ofNat_toNat]
      rw [readChars.eq_def]
      simp [hb]
    · have hquote : b ≠ 34 := by
        rintro rfl
        simp [escapeLetter] at hnone
      have hslash : b ≠ 92 := by
        rintro rfl
        simp [escapeLetter] at hnone
      rw [readChars.eq_def]
      simp [hquote, hslash]

theorem readChars_escape (s rest : ByteString) : readChars (s.flatMap escapeByte ++ 34 :: rest) = some (s, rest) := by
  induction s with
  | nil => exact readChars_quote rest
  | cons b s ih => rw [List.flatMap_cons, List.append_assoc, readChars_escapeByte, ih, Option.map_some]

/-- What was read of a string does not depend on what follows it. -/
theorem readChars_append {input chars rest : ByteString} (h : readChars input = some (chars, rest))
    (more : ByteString) : readChars (input ++ more) = some (chars, rest ++ more) := by
  fun_induction readChars input generalizing chars rest with
  | case1 => simp at h
  | case2 rest' =>
      obtain ⟨rfl, rfl⟩ : [] = chars ∧ rest' = rest := by simpa using h
      exact readChars_quote _
  | case3 => simp at h
  | case4 _ _ high low rest' _ ih =>
      obtain ⟨⟨chars', rest''⟩, hread, heq⟩ := Option.map_eq_some_iff.mp h
      obtain ⟨rfl, rfl⟩ : _ :: chars' = chars ∧ rest'' = rest := by simpa using heq
      rw [readChars.eq_def]
      simp [ih hread]
  | case5 => simp at h
  | case6 letter rest' hletter _ ih =>
      obtain ⟨⟨chars', rest''⟩, hread, heq⟩ := Option.map_eq_some_iff.mp h
      obtain ⟨rfl, rfl⟩ : _ :: chars' = chars ∧ rest'' = rest := by simpa using heq
      rw [readChars.eq_def]
      simp [hletter, ih hread]
  | case7 b rest' hquote hslash ih =>
      obtain ⟨⟨chars', rest''⟩, hread, heq⟩ := Option.map_eq_some_iff.mp h
      obtain ⟨rfl, rfl⟩ : _ :: chars' = chars ∧ rest'' = rest := by simpa using heq
      rw [readChars.eq_def]
      simp [hquote, hslash, ih hread]

/-! ### Reading numbers and words back -/

/-- What may follow a number: nothing, or a byte that does not continue it. -/
def EndsNumber (rest : ByteString) : Prop := ∀ b ∈ rest.head?, ByteString.isDigit b = false ∧ b ≠ 46

theorem takeWhile_decimal (n : Nat) {rest : ByteString} (hrest : ∀ b ∈ rest.head?, ByteString.isDigit b = false) :
    (ByteString.decimal n ++ rest).takeWhile ByteString.isDigit = ByteString.decimal n ∧
      (ByteString.decimal n ++ rest).dropWhile ByteString.isDigit = rest := by
  have hdigits : ∀ b ∈ ByteString.decimal n, ByteString.isDigit b = true := fun b hb => ByteString.isDigit_of_mem_decimal hb
  rw [List.takeWhile_append_of_pos hdigits, List.dropWhile_append_of_pos hdigits]
  cases rest with
  | nil => simp
  | cons b rest => simp [hrest b rfl]

theorem readDigits_decimal (negative : Bool) (n : Nat) {rest : ByteString} (hrest : EndsNumber rest) :
    readDigits negative (ByteString.decimal n ++ rest) =
      some (if negative then .integer (Int64.ofInt (-n)) else .unsigned (UInt64.ofNat n), rest) := by
  obtain ⟨htake, hdrop⟩ := takeWhile_decimal n fun b hb => (hrest b hb).1
  rw [readDigits, htake, hdrop, if_neg (ByteString.decimal_ne_nil n), ByteString.ofDecimal_decimal]
  split
  · exact absurd rfl (hrest 46 rfl).2
  · exact absurd rfl (hrest 46 rfl).2
  · exact absurd rfl (hrest 46 rfl).2
  · rfl

theorem readDigits_whole (negative : Bool) (n : Nat) (rest : ByteString) :
    readDigits negative (ByteString.decimal n ++ ([46, 48] ++ rest)) =
      some (.float (Double.ofSignedNat negative n), rest) := by
  have hpoint : ∀ b ∈ ([46, 48] ++ rest).head?, ByteString.isDigit b = false := by simp; decide
  obtain ⟨htake, hdrop⟩ := takeWhile_decimal n hpoint
  rw [readDigits, htake, hdrop, if_neg (ByteString.decimal_ne_nil n), ByteString.ofDecimal_decimal]
  rfl

theorem readDigits_bits (n : Nat) (rest : ByteString) :
    readDigits false (ByteString.decimal n ++ ([46, 53] ++ rest)) = some (.float ⟨BitVec.ofNat 64 n⟩, rest) := by
  have hpoint : ∀ b ∈ ([46, 53] ++ rest).head?, ByteString.isDigit b = false := by simp; decide
  obtain ⟨htake, hdrop⟩ := takeWhile_decimal n hpoint
  rw [readDigits, htake, hdrop, if_neg (ByteString.decimal_ne_nil n), ByteString.ofDecimal_decimal]
  rfl

theorem while_append {p : UInt8 → Bool} {input : ByteString} (h : input.dropWhile p ≠ []) (more : ByteString) :
    (input ++ more).takeWhile p = input.takeWhile p ∧ (input ++ more).dropWhile p = input.dropWhile p ++ more := by
  induction input with
  | nil => simp at h
  | cons b input ih =>
      by_cases hb : p b = true
      · rw [List.dropWhile_cons_of_pos hb] at h
        simp [hb, ih h]
      · simp [hb]

/-- A number that is followed by something was read completely. -/
theorem readDigits_append {negative : Bool} {input rest : ByteString} {value : Json}
    (h : readDigits negative input = some (value, rest)) (hrest : rest ≠ []) (more : ByteString) :
    readDigits negative (input ++ more) = some (value, rest ++ more) := by
  rw [readDigits] at h
  split at h
  · simp at h
  · rename_i hdigits
    have hdrop : input.dropWhile ByteString.isDigit ≠ [] := by
      intro hnil
      rw [hnil] at h
      simp only [Option.some.injEq, Prod.mk.injEq] at h
      exact hrest h.2.symm
    obtain ⟨htake, hmore⟩ := while_append hdrop more
    rw [readDigits, htake, hmore, if_neg hdigits]
    split at h
    · rename_i rest' heq
      obtain ⟨rfl, rfl⟩ : _ = value ∧ rest' = rest := by simpa using h
      rw [heq]
      rfl
    · rename_i rest' heq
      obtain ⟨rfl, rfl⟩ : _ = value ∧ rest' = rest := by simpa using h
      rw [heq]
      rfl
    · simp at h
    · rename_i hne hhalf hne'
      simp only [Option.some.injEq, Prod.mk.injEq] at h
      obtain ⟨rfl, rfl⟩ := h
      cases hcons : input.dropWhile ByteString.isDigit with
      | nil => exact absurd hcons hdrop
      | cons b tail =>
          have hb : b ≠ 46 := fun hb => hne' tail (hb ▸ hcons)
          split
          · rename_i heq
            simp only [List.cons_append, List.cons.injEq] at heq
            exact absurd heq.1 hb
          · rename_i heq
            simp only [List.cons_append, List.cons.injEq] at heq
            exact absurd heq.1 hb
          · rename_i heq
            simp only [List.cons_append, List.cons.injEq] at heq
            exact absurd heq.1 hb
          · rfl

theorem readNumber_append {input rest : ByteString} {value : Json}
    (h : readNumber input = some (value, rest)) (hrest : rest ≠ []) (more : ByteString) :
    readNumber (input ++ more) = some (value, rest ++ more) := by
  cases input with
  | nil => simp [readNumber, readDigits] at h
  | cons b input =>
      by_cases hb : b = 45
      · subst hb
        have hdigits : readDigits true input = some (value, rest) := h
        exact readDigits_append hdigits hrest more
      · have hplain : ∀ tail, readNumber (b :: tail) = readDigits false (b :: tail) := by
          intro tail
          rw [readNumber]
          rintro rest ⟨⟩
          exact hb rfl
        rw [hplain] at h
        rw [List.cons_append, hplain, ← List.cons_append]
        exact readDigits_append h hrest more

theorem readWord_append {word input rest : ByteString} {value value' : Json}
    (h : readWord word value input = some (value', rest)) (more : ByteString) :
    readWord word value (input ++ more) = some (value', rest ++ more) := by
  rw [readWord] at h
  split at h
  · rename_i hstarts
    obtain ⟨rfl, rfl⟩ : value = value' ∧ input.drop word.length = rest := by simpa using h
    rw [readWord, if_pos (hstarts.trans (List.prefix_append input more)), List.drop_append_of_le_length hstarts.length_le]
  · simp at h

theorem readWord_word (word rest : ByteString) (value : Json) :
    readWord word value (word ++ rest) = some (value, rest) := by
  rw [readWord, if_pos (List.prefix_append word rest), List.drop_left]

/-! ### Reading values back -/

theorem readNumber_of_digit {input : ByteString} (h : ∀ b ∈ input.head?, ByteString.isDigit b = true) :
    readNumber input = readDigits false input := by
  rw [readNumber]
  rintro rest rfl
  exact absurd (h 45 rfl) (by decide)

theorem head?_decimal (n : Nat) (rest : ByteString) :
    ∃ b tail, ByteString.decimal n ++ rest = b :: tail ∧ ByteString.isDigit b = true := by
  cases hdigits : ByteString.decimal n with
  | nil => exact absurd hdigits (ByteString.decimal_ne_nil n)
  | cons b tail => exact ⟨b, tail ++ rest, rfl, ByteString.isDigit_of_mem_decimal (n := n) (by simp [hdigits])⟩

theorem readValue_number {fuel : Nat} {b : UInt8} {rest : ByteString} (hb : ByteString.isDigit b = true ∨ b = 45) :
    readValue (fuel + 1) (b :: rest) = readNumber (b :: rest) := by
  have hne : b ≠ 123 ∧ b ≠ 91 ∧ b ≠ 34 ∧ b ≠ 116 ∧ b ≠ 102 ∧ b ≠ 110 := by
    refine ⟨?_, ?_, ?_, ?_, ?_, ?_⟩ <;> rintro rfl <;> exact absurd hb (by decide)
  obtain ⟨h1, h2, h3, h4, h5, h6⟩ := hne
  simp only [readValue, h1, h2, h3, h4, h5, h6, if_false]

theorem readValue_decimal {fuel n : Nat} {rest : ByteString} :
    readValue (fuel + 1) (ByteString.decimal n ++ rest) = readDigits false (ByteString.decimal n ++ rest) := by
  obtain ⟨b, tail, heq, hb⟩ := head?_decimal n rest
  rw [heq, readValue_number (Or.inl hb), readNumber_of_digit]
  rintro b' ⟨⟩
  exact hb

theorem ofNat_natAbs_toInt {value : Int64} (hneg : ¬ value.toInt < 0) :
    UInt64.ofNat value.toInt.natAbs = value.toUInt64 := by
  have hint : value.toInt = value.toBitVec.toInt := rfl
  have hlt := value.toBitVec.isLt
  apply UInt64.toNat.inj
  change (UInt64.ofNat value.toInt.natAbs).toNat = value.toBitVec.toNat
  rw [UInt64.toNat_ofNat', hint, BitVec.toInt_eq_toNat_cond]
  rw [hint, BitVec.toInt_eq_toNat_cond] at hneg
  split at hneg <;> rename_i hcond <;> simp only [hcond, if_true, if_false] <;> omega

theorem readValue_integer {fuel : Nat} (value : Int64) {rest : ByteString} (hrest : EndsNumber rest) :
    readValue (fuel + 1) (ByteString.decimalInt value.toInt ++ rest) = some ((Json.integer value).reread, rest) := by
  rw [ByteString.decimalInt, Json.reread]
  by_cases hneg : value.toInt < 0
  · have hlt : value < 0 := by rwa [Int64.lt_iff_toInt_lt]
    have hback : Int64.ofInt (-(value.toInt.natAbs : Int)) = value := by
      rw [Int.ofNat_natAbs_of_nonpos hneg.le, Int.neg_neg, Int64.ofInt_toInt]
    rw [if_pos hneg, if_pos hlt]
    change readValue (fuel + 1) (45 :: (ByteString.decimal value.toInt.natAbs ++ rest)) = _
    rw [readValue_number (Or.inr rfl)]
    change readDigits true (ByteString.decimal value.toInt.natAbs ++ rest) = _
    rw [readDigits_decimal true _ hrest, if_pos rfl, hback]
  · have hlt : ¬ value < 0 := by rwa [Int64.lt_iff_toInt_lt]
    rw [if_neg hneg, if_neg hlt, readValue_decimal, readDigits_decimal false _ hrest, ofNat_natAbs_toInt hneg]
    rfl

theorem readValue_writeString {fuel : Nat} (s rest : ByteString) :
    readValue (fuel + 1) (writeString s ++ rest) = some (.string s, rest) := by
  rw [writeString, List.cons_append, List.append_assoc, readValue]
  simp [readChars_escape]

/-- No text starts with a closing bracket. -/
theorem write_head (j : Json) : ∃ b tail, write j = b :: tail ∧ b ≠ 93 := by
  have hdecimal : ∀ n rest, ∃ b tail, ByteString.decimal n ++ rest = b :: tail ∧ b ≠ 93 := by
    intro n rest
    obtain ⟨b, tail, heq, hb⟩ := head?_decimal n rest
    refine ⟨b, tail, heq, ?_⟩
    rintro rfl
    exact absurd hb (by decide)
  cases j with
  | null => exact ⟨_, _, rfl, by decide⟩
  | boolean b => cases b <;> exact ⟨_, _, rfl, by decide⟩
  | integer value =>
      rw [write, ByteString.decimalInt]
      split
      · exact ⟨45, ByteString.decimal value.toInt.natAbs, rfl, by decide⟩
      · simpa using hdecimal value.toInt.natAbs []
  | unsigned value => simpa [write] using hdecimal value.toNat []
  | float value =>
      rw [write]
      split
      · rw [writeDouble]
        split
        · split
          · exact ⟨45, _, rfl, by decide⟩
          · exact hdecimal _ _
        · exact hdecimal _ _
      · exact ⟨_, _, rfl, by decide⟩
  | string value => exact ⟨34, _, rfl, by decide⟩
  | array items => exact ⟨91, _, rfl, by decide⟩
  | object fields => exact ⟨123, _, rfl, by decide⟩

theorem write_length_pos (j : Json) : 0 < (write j).length := by
  obtain ⟨b, tail, heq, -⟩ := write_head j
  simp [heq]

/-- The three readers undo the three writers, given as much fuel as the text is long. -/
structure ReadsBack (fuel : Nat) : Prop where
  value : ∀ j rest, (write j).length ≤ fuel → EndsNumber rest →
    readValue fuel (write j ++ rest) = some (j.reread, rest)
  items : ∀ items rest, items ≠ [] → (writeItems items).length ≤ fuel →
    readItems fuel (writeItems items ++ rest) = some (Json.rereadItems items, rest)
  fields : ∀ fields rest, fields ≠ [] → (writeFields fields).length ≤ fuel →
    readFields fuel (writeFields fields ++ rest) = some (Json.rereadFields fields, rest)

theorem endsNumber_cons {b : UInt8} (hb : ByteString.isDigit b = false ∧ b ≠ 46) (rest : ByteString) :
    EndsNumber (b :: rest) := by
  rintro b' ⟨⟩
  exact hb

theorem readItems_write {fuel : Nat} (ih : ReadsBack fuel) (items : List Json) (rest : ByteString)
    (hne : items ≠ []) (hlen : (writeItems items).length ≤ fuel + 1) :
    readItems (fuel + 1) (writeItems items ++ rest) = some (Json.rereadItems items, rest) := by
  cases items with
  | nil => exact absurd rfl hne
  | cons item items =>
      have hpos := write_length_pos item
      cases items with
      | nil =>
          rw [writeItems] at hlen ⊢
          simp only [List.length_append, List.length_cons, List.length_nil] at hlen
          have hitem := ih.value item ([93] ++ rest) (by omega) (endsNumber_cons (by decide) _)
          rw [List.append_assoc, readItems, hitem]
          rfl
      | cons item' items =>
          rw [writeItems] at hlen ⊢
          simp only [List.length_append, List.length_cons] at hlen
          have hitem := ih.value item (44 :: writeItems (item' :: items) ++ rest) (by omega)
            (endsNumber_cons (by decide) _)
          have hrest := ih.items (item' :: items) rest (by simp) (by omega)
          rw [List.append_assoc, readItems, hitem]
          simp [hrest, Json.rereadItems]

theorem readFields_write {fuel : Nat} (ih : ReadsBack fuel) (fields : List (ByteString × Json)) (rest : ByteString)
    (hne : fields ≠ []) (hlen : (writeFields fields).length ≤ fuel + 1) :
    readFields (fuel + 1) (writeFields fields ++ rest) = some (Json.rereadFields fields, rest) := by
  cases fields with
  | nil => exact absurd rfl hne
  | cons field fields =>
      obtain ⟨key, value⟩ := field
      have hchars : ∀ tail, readChars (key.flatMap escapeByte ++ 34 :: tail) = some (key, tail) :=
        readChars_escape key
      cases fields with
      | nil =>
          rw [writeFields] at hlen ⊢
          simp only [List.length_append, List.length_cons, List.length_nil, writeString] at hlen
          have hvalue := ih.value value ([125] ++ rest) (by omega) (endsNumber_cons (by decide) _)
          simp only [List.cons_append, List.nil_append] at hvalue
          simp [writeString, readFields, hchars, hvalue, Json.rereadFields]
      | cons field' fields =>
          rw [writeFields] at hlen ⊢
          simp only [List.length_append, List.length_cons, writeString] at hlen
          have hvalue := ih.value value (44 :: writeFields (field' :: fields) ++ rest) (by omega)
            (endsNumber_cons (by decide) _)
          have hrest := ih.fields (field' :: fields) rest (by simp) (by omega)
          simp only [List.cons_append] at hvalue
          simp [writeString, readFields, hchars, hvalue, hrest, Json.rereadFields]

theorem readValue_writeDouble {fuel : Nat} (value : Double) (rest : ByteString) :
    readValue (fuel + 1) (writeDouble value ++ rest) = some (.float value, rest) := by
  rw [writeDouble]
  split
  · rename_i hwhole
    rw [List.append_assoc, List.append_assoc]
    have hread : ∀ negative, negative = value.isNegative →
        readDigits negative (ByteString.decimal value.toInt.natAbs ++ ([46, 48] ++ rest)) = some (.float value, rest) := by
      intro negative hnegative
      rw [readDigits_whole, hnegative, ← hwhole.1]
    cases hnegative : value.isNegative with
    | true =>
        rw [if_pos rfl]
        exact (readValue_number (Or.inr rfl)).trans (hread true hnegative.symm)
    | false =>
        rw [if_neg Bool.false_ne_true, List.nil_append, readValue_decimal]
        exact hread false hnegative.symm
  · rw [List.append_assoc, readValue_decimal, readDigits_bits]
    simp

theorem readValue_write {fuel : Nat} (ih : ReadsBack fuel) (j : Json) (rest : ByteString)
    (hlen : (write j).length ≤ fuel + 1) (hrest : EndsNumber rest) :
    readValue (fuel + 1) (write j ++ rest) = some (j.reread, rest) := by
  cases j with
  | null => exact readWord_word (bytes "null") rest .null
  | boolean b =>
      cases b with
      | true => exact readWord_word (bytes "true") rest (.boolean true)
      | false => exact readWord_word (bytes "false") rest (.boolean false)
  | integer value => exact readValue_integer value hrest
  | unsigned value =>
      rw [write, readValue_decimal, readDigits_decimal false _ hrest]
      simp [Json.reread]
  | float value =>
      rw [write, Json.reread]
      split
      · exact readValue_writeDouble value rest
      · exact readWord_word (bytes "null") rest .null
  | string value => exact readValue_writeString value rest
  | array items =>
      rw [write] at hlen ⊢
      cases items with
      | nil => rfl
      | cons item items =>
          have hitems := ih.items (item :: items) rest (by simp) (by simpa using hlen)
          obtain ⟨b, tail, heq, hb⟩ := write_head item
          have hhead : (writeItems (item :: items) ++ rest).head? ≠ some 93 := by
            simp [writeItems, heq, hb]
          rw [List.cons_append, readValue, if_neg (by decide), if_pos rfl, if_neg hhead, hitems]
          rfl
  | object fields =>
      rw [write] at hlen ⊢
      cases fields with
      | nil => rfl
      | cons field fields =>
          have hfields := ih.fields (field :: fields) rest (by simp) (by simpa using hlen)
          have hhead : (writeFields (field :: fields) ++ rest).head? ≠ some 125 := by
            simp [writeFields, writeString]
          rw [List.cons_append, readValue, if_pos rfl, if_neg hhead, hfields]
          rfl

theorem readsBack (fuel : Nat) : ReadsBack fuel := by
  induction fuel with
  | zero =>
      refine ⟨fun j rest hlen => ?_, fun items rest hne hlen => ?_, fun fields rest hne hlen => ?_⟩
      · exact absurd (write_length_pos j) (by omega)
      · cases items with
        | nil => exact absurd rfl hne
        | cons item items => 
            have hpos := write_length_pos item
            simp only [writeItems, List.length_append] at hlen
            omega
      · cases fields with
        | nil => exact absurd rfl hne
        | cons field fields => simp [writeFields, writeString] at hlen
  | succ fuel ih => exact ⟨readValue_write ih, readItems_write ih, readFields_write ih⟩

/-! ### Cut texts -/

/-- What the readers read does not change when more text follows, unless it is a number at the end of the text. -/
structure Extends (fuel : Nat) : Prop where
  value : ∀ {input value rest}, readValue fuel input = some (value, rest) → rest ≠ [] ∨ input.head? = some 123 →
    ∀ fuel' more, fuel ≤ fuel' → readValue fuel' (input ++ more) = some (value, rest ++ more)
  items : ∀ {input items rest}, readItems fuel input = some (items, rest) →
    ∀ fuel' more, fuel ≤ fuel' → readItems fuel' (input ++ more) = some (items, rest ++ more)
  fields : ∀ {input fields rest}, readFields fuel input = some (fields, rest) →
    ∀ fuel' more, fuel ≤ fuel' → readFields fuel' (input ++ more) = some (fields, rest ++ more)

theorem readItems_append {fuel fuel' : Nat} (ih : Extends fuel) (hfuel : fuel ≤ fuel') {input rest : ByteString}
    {items : List Json} (h : readItems (fuel + 1) input = some (items, rest)) (more : ByteString) :
    readItems (fuel' + 1) (input ++ more) = some (items, rest ++ more) := by
  rw [readItems] at h
  obtain ⟨⟨item, tail⟩, hitem, h⟩ := Option.bind_eq_some_iff.mp h
  have hitem' : tail ≠ [] → readValue fuel' (input ++ more) = some (item, tail ++ more) :=
    fun htail => ih.value hitem (Or.inl htail) fuel' more hfuel
  simp only at h
  split at h
  · obtain ⟨rfl, rfl⟩ : [item] = items ∧ _ = rest := by simpa using h
    simp [readItems, hitem' (by simp)]
  · obtain ⟨⟨items', rest'⟩, hitems, h⟩ := Option.bind_eq_some_iff.mp h
    obtain ⟨rfl, rfl⟩ : item :: items' = items ∧ rest' = rest := by simpa using h
    simp [readItems, hitem' (by simp), ih.items hitems fuel' more hfuel]
  · simp at h

theorem readFields_append {fuel fuel' : Nat} (ih : Extends fuel) (hfuel : fuel ≤ fuel') {input rest : ByteString}
    {fields : List (ByteString × Json)} (h : readFields (fuel + 1) input = some (fields, rest)) (more : ByteString) :
    readFields (fuel' + 1) (input ++ more) = some (fields, rest ++ more) := by
  rw [readFields.eq_def] at h
  split at h
  · rename_i fuel'' input hfuel''
    obtain rfl : fuel = fuel'' := by simpa using hfuel''
    obtain ⟨⟨key, tail⟩, hkey, h⟩ := Option.bind_eq_some_iff.mp h
    have hkey' := readChars_append hkey more
    simp only at h
    split at h
    · obtain ⟨⟨value, tail'⟩, hvalue, h⟩ := Option.bind_eq_some_iff.mp h
      have hvalue' : tail' ≠ [] → readValue fuel' (_ ++ more) = some (value, tail' ++ more) :=
        fun htail => ih.value hvalue (Or.inl htail) fuel' more hfuel
      simp only at h
      split at h
      · obtain ⟨rfl, rfl⟩ : [(key, value)] = fields ∧ _ = rest := by simpa using h
        simp [readFields, hkey', hvalue' (by simp)]
      · obtain ⟨⟨fields', rest'⟩, hfields, h⟩ := Option.bind_eq_some_iff.mp h
        obtain ⟨rfl, rfl⟩ : (key, value) :: fields' = fields ∧ rest' = rest := by simpa using h
        simp [readFields, hkey', hvalue' (by simp), ih.fields hfields fuel' more hfuel]
      · simp at h
    · simp at h
  · simp at h

theorem readValue_append {fuel fuel' : Nat} (ih : Extends fuel) (hfuel : fuel ≤ fuel') {input rest : ByteString}
    {value : Json} (h : readValue (fuel + 1) input = some (value, rest))
    (hend : rest ≠ [] ∨ input.head? = some 123) (more : ByteString) :
    readValue (fuel' + 1) (input ++ more) = some (value, rest ++ more) := by
  cases input with
  | nil => simp [readValue] at h
  | cons b input =>
      rw [List.cons_append]
      rw [readValue] at h ⊢
      split at h
      · rename_i hb
        rw [if_pos hb]
        cases input with
        | nil => cases fuel <;> simp [readFields] at h
        | cons c input =>
            split at h
            · rename_i hclose
              obtain ⟨rfl, rfl⟩ : .object [] = value ∧ input = rest := by simpa using h
              rw [if_pos (by simpa using hclose)]
              rfl
            · rename_i hclose
              obtain ⟨⟨fields, rest'⟩, hfields, heq⟩ := Option.map_eq_some_iff.mp h
              obtain ⟨rfl, rfl⟩ : .object fields = value ∧ rest' = rest := by simpa using heq
              rw [if_neg (by simpa using hclose), ih.fields hfields fuel' more hfuel]
              rfl
      · rename_i hb
        have hrest : rest ≠ [] := hend.resolve_right (by simpa using hb)
        rw [if_neg hb]
        split at h
        · rename_i hb'
          rw [if_pos hb']
          cases input with
          | nil => cases fuel <;> simp [readItems, readValue] at h
          | cons c input =>
              split at h
              · rename_i hclose
                obtain ⟨rfl, rfl⟩ : .array [] = value ∧ input = rest := by simpa using h
                rw [if_pos (by simpa using hclose)]
                rfl
              · rename_i hclose
                obtain ⟨⟨items, rest'⟩, hitems, heq⟩ := Option.map_eq_some_iff.mp h
                obtain ⟨rfl, rfl⟩ : .array items = value ∧ rest' = rest := by simpa using heq
                rw [if_neg (by simpa using hclose), ih.items hitems fuel' more hfuel]
                rfl
        · rename_i hb'
          rw [if_neg hb']
          split at h
          · rename_i hquote
            obtain ⟨⟨chars, rest'⟩, hchars, heq⟩ := Option.map_eq_some_iff.mp h
            obtain ⟨rfl, rfl⟩ : .string chars = value ∧ rest' = rest := by simpa using heq
            rw [if_pos hquote, readChars_append hchars more]
            rfl
          · rename_i hquote
            rw [if_neg hquote]
            split at h
            · rename_i hword
              rw [if_pos hword]
              exact readWord_append h more
            · rename_i hword
              rw [if_neg hword]
              split at h
              · rename_i hword'
                rw [if_pos hword']
                exact readWord_append h more
              · rename_i hword'
                rw [if_neg hword']
                split at h
                · rename_i hword''
                  rw [if_pos hword'']
                  exact readWord_append h more
                · rename_i hword''
                  rw [if_neg hword'']
                  exact readNumber_append h hrest more

theorem extends_all (fuel : Nat) : Extends fuel := by
  induction fuel with
  | zero => exact ⟨by simp [readValue], by simp [readItems], by simp [readFields]⟩
  | succ fuel ih =>
      have hsucc : ∀ {fuel'}, fuel + 1 ≤ fuel' → ∃ fuel'', fuel' = fuel'' + 1 ∧ fuel ≤ fuel'' :=
        fun {fuel'} hle => ⟨fuel' - 1, by omega, by omega⟩
      refine ⟨fun h hend fuel' more hle => ?_, fun h fuel' more hle => ?_, fun h fuel' more hle => ?_⟩ <;>
        obtain ⟨fuel'', rfl, hle'⟩ := hsucc hle
      · exact readValue_append ih hle' h hend more
      · exact readItems_append ih hle' h more
      · exact readFields_append ih hle' h more

end Text

/-! ### The library -/

mutual

def decidableValidText : (j : Json) → Decidable j.ValidText
  | .string value => inferInstanceAs (Decidable (ByteString.ValidUtf8 value))
  | .array items => decidableValidTexts items
  | .object fields => decidableValidFields fields
  | .null | .boolean _ | .integer _ | .unsigned _ | .float _ => .isTrue trivial

def decidableValidTexts : (items : List Json) → Decidable (ValidTexts items)
  | [] => .isTrue trivial
  | item :: items =>
      have := decidableValidText item
      have := decidableValidTexts items
      inferInstanceAs (Decidable (item.ValidText ∧ ValidTexts items))

def decidableValidFields : (fields : List (ByteString × Json)) → Decidable (ValidFields fields)
  | [] => .isTrue trivial
  | (key, value) :: fields =>
      have := decidableValidText value
      have := decidableValidFields fields
      inferInstanceAs (Decidable (ByteString.ValidUtf8 key ∧ value.ValidText ∧ ValidFields fields))

end

instance (j : Json) : Decidable j.ValidText := decidableValidText j

def dump (j : Json) : Except JsonError ByteString :=
  if j.ValidText then .ok (Text.write j) else .error .invalidUtf8

def parse (text : ByteString) : Except JsonError Json :=
  match Text.readValue text.length text with
  | some (value, []) => .ok value
  | _ => .error .parseError

theorem parse_write (j : Json) : parse (Text.write j) = .ok j.reread := by
  have hread := (Text.readsBack (Text.write j).length).value j [] le_rfl (by simp [Text.EndsNumber])
  rw [List.append_nil] at hread
  rw [parse, hread]

/-- The written text of an object has no proper prefix that can be read. -/
theorem parse_write_take (fields : List (ByteString × Json)) {cut : Nat}
    (hcut : cut < (Text.write (.object fields)).length) :
    parse ((Text.write (.object fields)).take cut) = .error .parseError := by
  obtain ⟨text, htext⟩ : ∃ text, Text.write (.object fields) = text := ⟨_, rfl⟩
  have hwhole := (Text.readsBack text.length).value (.object fields) [] (by rw [htext]) (by simp [Text.EndsNumber])
  rw [List.append_nil, htext] at hwhole
  rw [htext] at hcut ⊢
  rw [parse]
  split
  · rename_i value hread
    have hhead : (text.take cut).head? = some 123 := by
      cases hcases : text.take cut with
      | nil => simp [hcases, Text.readValue] at hread
      | cons b tail =>
          have hb : text.head? = some b := by
            rw [← List.take_append_drop cut text, hcases]
            rfl
          rw [← htext] at hb
          exact hb.symm
    have hmore := (Text.extends_all _).value hread (Or.inr hhead) text.length (text.drop cut)
      (List.length_take_le' _ _)
    rw [List.take_append_drop, hwhole] at hmore
    simp only [Option.some.injEq, Prod.mk.injEq, List.nil_append] at hmore
    have hlength := congrArg List.length hmore.2
    rw [List.length_drop, List.length_nil] at hlength
    omega
  · rfl

end Json

/-- The writer and the reader as a library. -/
def JsonLibrary.compact : JsonLibrary where
  dump := Json.dump
  parse := Json.parse
  parse_dump j _ hvalid := ⟨Json.Text.write j, if_pos hvalid, Json.parse_write j⟩
  dump_invalid _ _ hinvalid := if_neg hinvalid
  parse_prefix fields text cut _ htext hcut := by
    rw [Json.dump] at htext
    split at htext
    · obtain rfl := Except.ok.inj htext
      exact ⟨.parseError, Json.parse_write_take fields hcut⟩
    · simp at htext

theorem JsonLibrary.compact_parse {j : Json} (hreread : j.reread = j) : compact.parse (Json.Text.write j) = .ok j := by
  have hparse : compact.parse (Json.Text.write j) = .ok j.reread := Json.parse_write j
  rw [hparse, hreread]

theorem JsonLibrary.compact_dump {j : Json} {text : ByteString} (h : compact.dump j = .ok text) :
    Json.Text.write j = text := by
  change Json.dump j = .ok text at h
  rw [Json.dump] at h
  split at h
  · exact Except.ok.inj h
  · simp at h
