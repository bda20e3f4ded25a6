import InstrumentServer.Lib.Bytes
import Mathlib.Data.List.TakeWhile

/-!
# Functions of the C++ library on strings

`std::string::find`, `std::getline`, the classification and conversion of characters in the "C" locale, and `std::stoi`. The first occurrence of a pattern does not depend on what follows it, and a part of a text that ends before the end of that occurrence has none: `find?_take`.
-/

namespace ByteString

/-! ### `find` -/

/-- The position of the first occurrence of a pattern. -/
def find? (pattern : ByteString) : ByteString → Option Nat
  | [] => if pattern = [] then some 0 else none
  | b :: rest => if pattern.isPrefixOf (b :: rest) then some 0 else (find? pattern rest).map (· + 1)

variable {pattern : ByteString}

theorem find?_of_prefix {text : ByteString} (hpattern : pattern ≠ []) (hstart : pattern <+: text) :
    find? pattern text = some 0 := by
  cases text with
  | nil => exact absurd (List.prefix_nil.mp hstart) hpattern
  | cons b rest => rw [find?, if_pos (List.isPrefixOf_iff_prefix.mpr hstart)]

theorem find?_of_short {text : ByteString} (hshort : text.length < pattern.length) : find? pattern text = none := by
  have hpattern : pattern ≠ [] := by
    rintro rfl
    exact absurd hshort (Nat.not_lt_zero _)
  induction text with
  | nil => rw [find?, if_neg hpattern]
  | cons b rest ih =>
      have hnot : ¬ pattern.isPrefixOf (b :: rest) := by
        intro hstart
        exact absurd (List.isPrefixOf_iff_prefix.mp hstart).length_le (not_le.mpr hshort)
      rw [find?, if_neg hnot, ih (Nat.lt_of_succ_lt hshort)]
      rfl

/-- What is found in a text is found in the parts that reach over the whole occurrence, and in no shorter part. -/
theorem find?_take {text : ByteString} {position : Nat} (hpattern : pattern ≠ [])
    (hfind : find? pattern text = some position) (length : Nat) :
    find? pattern (text.take length) = if position + pattern.length ≤ length then some position else none := by
  have hpos : 0 < pattern.length := List.length_pos_iff.mpr hpattern
  induction text generalizing position length with
  | nil =>
      rw [find?, if_neg hpattern] at hfind
      contradiction
  | cons b rest ih =>
      rw [find?] at hfind
      split at hfind
      · rename_i hstart
        obtain rfl := Option.some.inj hfind
        split
        · rename_i hlength
          apply find?_of_prefix hpattern
          exact List.prefix_take_iff.mpr ⟨List.isPrefixOf_iff_prefix.mp hstart, by omega⟩
        · apply find?_of_short
          have hle := List.length_take_le length (b :: rest)
          omega
      · rename_i hnot
        obtain ⟨before, hbefore, rfl⟩ := Option.map_eq_some_iff.mp hfind
        cases length with
        | zero =>
            have hshort : ([] : ByteString).length < pattern.length := hpos
            rw [List.take_zero, find?_of_short hshort, if_neg (by omega)]
        | succ length =>
            have hnot' : ¬ pattern.isPrefixOf (b :: rest.take length) := by
              intro hstart
              apply hnot
              have hwhole : (b :: rest.take length) <+: b :: rest := (List.prefix_cons_inj b).mpr (List.take_prefix _ _)
              exact List.isPrefixOf_iff_prefix.mpr ((List.isPrefixOf_iff_prefix.mp hstart).trans hwhole)
            rw [List.take_succ_cons, find?, if_neg hnot', ih hbefore]
            by_cases hlength : before + pattern.length ≤ length
            · rw [if_pos hlength, if_pos (by omega)]
              rfl
            · rw [if_neg hlength, if_neg (by omega)]
              rfl

/-- A text has an occurrence exactly where something is found. -/
theorem find?_eq_none_iff {text : ByteString} : find? pattern text = none ↔ ¬ pattern <:+: text := by
  induction text with
  | nil =>
      rw [find?, List.infix_nil]
      split <;> simp [*]
  | cons b rest ih =>
      rw [find?, List.infix_cons_iff, not_or, ← List.isPrefixOf_iff_prefix]
      split
      · rename_i hstart
        simp [hstart]
      · rename_i hnot
        rw [Option.map_eq_none_iff, ih]
        exact ⟨fun hrest => ⟨hnot, hrest⟩, And.right⟩

theorem find?_eq_some_iff {text : ByteString} {position : Nat} :
    find? pattern text = some position ↔
      position ≤ text.length ∧ pattern <+: text.drop position ∧
        ∀ earlier < position, ¬ pattern <+: text.drop earlier := by
  induction text generalizing position with
  | nil =>
      rw [find?, List.drop_nil, List.prefix_nil]
      constructor
      · intro hfind
        split at hfind
        · rename_i hpattern
          obtain rfl := Option.some.inj hfind
          exact ⟨le_rfl, hpattern, fun earlier hearlier => absurd hearlier (Nat.not_lt_zero _)⟩
        · contradiction
      · rintro ⟨hposition, hpattern, -⟩
        rw [if_pos hpattern, Nat.le_zero.mp hposition]
  | cons b rest ih =>
      rw [find?]
      by_cases hstart : pattern.isPrefixOf (b :: rest)
      · have hprefix := List.isPrefixOf_iff_prefix.mp hstart
        rw [if_pos hstart, Option.some_inj]
        constructor
        · rintro rfl
          exact ⟨Nat.zero_le _, hprefix, fun earlier hearlier => absurd hearlier (Nat.not_lt_zero _)⟩
        · rintro ⟨-, -, hfirst⟩
          by_contra hne
          exact hfirst 0 (by omega) hprefix
      · have hnot : ¬ pattern <+: b :: rest := fun h => hstart (List.isPrefixOf_iff_prefix.mpr h)
        rw [if_neg hstart, Option.map_eq_some_iff]
        constructor
        · rintro ⟨before, hbefore, rfl⟩
          obtain ⟨hle, hprefix, hfirst⟩ := ih.mp hbefore
          refine ⟨Nat.succ_le_succ hle, hprefix, fun earlier hearlier => ?_⟩
          cases earlier with
          | zero => exact hnot
          | succ earlier => exact hfirst earlier (Nat.lt_of_succ_lt_succ hearlier)
        · rintro ⟨hle, hprefix, hfirst⟩
          cases position with
          | zero => exact absurd hprefix hnot
          | succ before =>
              refine ⟨before, ih.mpr ⟨Nat.le_of_succ_le_succ hle, hprefix, fun earlier hearlier => ?_⟩, rfl⟩
              exact hfirst (earlier + 1) (Nat.succ_lt_succ hearlier)

/-- The pattern between `before` and `after` is its first occurrence in the text of the three. -/
def IsFirst (pattern before after : ByteString) : Prop :=
  ∀ left right, before ++ (pattern ++ after) = left ++ (pattern ++ right) → before.length ≤ left.length

theorem find?_of_isFirst {before after : ByteString} (hfirst : IsFirst pattern before after) :
    find? pattern (before ++ (pattern ++ after)) = some before.length := by
  refine find?_eq_some_iff.mpr ⟨by simp, ?_, fun earlier hearlier hprefix => ?_⟩
  · rw [List.drop_left]
    exact List.prefix_append _ _
  · obtain ⟨right, hright⟩ := hprefix
    have hlength : ((before ++ (pattern ++ after)).take earlier).length = earlier := by
      rw [List.length_take, List.length_append]
      omega
    have hle := hfirst ((before ++ (pattern ++ after)).take earlier) right (by rw [hright, List.take_append_drop])
    omega

/-! ### Lines and words -/

/-- The lines `std::getline` reads one after the other: what ends with a line feed, and what is left at the end. -/
def getLines : ByteString → List ByteString
  | [] => []
  | b :: rest =>
      if b = 10 then [] :: getLines rest
      else
        match getLines rest with
        | [] => [[b]]
        | line :: lines => (b :: line) :: lines

def isSpace (b : UInt8) : Bool := b = 32 || 9 ≤ b && b ≤ 13

def toLower (b : UInt8) : UInt8 := if 65 ≤ b && b ≤ 90 then b + 32 else b

/-- What a sequence of `>>` reads from a text. -/
def words (text : ByteString) : List ByteString := text.splitOnP isSpace |>.filter (· ≠ [])

/-! ### `stoi` -/

/-- A number, if an `int` can hold it. -/
def asInt (value : Int) : Option Int := if -2 ^ 31 ≤ value ∧ value < 2 ^ 31 then some value else none

/-- Spaces, a sign, digits, and anything after them; nothing without digits or beyond the range of an `int`. -/
def stoi (text : ByteString) : Option Int :=
  let text := text.dropWhile isSpace
  let (negative, text) :=
    match text with
    | 45 :: rest => (true, rest)
    | 43 :: rest => (false, rest)
    | _ => (false, text)
  let digits := text.takeWhile isDigit
  if digits = [] then none
  else
    asInt (if negative then -(ofDecimal digits : Int) else ofDecimal digits)

theorem not_isSpace_of_isDigit {b : UInt8} (hdigit : isDigit b = true) : isSpace b = false := by
  simp only [isDigit, Bool.and_eq_true, decide_eq_true_eq, UInt8.le_iff_toNat_le] at hdigit
  simp only [isSpace, Bool.or_eq_false_iff, Bool.and_eq_false_iff, decide_eq_false_iff_not, UInt8.le_iff_toNat_le,
    ← UInt8.toNat_inj]
  obtain ⟨hlow, -⟩ := hdigit
  have h48 : (48 : UInt8).toNat = 48 := rfl
  have h32 : (32 : UInt8).toNat = 32 := rfl
  have h13 : (13 : UInt8).toNat = 13 := rfl
  constructor
  · omega
  · exact Or.inr (by omega)

/-- The digits at the front of a text that goes on with a space. -/
theorem takeWhile_isDigit {digits rest : ByteString} (hdigit : ∀ b ∈ digits, isDigit b = true)
    (hrest : ∀ b ∈ rest, isSpace b = true) : (digits ++ rest).takeWhile isDigit = digits := by
  rw [List.takeWhile_append_of_pos hdigit]
  cases rest with
  | nil => simp
  | cons b rest =>
      have hspace := hrest b List.mem_cons_self
      have hnot : ¬ isDigit b = true := by
        intro hb
        rw [not_isSpace_of_isDigit hb] at hspace
        contradiction
      rw [List.takeWhile_cons_of_neg hnot, List.append_nil]

theorem dropWhile_isSpace {spaces digits rest : ByteString} (hspaces : ∀ b ∈ spaces, isSpace b = true)
    (hdigits : digits ≠ []) (hdigit : ∀ b ∈ digits, isDigit b = true) :
    (spaces ++ (digits ++ rest)).dropWhile isSpace = digits ++ rest := by
  rw [List.dropWhile_append_of_pos hspaces]
  cases digits with
  | nil => exact absurd rfl hdigits
  | cons d ds =>
      have hd := not_isSpace_of_isDigit (hdigit d List.mem_cons_self)
      rw [List.cons_append, List.dropWhile_cons_of_neg (by simp [hd])]

/-- A number between spaces is read as it is, when it is an `int`. -/
theorem stoi_digits {spaces digits rest : ByteString} (hspaces : ∀ b ∈ spaces, isSpace b = true) (hdigits : digits ≠ [])
    (hdigit : ∀ b ∈ digits, isDigit b = true) (hrest : ∀ b ∈ rest, isSpace b = true) :
    stoi (spaces ++ (digits ++ rest)) = if ofDecimal digits < 2 ^ 31 then some (ofDecimal digits : Int) else none := by
  have hunsigned : ∀ b ∈ digits, b ≠ 45 ∧ b ≠ 43 := by
    intro b hb
    have hdig := hdigit b hb
    constructor <;>
    · rintro rfl
      contradiction
  rw [stoi, dropWhile_isSpace hspaces hdigits hdigit]
  split
  rename_i negative text hsign
  have hplain : negative = false ∧ text = digits ++ rest := by
    split at hsign
    · rename_i heq
      cases digits with
      | nil => exact absurd rfl hdigits
      | cons d ds => exact absurd (List.cons.inj heq).1 (hunsigned d List.mem_cons_self).1
    · rename_i heq
      cases digits with
      | nil => exact absurd rfl hdigits
      | cons d ds => exact absurd (List.cons.inj heq).1 (hunsigned d List.mem_cons_self).2
    · exact ⟨(Prod.mk.inj hsign).1.symm, (Prod.mk.inj hsign).2.symm⟩
  obtain ⟨rfl, rfl⟩ := hplain
  rw [takeWhile_isDigit hdigit hrest, if_neg hdigits, if_neg Bool.false_ne_true, asInt]
  by_cases hsmall : ofDecimal digits < 2 ^ 31
  · rw [if_pos hsmall, if_pos (by omega)]
  · rw [if_neg hsmall, if_neg (by omega)]

theorem asInt_range {value result : Int} (h : asInt value = some result) : -2 ^ 31 ≤ result ∧ result < 2 ^ 31 := by
  rw [asInt] at h
  split at h
  · rename_i hrange
    exact Option.some.inj h ▸ hrange
  · contradiction

theorem stoi_range {text : ByteString} {value : Int} (h : stoi text = some value) : -2 ^ 31 ≤ value ∧ value < 2 ^ 31 := by
  rw [stoi] at h
  split at h
  rename_i negative digits _
  by_cases hdigits : digits.takeWhile isDigit = []
  · rw [if_pos hdigits] at h
    contradiction
  · rw [if_neg hdigits] at h
    exact asInt_range h

end ByteString
