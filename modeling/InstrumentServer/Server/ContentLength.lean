import InstrumentServer.Server.RequestBody

/-!
# Recognising the length of the body

`parse_content_length` takes the first line in which `content-length:` stands anywhere, and reads a number from what follows, whatever comes behind the digits. What is meant is the field with that name and a value of digits only, `announcedLength`. The two agree as long as the line that decides is the field itself, or happens to carry the announced number: `parseContentLength_eq_announcedLength_iff`.
-/

namespace InstrumentServer

open ByteString

/-! ### The field -/

/-- What stands before the first colon of the line is `content-length`, in any case. -/
def isLengthField (line : ByteString) : Bool :=
  decide (58 ∈ line) && decide ((line.takeWhile (· ≠ 58)).map toLower = bytes "content-length")

/-- What stands behind the first colon and white space. -/
def fieldValue (line : ByteString) : ByteString := ((line.dropWhile (· ≠ 58)).drop 1).dropWhile ByteString.isSpace

/-- The number a value of decimal digits denotes, if an `int` can hold it, and otherwise -1. -/
def decimalLength (value : ByteString) : Int :=
  if value ≠ [] ∧ value.all isDigit ∧ ofDecimal value ≤ 2 ^ 31 - 1 then ofDecimal value else -1

/-- The value of the first field with the name. -/
def announcedLength (headers : ByteString) : Int :=
  match (headerLines headers).find? isLengthField with
  | some line => decimalLength (fieldValue line)
  | none => -1

/-! ### What is read -/

/-- What `stoi` is given for a line that mentions the label at a position. -/
def lengthText (line : ByteString) (pos : Nat) : ByteString :=
  (line.drop (pos + contentLengthLabel.length)).dropWhile ByteString.isSpace

def mentions (line : ByteString) : Bool := (mention line).isSome

/-- The text begins with the number, or with none and the number is -1. -/
def CarriesNumber (text : ByteString) (n : Int) : Prop := ByteString.stoi text = some n ∨ ByteString.stoi text = none ∧ n = -1

/-- The line that decides, if there is one, is the field with nothing but digits in its value or without any number other than -1, or it carries the announced number. -/
def DecidedByField (headers : ByteString) : Prop :=
  ∀ line pos, (headerLines headers).find? mentions = some line → mention line = some pos →
    if isLengthField line then (∀ b ∈ fieldValue line, isDigit b = true) ∨ CarriesNumber (fieldValue line) (-1)
    else CarriesNumber (lengthText line pos) (announcedLength headers)

theorem carriesNumber_iff {text : ByteString} {n : Int} : CarriesNumber text n ↔ (ByteString.stoi text).getD (-1) = n := by
  rw [CarriesNumber]
  cases ByteString.stoi text with
  | none => simp [eq_comm]
  | some value => simp

/-- The first line that mentions the label is the one that counts. -/
theorem parseContentLength_eq (headers : ByteString) :
    parseContentLength headers = (((headerLines headers).find? mentions).bind mentionedLength).getD (-1) := by
  rw [parseContentLength]
  congr 1
  induction headerLines headers with
  | nil => rfl
  | cons line lines ih =>
      rw [List.findSome?_cons, List.find?_cons]
      cases hmention : mention line with
      | none => rw [mentions, hmention, mentionedLength, hmention]; exact ih
      | some pos => rw [mentions, hmention, mentionedLength, hmention]; simp [mentionedLength, hmention]

/-- The field mentions the label at its beginning, with its value behind it. -/
theorem mention_of_isLengthField {line : ByteString} (hfield : isLengthField line = true) :
    mention line = some 0 ∧ lengthText line 0 = fieldValue line := by
  rw [isLengthField, Bool.and_eq_true, decide_eq_true_eq, decide_eq_true_eq] at hfield
  obtain ⟨hcolon, hname⟩ := hfield
  obtain ⟨rest, hrest⟩ := Lists.dropWhile_ne_of_mem hcolon
  have hline : line = line.takeWhile (· ≠ 58) ++ 58 :: rest := by
    rw [← hrest, List.takeWhile_append_dropWhile]
  have hlength : (line.takeWhile (· ≠ 58)).length = 14 := by
    rw [← List.length_map toLower, hname]
    rfl
  have hlabel : contentLengthLabel = bytes "content-length" ++ [58] := by decide
  constructor
  · apply find?_of_prefix (by decide)
    rw [hline, List.map_append, hname, hlabel, List.map_cons]
    exact (List.prefix_append_right_inj _).mpr ((List.prefix_cons_inj _).mpr List.nil_prefix)
  · rw [lengthText, fieldValue, hrest]
    congr 1
    conv_lhs => rw [hline]
    rw [show 0 + contentLengthLabel.length = (line.takeWhile (· ≠ 58)).length + 1 by rw [hlength]; rfl,
      List.drop_append]
    simp

/-- A value is read as it is meant when it is all digits, and otherwise when no number begins it. -/
theorem carriesNumber_decimalLength_iff (value : ByteString) :
    CarriesNumber value (decimalLength value) ↔ (∀ b ∈ value, isDigit b = true) ∨ CarriesNumber value (-1) := by
  by_cases hdigits : ∀ b ∈ value, isDigit b = true
  · refine iff_of_true ?_ (Or.inl hdigits)
    rw [carriesNumber_iff, decimalLength]
    by_cases hempty : value = []
    · rw [if_neg fun h => h.1 hempty, hempty]
      rfl
    · have hstoi : ByteString.stoi value = if ofDecimal value < 2 ^ 31 then some (ofDecimal value : Int) else none := by
        simpa using @stoi_digits [] value [] (by simp) hempty hdigits (by simp)
      rw [hstoi]
      by_cases hsmall : ofDecimal value < 2 ^ 31
      · rw [if_pos hsmall, if_pos ⟨hempty, List.all_eq_true.mpr hdigits, by omega⟩]
        rfl
      · rw [if_neg hsmall, if_neg fun h => by omega]
        rfl
  · rw [decimalLength, if_neg fun h => hdigits (List.all_eq_true.mp h.2.1)]
    exact ⟨Or.inr, fun h => h.resolve_left hdigits⟩

/-- The length that is read is the announced one exactly when the line that decides carries it. -/
theorem parseContentLength_eq_announcedLength_iff (headers : ByteString) :
    parseContentLength headers = announcedLength headers ↔ DecidedByField headers := by
  rw [parseContentLength_eq, DecidedByField]
  cases hfind : (headerLines headers).find? mentions with
  | none =>
      have hnone : (headerLines headers).find? isLengthField = none := by
        rw [List.find?_eq_none] at hfind ⊢
        intro line hline hfield
        exact hfind line hline (by rw [mentions, (mention_of_isLengthField hfield).1]; rfl)
      simp [announcedLength, hnone]
  | some line =>
      have hmentions : mentions line = true := List.find?_some hfind
      obtain ⟨pos, hpos⟩ := Option.isSome_iff_exists.mp hmentions
      have hread : ((some line).bind mentionedLength).getD (-1) = (ByteString.stoi (lengthText line pos)).getD (-1) := by
        rw [Option.bind_some, mentionedLength, hpos]
        rfl
      have hcond : (∀ line' pos', some line = some line' → mention line' = some pos' →
          if isLengthField line' then (∀ b ∈ fieldValue line', isDigit b = true) ∨ CarriesNumber (fieldValue line') (-1)
          else CarriesNumber (lengthText line' pos') (announcedLength headers)) ↔
          if isLengthField line then (∀ b ∈ fieldValue line, isDigit b = true) ∨ CarriesNumber (fieldValue line) (-1)
          else CarriesNumber (lengthText line pos) (announcedLength headers) := by
        constructor
        · intro h
          exact h line pos rfl hpos
        · rintro h _ pos' ⟨⟩ hpos'
          obtain rfl := Option.some.inj (hpos.symm.trans hpos')
          exact h
      rw [hread, hcond, ← carriesNumber_iff]
      by_cases hfield : isLengthField line = true
      · obtain ⟨hzero, htext⟩ := mention_of_isLengthField hfield
        obtain rfl := Option.some.inj (hpos.symm.trans hzero)
        -- the first line that mentions the label is then also the first field with the name
        have hfirst : (headerLines headers).find? isLengthField = some line := by
          obtain ⟨-, before, after, hlines, hbefore⟩ := List.find?_eq_some_iff_append.mp hfind
          refine List.find?_eq_some_iff_append.mpr ⟨hfield, before, after, hlines, fun other hother => ?_⟩
          by_contra hnot
          rw [Bool.not_eq_true, Bool.not_eq_false'] at hnot
          have hno := hbefore other hother
          rw [mentions, (mention_of_isLengthField hnot).1] at hno
          contradiction
        rw [if_pos hfield, htext, announcedLength, hfirst]
        exact carriesNumber_decimalLength_iff _
      · rw [if_neg hfield]

/-! ### A field with a longer name -/

/-- Another field, whose name ends in the label, comes before the length. -/
def originalLengthHeaders : ByteString :=
  bytes "POST /rpc HTTP/1.1\r\nX-Content-Length: 7\r\nContent-Length: 2\r\n\r\n"

theorem parseContentLength_originalLengthHeaders :
    parseContentLength originalLengthHeaders = 7 ∧ announcedLength originalLengthHeaders = 2 := by
  decide +kernel

end InstrumentServer
