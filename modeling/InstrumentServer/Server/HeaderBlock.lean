import InstrumentServer.Lib.LengthFraming
import InstrumentServer.Server.ContentLength

/-!
# Header blocks

The head of an HTTP message as it is written: lines that end with a carriage return and a line feed, and an empty line. Lines that have neither character in them are read back as they are, and the empty line is where the head ends.
-/

namespace InstrumentServer

open ByteString

def crlf : ByteString := [13, 10]

/-- The lines, each with its end. -/
def headerText (lines : List ByteString) : ByteString := lines.flatMap (· ++ crlf)

/-- A head: its lines and an empty one. -/
def headerBlock (lines : List ByteString) : ByteString := headerText lines ++ crlf

/-- A line that is not empty and does not end early. -/
structure IsHeaderLine (line : ByteString) : Prop where
  nonempty : line ≠ []
  noReturn : 13 ∉ line
  noFeed : 10 ∉ line

/-! ### The lines that are read -/

theorem getLines_append {line : ByteString} (hline : 10 ∉ line) (rest : ByteString) :
    getLines (line ++ 10 :: rest) = line :: getLines rest := by
  induction line with
  | nil => rfl
  | cons b line ih =>
      rw [List.mem_cons, not_or] at hline
      rw [List.cons_append, getLines, if_neg (Ne.symm hline.1), ih hline.2]

theorem headerLines_append {line : ByteString} (hline : 10 ∉ line) (rest : ByteString) :
    headerLines (line ++ crlf ++ rest) = line :: headerLines rest := by
  have hreturn : 10 ∉ line ++ [13] := by simpa using hline
  have htext : line ++ crlf ++ rest = (line ++ [13]) ++ 10 :: rest := by simp [crlf]
  have htrim : trimCr (line ++ [13]) = line := by
    rw [trimCr, List.getLast?_concat, if_pos rfl, List.dropLast_concat]
  rw [headerLines, htext, getLines_append hreturn, List.map_cons, htrim]
  rfl

/-- A head is read as its lines and an empty one. -/
theorem headerLines_headerBlock {lines : List ByteString} (hlines : ∀ line ∈ lines, IsHeaderLine line) :
    headerLines (headerBlock lines) = lines ++ [[]] := by
  induction lines with
  | nil => rfl
  | cons line lines ih =>
      obtain ⟨hline, hrest⟩ := List.forall_mem_cons.mp hlines
      have htext : headerBlock (line :: lines) = line ++ crlf ++ headerBlock lines := by
        simp [headerBlock, headerText]
      rw [htext, headerLines_append hline.noFeed, ih hrest, List.cons_append]

/-! ### Where the head ends -/

theorem find?_skip {line : ByteString} (hline : 13 ∉ line) (text : ByteString) :
    find? Socket.endOfHeaders (line ++ text) = (find? Socket.endOfHeaders text).map (· + line.length) := by
  induction line with
  | nil => simp
  | cons b line ih =>
      rw [List.mem_cons, not_or] at hline
      have hnot : ¬ Socket.endOfHeaders.isPrefixOf (b :: (line ++ text)) = true := by
        rw [Socket.endOfHeaders, List.isPrefixOf_cons_cons, Bool.and_eq_true, beq_iff_eq]
        exact fun h => hline.1 h.1
      rw [List.cons_append, find?, if_neg hnot, ih hline.2, Option.map_map]
      rfl

/-- The end of a line is not the end of the head when another line follows. -/
theorem find?_crlf {b : UInt8} (hb : b ≠ 13) (text : ByteString) :
    find? Socket.endOfHeaders (crlf ++ b :: text) = (find? Socket.endOfHeaders (b :: text)).map (· + 2) := by
  have hnot : ¬ Socket.endOfHeaders.isPrefixOf (13 :: 10 :: b :: text) = true := by
    simp [Socket.endOfHeaders, List.isPrefixOf, Ne.symm hb]
  have hfeed : find? Socket.endOfHeaders (10 :: b :: text) = (find? Socket.endOfHeaders (b :: text)).map (· + 1) :=
    find?_skip (by decide : (13 : UInt8) ∉ [10]) (b :: text)
  have htext : crlf ++ b :: text = 13 :: 10 :: b :: text := rfl
  rw [htext, find?, if_neg hnot, hfeed, Option.map_map]
  rfl

/-- The empty line of a head is the first one of whatever begins with the head. -/
theorem find?_headerBlock {lines : List ByteString} (hsome : lines ≠ []) (hlines : ∀ line ∈ lines, IsHeaderLine line)
    (after : ByteString) :
    find? Socket.endOfHeaders (headerBlock lines ++ after) = some ((headerBlock lines).length - 4) := by
  induction lines with
  | nil => exact absurd rfl hsome
  | cons line lines ih =>
      obtain ⟨hline, hrest⟩ := List.forall_mem_cons.mp hlines
      have htext : headerBlock (line :: lines) ++ after = line ++ (crlf ++ (headerBlock lines ++ after)) := by
        simp [headerBlock, headerText]
      have hlength : (headerBlock (line :: lines)).length = line.length + 2 + (headerBlock lines).length := by
        simp [headerBlock, headerText, crlf]
        omega
      rw [htext, find?_skip hline.noReturn, hlength]
      cases lines with
      | nil =>
          have hhere : find? Socket.endOfHeaders (crlf ++ (headerBlock [] ++ after)) = some 0 :=
            find?_of_prefix (by decide) (List.prefix_append Socket.endOfHeaders after)
          rw [hhere]
          simp [headerBlock, headerText, crlf]
      | cons next lines =>
          obtain ⟨hnext, -⟩ := List.forall_mem_cons.mp hrest
          obtain ⟨b, next', rfl⟩ := List.exists_cons_of_ne_nil hnext.nonempty
          have hb : b ≠ 13 := fun heq => hnext.noReturn (heq ▸ List.mem_cons_self)
          have hcons : headerBlock ((b :: next') :: lines) ++ after =
              b :: (next' ++ crlf ++ headerText lines ++ crlf ++ after) := by
            simp [headerBlock, headerText]
          have hlong : 4 ≤ (headerBlock ((b :: next') :: lines)).length := by
            simp [headerBlock, headerText, crlf]
            omega
          rw [hcons, find?_crlf hb, ← hcons, ih (List.cons_ne_nil _ _) hrest]
          simp
          omega

theorem four_le_length_headerBlock {lines : List ByteString} (hsome : lines ≠ [])
    (hlines : ∀ line ∈ lines, IsHeaderLine line) : 4 ≤ (headerBlock lines).length := by
  obtain ⟨line, lines, rfl⟩ := List.exists_cons_of_ne_nil hsome
  have hpos := List.length_pos_iff.mpr (hlines line List.mem_cons_self).nonempty
  simp [headerBlock, headerText, crlf]
  omega

/-! ### Lines -/

/-- The field that announces a length. -/
def lengthLine (n : Nat) : ByteString := bytes "Content-Length: " ++ decimal n

theorem isHeaderLine_append {label text : ByteString} (hlabel : IsHeaderLine label) (htext : ∀ b ∈ text, 32 ≤ b) :
    IsHeaderLine (label ++ text) where
  nonempty := by simp [hlabel.nonempty]
  noReturn hmem := by
    rcases List.mem_append.mp hmem with h | h
    · exact hlabel.noReturn h
    · exact absurd (htext 13 h) (by decide)
  noFeed hmem := by
    rcases List.mem_append.mp hmem with h | h
    · exact hlabel.noFeed h
    · exact absurd (htext 10 h) (by decide)

theorem le_of_mem_decimal {n : Nat} {b : UInt8} (hb : b ∈ decimal n) : 32 ≤ b := by
  have hdigit := isDigit_of_mem_decimal hb
  simp only [isDigit, Bool.and_eq_true, decide_eq_true_eq, UInt8.le_iff_toNat_le] at hdigit
  have h48 : (48 : UInt8).toNat = 48 := rfl
  have h32 : (32 : UInt8).toNat = 32 := rfl
  rw [UInt8.le_iff_toNat_le]
  omega

theorem isHeaderLine_lengthLine (n : Nat) : IsHeaderLine (lengthLine n) :=
  isHeaderLine_append ⟨by decide, by decide, by decide⟩ fun _ hb => le_of_mem_decimal hb

theorem isLengthField_lengthLine (n : Nat) : isLengthField (lengthLine n) = true := by
  have hname : (lengthLine n).takeWhile (· ≠ 58) = bytes "Content-Length" := by
    have htext : lengthLine n = bytes "Content-Length" ++ 58 :: (32 :: decimal n) := rfl
    rw [htext, Lists.takeWhile_ne_append (by decide), List.takeWhile_cons_of_neg (by simp), List.append_nil]
  have hcolon : 58 ∈ lengthLine n := List.mem_append_left _ (by decide)
  rw [isLengthField, hname, decide_eq_true hcolon]
  decide

theorem fieldValue_lengthLine (n : Nat) : fieldValue (lengthLine n) = decimal n := by
  have htext : lengthLine n = bytes "Content-Length" ++ 58 :: (32 :: decimal n) := rfl
  rw [fieldValue, htext, Lists.dropWhile_ne_append (by decide)]
  have hspaces : ([32] : ByteString) ++ (decimal n ++ []) = 32 :: decimal n := by simp
  rw [List.dropWhile_cons_of_neg (by simp), List.drop_one, List.tail_cons, ← hspaces,
    dropWhile_isSpace (List.forall_mem_singleton.mpr (by decide)) (decimal_ne_nil n)
      fun _ hb => isDigit_of_mem_decimal hb, List.append_nil]

/-- The announced length of a head whose first length field is the line for `n`. -/
theorem announcedLength_headerBlock {before after : List ByteString} {n : Nat}
    (hlines : ∀ line ∈ before ++ lengthLine n :: after, IsHeaderLine line)
    (hbefore : ∀ line ∈ before, isLengthField line = false) (hn : n < 2 ^ 31) :
    announcedLength (headerBlock (before ++ lengthLine n :: after)) = n := by
  have hfind : (headerLines (headerBlock (before ++ lengthLine n :: after))).find? isLengthField = some (lengthLine n) := by
    rw [headerLines_headerBlock hlines, List.append_assoc, List.find?_append,
      List.find?_eq_none.mpr fun line hline => by simp [hbefore line hline], Option.none_or, List.cons_append,
      List.find?_cons_of_pos (isLengthField_lengthLine n)]
  have hdigits : (decimal n).all isDigit = true := List.all_eq_true.mpr fun _ hb => isDigit_of_mem_decimal hb
  rw [announcedLength, hfind]
  dsimp only
  rw [fieldValue_lengthLine, decimalLength, ofDecimal_decimal, if_pos ⟨decimal_ne_nil n, hdigits, by omega⟩]

end InstrumentServer
