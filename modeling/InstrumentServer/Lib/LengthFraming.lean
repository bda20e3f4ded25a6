import InstrumentServer.Lib.Strings

/-!
# Messages with a head and a counted body

A message is a head, which ends with the first occurrence of a delimiter, and a body, whose length can be read from the head. A reader waits until both are there. It gets a message whole from any text that begins with it, and nothing from a part of it: no cut message is taken for a complete one.
-/

namespace ByteString

/-- The head and the body at the front of a text, and what comes after them, once they are there. -/
def readMessage (delimiter : ByteString) (bodyLength : ByteString → Option Nat) (text : ByteString) :
    Option (ByteString × ByteString × ByteString) :=
  match find? delimiter text with
  | none => none
  | some pos =>
      let head := text.take (pos + delimiter.length)
      let rest := text.drop (pos + delimiter.length)
      match bodyLength head with
      | none => none
      | some n => if n ≤ rest.length then some (head, rest.take n, rest.drop n) else none

/-- A head that ends with its first delimiter and announces the length of the body. -/
structure IsMessage (delimiter : ByteString) (bodyLength : ByteString → Option Nat) (head body : ByteString) : Prop where
  ended : ∀ after, find? delimiter (head ++ after) = some (head.length - delimiter.length)
  long : delimiter.length ≤ head.length
  announced : bodyLength head = some body.length

variable {delimiter : ByteString} {bodyLength : ByteString → Option Nat} {head body : ByteString}

theorem IsMessage.read (hmessage : IsMessage delimiter bodyLength head body) (after : ByteString) :
    readMessage delimiter bodyLength (head ++ (body ++ after)) = some (head, body, after) := by
  have hpos : head.length - delimiter.length + delimiter.length = head.length := Nat.sub_add_cancel hmessage.long
  rw [readMessage, hmessage.ended]
  dsimp only
  rw [hpos, List.take_left, List.drop_left, hmessage.announced]
  dsimp only
  rw [if_pos (by simp), List.take_left, List.drop_left]

/-- A part of a message gives nothing. -/
theorem IsMessage.read_take (hdelimiter : delimiter ≠ []) (hmessage : IsMessage delimiter bodyLength head body)
    {size : Nat} (hsize : size < (head ++ body).length) :
    readMessage delimiter bodyLength ((head ++ body).take size) = none := by
  have hpos : head.length - delimiter.length + delimiter.length = head.length := Nat.sub_add_cancel hmessage.long
  rw [readMessage, find?_take hdelimiter (hmessage.ended body), hpos]
  by_cases hhead : head.length ≤ size
  · have htake : ((head ++ body).take size).take head.length = head := by
      rw [List.take_take, Nat.min_eq_left hhead, List.take_left]
    have hshort : (((head ++ body).take size).drop head.length).length < body.length := by
      rw [List.length_append] at hsize
      rw [List.length_drop, List.length_take, List.length_append]
      omega
    rw [if_pos hhead]
    dsimp only
    rw [hpos, htake, hmessage.announced]
    dsimp only
    rw [if_neg (not_le.mpr hshort)]
  · rw [if_neg hhead]

end ByteString
