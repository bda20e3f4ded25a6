import InstrumentServer.Server.HeaderBlock

/-!
# Sending a reply

`send_http_response` writes four header lines, an empty line and the body, and sends them in as many pieces as the connection takes. When a call of `send` fails the rest is dropped without a word, so the client may get a part of the reply only. A client that reads by `Content-Length` gets the status and the body from a whole reply, and nothing from a part: `readReply_sendHttpResponse`.
-/

namespace InstrumentServer

open ByteString

/-! ### `send_http_response` -/

def statusLine (statusCode : Nat) : ByteString := bytes "HTTP/1.0 " ++ decimal statusCode ++ bytes " "

def responseLines (statusCode : Nat) (body : ByteString) : List ByteString :=
  [statusLine statusCode, bytes "Content-Type: application/json", lengthLine body.length, bytes "Connection: close"]

def responseText (statusCode : Nat) (body : ByteString) : ByteString :=
  headerBlock (responseLines statusCode body) ++ body

inductive ReplyTransfer where
  /-- what reaches the client before the connection is closed -/
  | sent (wire : ByteString)
  /-- `send` is to read beyond the end of the string -/
  | outOfBounds
deriving DecidableEq

/-- The loop around `send`, with the number of bytes sent; nothing where `static_cast<int>` makes the length negative. The n-th call takes at most `takes n + 1` bytes, and none where it fails. -/
def sendRounds (takes : Nat → Option Nat) (s : ByteString) : Nat → Nat → Nat → Option Nat
  | 0, _, sent => some sent
  | rounds + 1, calls, sent =>
      if sent < s.length then
        let length := Int.bmod (s.length - sent : Nat) (2 ^ 32)
        if length < 0 then none
        else
          match takes calls with
          | none => some sent
          | some most =>
              let w := min length.toNat (most + 1)
              if w = 0 then some sent else sendRounds takes s rounds (calls + 1) (sent + w)
      else some sent

/-- The loop on a text; a round sends at least one byte, so as many rounds as there are bytes are enough. -/
def sendText (takes : Nat → Option Nat) (s : ByteString) : ReplyTransfer :=
  match sendRounds takes s s.length 0 0 with
  | none => .outOfBounds
  | some sent => .sent (s.take sent)

def sendHttpResponse (takes : Nat → Option Nat) (statusCode : Nat) (body : ByteString) : ReplyTransfer :=
  sendText takes (responseText statusCode body)

/-! ### A client -/

/-- The digits behind the version in the status line. -/
def statusOf (headers : ByteString) : Nat :=
  ofDecimal (((((headerLines headers).headD []).dropWhile (· ≠ 32)).drop 1).takeWhile isDigit)

def bodyLength (headers : ByteString) : Option Nat :=
  if announcedLength headers < 0 then none else some (announcedLength headers).toNat

/-- The status and the body of a reply, once it is there. -/
def readReply (wire : ByteString) : Option (Nat × ByteString) :=
  (readMessage Socket.endOfHeaders bodyLength wire).map fun message => (statusOf message.1, message.2.1)

/-! ### The loop -/

/-- A text that an `int` can count is sent from its beginning, and whole when no call fails. -/
theorem sendRounds_eq {takes : Nat → Option Nat} {s : ByteString} (hsize : s.length < 2 ^ 31) {rounds calls sent : Nat}
    (hrounds : s.length ≤ sent + rounds) :
    ∃ total, sendRounds takes s rounds calls sent = some total ∧
      ((∀ call, (takes call).isSome = true) → s.length ≤ total) := by
  induction rounds generalizing calls sent with
  | zero => exact ⟨sent, rfl, fun _ => hrounds⟩
  | succ rounds ih =>
      rw [sendRounds]
      by_cases hleft : sent < s.length
      · have hlength : Int.bmod (s.length - sent : Nat) (2 ^ 32) = ((s.length - sent : Nat) : Int) :=
          Int.bmod_eq_of_le (by omega) (by omega)
        rw [if_pos hleft, hlength]
        dsimp only
        rw [if_neg (by omega)]
        cases htakes : takes calls with
        | none =>
            refine ⟨sent, rfl, fun hall => ?_⟩
            have hsome := hall calls
            simp [htakes] at hsome
        | some most =>
            dsimp only
            rw [if_neg (by omega)]
            exact ih (by omega)
      · rw [if_neg hleft]
        exact ⟨sent, rfl, fun _ => not_lt.mp hleft⟩

theorem sendText_eq (takes : Nat → Option Nat) {s : ByteString} (hsize : s.length < 2 ^ 31) :
    ∃ total, sendText takes s = .sent (s.take total) ∧ ((∀ call, (takes call).isSome = true) → s.length ≤ total) := by
  obtain ⟨total, htotal, hall⟩ := @sendRounds_eq takes s hsize s.length 0 0 (by omega)
  exact ⟨total, by rw [sendText, htotal], hall⟩

/-! ### The reply as a message -/

theorem isHeaderLine_statusLine (statusCode : Nat) : IsHeaderLine (statusLine statusCode) := by
  rw [statusLine, List.append_assoc]
  refine isHeaderLine_append ⟨by decide, by decide, by decide⟩ fun b hb => ?_
  rcases List.mem_append.mp hb with hdigit | hspace
  · exact le_of_mem_decimal hdigit
  · rw [List.mem_singleton.mp hspace]
    decide

theorem isHeaderLine_responseLines (statusCode : Nat) (body : ByteString) :
    ∀ line ∈ responseLines statusCode body, IsHeaderLine line := by
  simp only [responseLines, List.forall_mem_cons]
  exact ⟨isHeaderLine_statusLine statusCode, ⟨by decide, by decide, by decide⟩, isHeaderLine_lengthLine _,
    ⟨by decide, by decide, by decide⟩, fun _ h => absurd h List.not_mem_nil⟩

theorem statusLine_not_isLengthField (statusCode : Nat) : isLengthField (statusLine statusCode) = false := by
  rw [isLengthField, Bool.and_eq_false_iff]
  refine Or.inl (decide_eq_false fun hcolon => ?_)
  rw [statusLine, List.append_assoc, List.mem_append, List.mem_append] at hcolon
  rcases hcolon with hlabel | hdigit | hspace
  · exact absurd hlabel (by decide)
  · exact absurd (isDigit_of_mem_decimal hdigit) (by decide)
  · exact absurd hspace (by decide)

theorem announcedLength_responseLines (statusCode : Nat) {body : ByteString} (hsize : body.length < 2 ^ 31) :
    announcedLength (headerBlock (responseLines statusCode body)) = body.length := by
  refine @announcedLength_headerBlock [statusLine statusCode, bytes "Content-Type: application/json"]
    [bytes "Connection: close"] body.length (isHeaderLine_responseLines statusCode body) ?_ hsize
  simp only [List.forall_mem_cons]
  exact ⟨statusLine_not_isLengthField statusCode, by decide, fun _ h => absurd h List.not_mem_nil⟩

theorem isMessage_responseText (statusCode : Nat) {body : ByteString} (hsize : body.length < 2 ^ 31) :
    IsMessage Socket.endOfHeaders bodyLength (headerBlock (responseLines statusCode body)) body where
  ended := find?_headerBlock (List.cons_ne_nil _ _) (isHeaderLine_responseLines statusCode body)
  long := four_le_length_headerBlock (List.cons_ne_nil _ _) (isHeaderLine_responseLines statusCode body)
  announced := by
    rw [bodyLength, announcedLength_responseLines statusCode hsize, if_neg (by omega), Int.toNat_natCast]

theorem statusOf_responseLines (statusCode : Nat) (body : ByteString) :
    statusOf (headerBlock (responseLines statusCode body)) = statusCode := by
  have hline : statusLine statusCode = bytes "HTTP/1.0" ++ 32 :: (decimal statusCode ++ [32]) := by
    simp [statusLine, show bytes "HTTP/1.0 " = bytes "HTTP/1.0" ++ [32] by decide, show bytes " " = [32] by decide]
  have hfirst : (headerLines (headerBlock (responseLines statusCode body))).headD [] = statusLine statusCode := by
    rw [headerLines_headerBlock (isHeaderLine_responseLines statusCode body), responseLines, List.cons_append, List.headD_cons]
  rw [statusOf, hfirst, hline, Lists.dropWhile_ne_append (by decide), List.dropWhile_cons_of_neg (by simp), List.drop_one,
    List.tail_cons, takeWhile_isDigit (fun _ hb => isDigit_of_mem_decimal hb) (List.forall_mem_singleton.mpr (by decide)),
    ofDecimal_decimal]

/-- A client reads the status and the body of a whole reply, and nothing from a part of it. -/
theorem readReply_take (statusCode : Nat) {body : ByteString} (hsize : body.length < 2 ^ 31) (size : Nat) :
    readReply ((responseText statusCode body).take size) =
      if (responseText statusCode body).length ≤ size then some (statusCode, body) else none := by
  have hmessage := isMessage_responseText statusCode hsize
  rw [readReply]
  split
  · rename_i hwhole
    have hread := hmessage.read []
    rw [List.append_nil] at hread
    rw [List.take_of_length_le hwhole, responseText, hread, Option.map_some, statusOf_responseLines]
  · rename_i hpart
    rw [responseText, hmessage.read_take (by decide) (not_le.mp hpart), Option.map_none]

/-- However the connection takes the reply, the client gets the status and the body, or it gets nothing and a call of `send` has failed. -/
theorem readReply_sendHttpResponse (takes : Nat → Option Nat) (statusCode : Nat) (body : ByteString)
    (hsize : (responseText statusCode body).length < 2 ^ 31) :
    ∃ wire, sendHttpResponse takes statusCode body = .sent wire ∧ wire <+: responseText statusCode body ∧
      readReply wire = (if wire = responseText statusCode body then some (statusCode, body) else none) ∧
      ((∀ call, (takes call).isSome = true) → wire = responseText statusCode body) := by
  obtain ⟨total, hsent, hall⟩ := sendText_eq takes hsize
  have hbody : body.length < 2 ^ 31 := by
    rw [responseText, List.length_append] at hsize
    omega
  have hwhole : (responseText statusCode body).take total = responseText statusCode body ↔
      (responseText statusCode body).length ≤ total := List.take_eq_self_iff _
  refine ⟨(responseText statusCode body).take total, hsent, List.take_prefix _ _, ?_, ?_⟩
  · rw [readReply_take statusCode hbody, if_congr hwhole.symm rfl rfl]
  · exact fun hsome => hwhole.mpr (hall hsome)

/-- The connection takes ten bytes and then fails. -/
theorem readReply_sendHttpResponse_cut :
    ∃ wire, sendHttpResponse (fun call => if call = 0 then some 9 else none) 200 (bytes "\x7b\x7d") = .sent wire ∧
      wire <+: responseText 200 (bytes "\x7b\x7d") ∧
      readReply wire = (if wire = responseText 200 (bytes "\x7b\x7d") then some (200, bytes "\x7b\x7d") else none) ∧
      ((∀ call, ((fun call => if call = 0 then some 9 else none : Nat → Option Nat) call).isSome = true) →
        wire = responseText 200 (bytes "\x7b\x7d")) := by
  have hlength : (responseText 200 (bytes "\x7b\x7d")).length = 89 := by decide +kernel
  exact readReply_sendHttpResponse _ 200 (bytes "\x7b\x7d") (by omega)

end InstrumentServer
