import InstrumentServer.Server.RequestBody

/-!
# The headers of a request

`read_http_headers` gives the headers whole and loses nothing of what came with them, however the network cuts the stream: `readHttpHeaders_of_isFirst`. A stream without a blank line gives nothing.
-/

namespace InstrumentServer

open ByteString

namespace Socket

/-- What `recv` gives and what it leaves are the stream. -/
theorem recv_cases {s s' : Socket} {length : Nat} {piece : ByteString} (hrecv : s.recv length = some (piece, s')) :
    piece ++ s'.stream = s.stream ∧ piece.length ≤ length := by
  rw [recv] at hrecv
  split at hrecv
  · contradiction
  · obtain ⟨rfl, rfl⟩ := Prod.mk.inj (Option.some.inj hrecv)
    refine ⟨List.take_append_drop _ _, ?_⟩
    rw [List.length_take]
    omega

/-- Headers that are read end with a blank line that the stream had. -/
theorem headerRounds_none {rounds : Nat} {outHeaders : ByteString} {s : Socket}
    (hnone : ¬ endOfHeaders <:+: outHeaders ++ s.stream) : headerRounds rounds outHeaders s = none := by
  induction rounds generalizing outHeaders s with
  | zero => rfl
  | succ rounds ih =>
      rw [headerRounds]
      split
      · cases hrecv : s.recv 1024 with
        | none => rfl
        | some received =>
            obtain ⟨piece, s'⟩ := received
            obtain ⟨hstream, -⟩ := recv_cases hrecv
            rw [← hstream, ← List.append_assoc] at hnone
            have hfind : find? endOfHeaders (outHeaders ++ piece) = none := by
              rw [find?_eq_none_iff]
              intro hoccurs
              exact hnone (hoccurs.trans (List.prefix_append _ _).isInfix)
            dsimp only
            rw [hfind]
            exact ih hnone
      · rfl

/-- The headers up to the first blank line, within the limit, are read in any pieces, and what came beyond them is kept. -/
theorem readHttpHeaders_of_isFirst {before after : ByteString} (hfirst : IsFirst endOfHeaders before after)
    (hwithin : (before ++ endOfHeaders).length ≤ maxHeaderRead) (sizes : Nat → Nat) :
    ∃ extraData s, readHttpHeaders ⟨before ++ (endOfHeaders ++ after), sizes, 0⟩ =
        some (before ++ endOfHeaders, extraData, s) ∧
      before ++ endOfHeaders ++ extraData ++ s.stream = before ++ (endOfHeaders ++ after) ∧
      before ++ endOfHeaders ++ extraData = (before ++ (endOfHeaders ++ after)).take (granted sizes s.calls) := by
  have hlength : (before ++ endOfHeaders).length = before.length + 4 := List.length_append
  have htotal : (before ++ (endOfHeaders ++ after)).length = before.length + (4 + after.length) := by
    rw [List.length_append, List.length_append]
    rfl
  obtain ⟨last, -, hnext, hread⟩ := readHttpHeaders_eq sizes (find?_of_isFirst hfirst) (by omega) (by omega)
  have htake : (before ++ (endOfHeaders ++ after)).take (before.length + 4) = before ++ endOfHeaders := by
    rw [← List.append_assoc, ← hlength, List.take_left]
  have hreceived : before ++ endOfHeaders ++
      ((before ++ (endOfHeaders ++ after)).take (granted sizes (last + 1))).drop (before.length + 4) =
        (before ++ (endOfHeaders ++ after)).take (granted sizes (last + 1)) := by
    conv_rhs => rw [← List.take_append_drop (before.length + 4) (List.take _ _)]
    rw [List.take_take, Nat.min_eq_left hnext, htake]
  rw [htake] at hread
  refine ⟨_, _, hread, ?_, hreceived⟩
  rw [hreceived]
  exact List.take_append_drop _ _

end Socket

open Socket

/-- Reading the headers does not depend on how the stream is cut: with a first blank line within the limit they are read up to it and all that was received is kept, and without one nothing is read. -/
theorem readHttpHeaders_any_pieces (stream : ByteString) (sizes : Nat → Nat) :
    (∀ before after, stream = before ++ (endOfHeaders ++ after) → IsFirst endOfHeaders before after →
      (before ++ endOfHeaders).length ≤ maxHeaderRead →
        ∃ extraData s, readHttpHeaders ⟨stream, sizes, 0⟩ = some (before ++ endOfHeaders, extraData, s) ∧
          before ++ endOfHeaders ++ extraData ++ s.stream = stream ∧
          before ++ endOfHeaders ++ extraData = stream.take (granted sizes s.calls)) ∧
      (¬ endOfHeaders <:+: stream → readHttpHeaders ⟨stream, sizes, 0⟩ = none) := by
  constructor
  · rintro before after rfl hfirst hwithin
    exact readHttpHeaders_of_isFirst hfirst hwithin sizes
  · intro hnone
    exact headerRounds_none (by simpa using hnone)

/-- The blank line comes in two pieces, the second with the first byte of the body. -/
theorem readHttpHeaders_any_pieces_twoRequests :
    ∃ extraData s, readHttpHeaders ⟨bytes "GET /" ++ (endOfHeaders ++ bytes "\x7b\x7d"), fun n => 5 - 2 * n, 0⟩ =
        some (bytes "GET /" ++ endOfHeaders, extraData, s) ∧
      bytes "GET /" ++ endOfHeaders ++ extraData ++ s.stream = bytes "GET /" ++ (endOfHeaders ++ bytes "\x7b\x7d") ∧
      bytes "GET /" ++ endOfHeaders ++ extraData =
        (bytes "GET /" ++ (endOfHeaders ++ bytes "\x7b\x7d")).take (granted (fun n => 5 - 2 * n) s.calls) := by
  refine (readHttpHeaders_any_pieces _ fun n => 5 - 2 * n).1 (bytes "GET /") _ rfl ?_ (by decide)
  intro left right heq
  have hfind : find? endOfHeaders (bytes "GET /" ++ (endOfHeaders ++ bytes "\x7b\x7d")) = some 5 := by decide +kernel
  obtain ⟨-, -, hearlier⟩ := find?_eq_some_iff.mp hfind
  have hnot : ¬ left.length < 5 := by
    intro hlt
    apply hearlier left.length hlt
    rw [heq, List.drop_left]
    exact List.prefix_append _ _
  exact not_lt.mp hnot

end InstrumentServer
