import InstrumentServer.Server.HttpRequest

/-!
# The body of a request

Reading does not depend on how the network cuts the stream, with one exception: `read_http_headers` stops at the piece that completes the headers, and nothing limits how far this piece goes beyond them. `headerRounds_eq` and `readRounds_eq` follow the two loops, `parseContentLength_iff` the announced length, and `assembleBody_of_le` and `assembleBody_of_lt` the two ways the subtraction can come out.

A stream is any headers and any bytes after them; `before` are the header lines that come before the one that announces the length.
-/

namespace InstrumentServer

open ByteString

namespace Socket

variable {s : Socket}

theorem recv_eq (length : Nat) (hlength : 0 < length) (hstream : s.stream ≠ []) :
    s.recv length = some (s.stream.take (min length (s.sizes s.calls + 1)),
      { s with stream := s.stream.drop (min length (s.sizes s.calls + 1)), calls := s.calls + 1 }) := by
  have htake : s.stream.take (min length (s.sizes s.calls + 1)) ≠ [] := by
    rw [Ne, List.take_eq_nil_iff]
    push Not
    exact ⟨by omega, hstream⟩
  rw [recv, if_neg htake]

/-! ### `read_n` -/

/-- However the stream is cut, `read_n` reads the bytes in order, as long as there are enough. -/
theorem readRounds_eq (rounds n : Nat) (buf : ByteString) (s : Socket) (hrounds : n - buf.length ≤ rounds)
    (henough : n ≤ buf.length + s.stream.length) :
    ∃ s', readRounds rounds n buf s = some (buf ++ s.stream.take (n - buf.length), s') := by
  induction rounds generalizing buf s with
  | zero =>
      rw [readRounds, if_neg (by omega), show n - buf.length = 0 by omega, List.take_zero, List.append_nil]
      exact ⟨s, rfl⟩
  | succ rounds ih =>
      rw [readRounds]
      by_cases hless : buf.length < n
      · have hstream : s.stream ≠ [] := by
          rintro hnil
          rw [hnil, List.length_nil] at henough
          omega
        rw [if_pos hless, recv_eq (n - buf.length) (by omega) hstream]
        dsimp only
        have hsize : 0 < min (n - buf.length) (s.sizes s.calls + 1) := by omega
        generalize hdef : min (n - buf.length) (s.sizes s.calls + 1) = size at hsize
        have hpos := List.length_pos_iff.mpr hstream
        have hlen : (s.stream.take size).length = min size s.stream.length := List.length_take
        obtain ⟨s', hs'⟩ := ih (buf ++ s.stream.take size) { s with stream := s.stream.drop size, calls := s.calls + 1 }
          (by rw [List.length_append, hlen]; omega)
          (by rw [List.length_append, hlen, List.length_drop]; omega)
        refine ⟨s', hs'.trans ?_⟩
        have hle : (s.stream.take size).length ≤ n - buf.length := by omega
        rw [List.length_append, List.append_assoc, ← Nat.sub_sub, Lists.take_append_take_drop hle]
      · rw [if_neg hless, show n - buf.length = 0 by omega, List.take_zero, List.append_nil]
        exact ⟨s, rfl⟩

theorem readN_eq {n : Nat} (henough : n ≤ s.stream.length) : ∃ s', s.readN n = some (s.stream.take n, s') := by
  obtain ⟨s', hs'⟩ := readRounds_eq n n [] s (Nat.sub_le _ _) (by simpa using henough)
  exact ⟨s', by simpa [readN] using hs'⟩

/-- What `read_n` gives has the length that was asked for. -/
theorem length_readRounds {rounds n : Nat} {buf data : ByteString} {s s' : Socket} (hbuf : buf.length ≤ n)
    (hread : readRounds rounds n buf s = some (data, s')) : data.length = n := by
  induction rounds generalizing buf s with
  | zero =>
      rw [readRounds] at hread
      split at hread
      · contradiction
      · obtain ⟨rfl, -⟩ := Prod.mk.inj (Option.some.inj hread)
        omega
  | succ rounds ih =>
      rw [readRounds] at hread
      split at hread
      · split at hread
        · contradiction
        · rename_i piece next hrecv
          apply ih _ hread
          rw [recv] at hrecv
          split at hrecv
          · contradiction
          · obtain ⟨rfl, -⟩ := Prod.mk.inj (Option.some.inj hrecv)
            rw [List.length_append, List.length_take]
            omega
      · obtain ⟨rfl, -⟩ := Prod.mk.inj (Option.some.inj hread)
        omega

/-! ### `read_http_headers` -/

/-- What comes along with the headers is short. -/
theorem length_extraData_le {rounds : Nat} {outHeaders headers extraData : ByteString} {s s' : Socket}
    (hread : headerRounds rounds outHeaders s = some (headers, extraData, s')) : extraData.length ≤ maxHeaderRead + 1024 := by
  induction rounds generalizing outHeaders s with
  | zero => simp [headerRounds] at hread
  | succ rounds ih =>
      rw [headerRounds] at hread
      split at hread
      · rename_i hshort
        split at hread
        · simp at hread
        · rename_i piece next hrecv
          dsimp only at hread
          split at hread
          · obtain ⟨-, hrest⟩ := Prod.mk.inj (Option.some.inj hread)
            obtain ⟨rfl, -⟩ := Prod.mk.inj hrest
            rw [recv] at hrecv
            split at hrecv
            · simp at hrecv
            · obtain ⟨rfl, -⟩ := Prod.mk.inj (Option.some.inj hrecv)
              rw [List.length_drop, List.length_append, List.length_take]
              omega
          · exact ih hread
      · simp at hread

theorem length_extraData_lt {headers extraData : ByteString} {s s' : Socket}
    (hread : s.readHttpHeaders = some (headers, extraData, s')) : extraData.length < 2 ^ 63 := by
  have hle := length_extraData_le hread
  rw [maxHeaderRead] at hle
  omega

/-- How many bytes the first calls for 1024 bytes give at most. -/
def granted (sizes : Nat → Nat) : Nat → Nat
  | 0 => 0
  | calls + 1 => granted sizes calls + min 1024 (sizes calls + 1)

/-- With the headers not complete after some calls, the loop goes on until they are. -/
theorem headerRounds_eq {stream : ByteString} {pos : Nat} (sizes : Nat → Nat)
    (hended : find? endOfHeaders stream = some pos) (hlength : pos + 4 ≤ stream.length)
    (hwithin : pos + 4 ≤ maxHeaderRead) (rounds calls : Nat) (hbefore : granted sizes calls < pos + 4)
    (hrounds : pos + 4 ≤ granted sizes calls + rounds) :
    ∃ last, granted sizes last < pos + 4 ∧ pos + 4 ≤ granted sizes (last + 1) ∧
      headerRounds rounds (stream.take (granted sizes calls)) ⟨stream.drop (granted sizes calls), sizes, calls⟩ =
        some (stream.take (pos + 4), (stream.take (granted sizes (last + 1))).drop (pos + 4),
          ⟨stream.drop (granted sizes (last + 1)), sizes, last + 1⟩) := by
  induction rounds generalizing calls with
  | zero => omega
  | succ rounds ih =>
      have hout : (stream.take (granted sizes calls)).length < maxHeaderRead := by
        rw [List.length_take]
        omega
      have hstream : stream.drop (granted sizes calls) ≠ [] := by
        rw [Ne, List.drop_eq_nil_iff]
        omega
      have hgranted : granted sizes (calls + 1) = granted sizes calls + min 1024 (sizes calls + 1) := rfl
      have hfind := find?_take (by decide) hended (granted sizes (calls + 1))
      rw [headerRounds, if_pos hout, recv_eq 1024 (by decide) hstream]
      dsimp only
      rw [← List.take_add, ← hgranted, List.drop_drop, ← hgranted, hfind]
      by_cases hdone : pos + endOfHeaders.length ≤ granted sizes (calls + 1)
      · rw [if_pos hdone]
        have hwhole : pos + 4 ≤ granted sizes (calls + 1) := hdone
        refine ⟨calls, hbefore, hwhole, ?_⟩
        dsimp only
        rw [List.take_take, Nat.min_eq_left hwhole]
      · rw [if_neg hdone]
        have hmore : granted sizes (calls + 1) < pos + 4 := not_le.mp hdone
        exact ih (calls + 1) hmore (by omega)

/-- The headers are read whole, together with what the last piece brings beyond them. -/
theorem readHttpHeaders_eq {stream : ByteString} {pos : Nat} (sizes : Nat → Nat)
    (hended : find? endOfHeaders stream = some pos) (hlength : pos + 4 ≤ stream.length)
    (hwithin : pos + 4 ≤ maxHeaderRead) :
    ∃ last, granted sizes last < pos + 4 ∧ pos + 4 ≤ granted sizes (last + 1) ∧
      readHttpHeaders ⟨stream, sizes, 0⟩ =
        some (stream.take (pos + 4), (stream.take (granted sizes (last + 1))).drop (pos + 4),
          ⟨stream.drop (granted sizes (last + 1)), sizes, last + 1⟩) :=
  headerRounds_eq sizes hended hlength hwithin maxHeaderRead 0 (Nat.succ_pos _) (by
    rw [granted, Nat.zero_add]
    exact hwithin)

end Socket

/-! ### The announced length -/

/-- A header line that announces the length of the body. -/
def IsContentLength (line : ByteString) (n : Nat) : Prop :=
  ∃ name spaces digits rest, line = name ++ 58 :: (spaces ++ (digits ++ rest)) ∧
    name.map toLower = bytes "content-length" ∧ (∀ b ∈ spaces, isSpace b = true) ∧ digits ≠ [] ∧
    (∀ b ∈ digits, isDigit b = true) ∧ (∀ b ∈ rest, isSpace b = true) ∧ ofDecimal digits = n

theorem mentionedLength_of_isContentLength {line : ByteString} {n : Nat} (h : IsContentLength line n) :
    mentionedLength line = some (if n < 2 ^ 31 then (n : Int) else -1) := by
  obtain ⟨name, spaces, digits, rest, rfl, hname, hspaces, hdigits, hdigit, hrest, rfl⟩ := h
  have hlength : name.length = 14 := by
    rw [← List.length_map toLower, hname]
    rfl
  have hlabel : contentLengthLabel = bytes "content-length" ++ [58] := by decide
  have hmention : mention (name ++ 58 :: (spaces ++ (digits ++ rest))) = some 0 := by
    apply find?_of_prefix (by decide)
    rw [List.map_append, hname, hlabel, List.map_cons]
    exact List.prefix_append_right_inj _ |>.mpr (List.prefix_cons_inj _ |>.mpr (List.nil_prefix))
  have hdrop : (name ++ 58 :: (spaces ++ (digits ++ rest))).drop (0 + contentLengthLabel.length) =
      spaces ++ (digits ++ rest) := by
    rw [show 0 + contentLengthLabel.length = name.length + 1 by rw [hlength]; rfl, List.drop_append]
    simp
  have hstoi : stoi (digits ++ rest) = if ofDecimal digits < 2 ^ 31 then some (ofDecimal digits : Int) else none :=
    @stoi_digits [] digits rest (by simp) hdigits hdigit hrest
  rw [mentionedLength, hmention, Option.map_some, hdrop, dropWhile_isSpace hspaces hdigits hdigit, hstoi]
  split <;> rfl

theorem mentionedLength_lt {line : ByteString} {value : Int} (h : mentionedLength line = some value) : value < 2 ^ 31 := by
  obtain ⟨pos, -, rfl⟩ := Option.map_eq_some_iff.mp h
  cases hstoi : stoi ((line.drop (pos + contentLengthLabel.length)).dropWhile isSpace) with
  | none => decide
  | some value => exact (stoi_range hstoi).2

theorem parseContentLength_lt (headers : ByteString) : parseContentLength headers < 2 ^ 31 := by
  rw [parseContentLength]
  cases hfirst : (headerLines headers).findSome? mentionedLength with
  | none => decide
  | some value =>
      obtain ⟨line, -, hline⟩ := List.exists_of_findSome?_eq_some hfirst
      exact mentionedLength_lt hline

/-- The announced length is read when an `int` can hold it and no earlier line mentions another one. -/
theorem parseContentLength_iff {headers line : ByteString} {before after : List ByteString} {n : Nat}
    (hlines : headerLines headers = before ++ line :: after) (hline : IsContentLength line n) (hpositive : 0 < n) :
    parseContentLength headers = n ↔ n < 2 ^ 31 ∧ ∀ first, before.findSome? mentionedLength = some first → first = n := by
  rw [parseContentLength, hlines, List.findSome?_append, List.findSome?_cons, mentionedLength_of_isContentLength hline]
  cases hbefore : before.findSome? mentionedLength with
  | none =>
      simp only [Option.none_or, Option.getD_some]
      constructor
      · intro hparsed
        split at hparsed
        · rename_i hsmall
          exact ⟨hsmall, by simp⟩
        · omega
      · rintro ⟨hsmall, -⟩
        rw [if_pos hsmall]
  | some first =>
      have hlt : first < 2 ^ 31 := by
        obtain ⟨other, -, hother⟩ := List.exists_of_findSome?_eq_some hbefore
        exact mentionedLength_lt hother
      simp only [Option.some_or, Option.getD_some, Option.some.injEq, forall_eq']
      constructor
      · intro hfirst
        exact ⟨by omega, hfirst⟩
      · exact And.right

/-! ### The body -/

theorem length_resize (body : ByteString) (size : Nat) : (resize body size).length = size := by
  rw [resize, List.length_append, List.length_take, List.length_replicate]
  omega

/-- What the subtraction gives: what is missing, or a number that reaches beyond the string. -/
theorem remaining_eq {n k : Nat} (hn : n < 2 ^ 31) (hk : k < 2 ^ 63) :
    (UInt64.ofNat n - UInt64.ofNat k).toNat = if k ≤ n then n - k else 2 ^ 64 + n - k := by
  rw [UInt64.toNat_sub, UInt64.toNat_ofNat', UInt64.toNat_ofNat', Nat.mod_eq_of_lt (show n < 2 ^ 64 by omega),
    Nat.mod_eq_of_lt (show k < 2 ^ 64 by omega)]
  split
  · rename_i hle
    rw [show 2 ^ 64 - k + n = n - k + 2 ^ 64 by omega, Nat.add_mod_right, Nat.mod_eq_of_lt (by omega)]
  · rw [show 2 ^ 64 - k + n = 2 ^ 64 + n - k by omega, Nat.mod_eq_of_lt (by omega)]

theorem remaining_pos_iff (remaining : UInt64) : 0 < remaining ↔ 0 < remaining.toNat := UInt64.lt_iff_toNat_lt

/-- The body is what came with the headers and the missing rest of what was announced. -/
theorem assembleBody_of_le {n : Nat} {extraData : ByteString} {s : Socket} (hpositive : 0 < n) (hsmall : n < 2 ^ 31)
    (hle : extraData.length ≤ n) (henough : n - extraData.length ≤ s.stream.length) :
    assembleBody n extraData s = .complete (extraData ++ s.stream.take (n - extraData.length)) := by
  have hremaining := remaining_eq hsmall (show extraData.length < 2 ^ 63 by omega)
  rw [if_pos hle] at hremaining
  rw [assembleBody, if_pos (by omega)]
  simp only [Int.toNat_natCast, remaining_pos_iff, hremaining, length_resize]
  by_cases hmissing : 0 < n - extraData.length
  · rw [if_pos hmissing, if_neg (by omega)]
    obtain ⟨s', hs'⟩ := Socket.readN_eq henough
    rw [hs']
    dsimp only
    have hlen : (s.stream.take (n - extraData.length)).length = n - extraData.length := List.length_take_of_le henough
    have htake : (resize extraData n).take extraData.length = extraData := by
      rw [resize, List.take_of_length_le hle, List.take_append_of_le_length (le_refl _), List.take_length]
    have hdrop : (resize extraData n).drop (extraData.length + (s.stream.take (n - extraData.length)).length) = [] := by
      apply List.drop_of_length_le
      rw [length_resize, hlen]
      omega
    rw [htake, hdrop, List.append_nil]
  · rw [if_neg hmissing, show n - extraData.length = 0 by omega, List.take_zero, List.append_nil]

/-- More came with the headers than was announced. -/
theorem assembleBody_of_lt {n : Nat} {extraData : ByteString} {s : Socket} (hpositive : 0 < n) (hsmall : n < 2 ^ 31)
    (hlt : n < extraData.length) (hbound : extraData.length < 2 ^ 63) : assembleBody n extraData s = .outOfBounds := by
  have hremaining := remaining_eq hsmall hbound
  rw [if_neg (by omega)] at hremaining
  rw [assembleBody, if_pos (by omega)]
  simp only [Int.toNat_natCast, remaining_pos_iff, hremaining, length_resize]
  rw [if_pos (by omega), if_pos (by omega)]

/-- `read_n` gets out of bounds exactly if more came with the headers than was announced. -/
theorem assembleBody_outOfBounds_iff {contentLen : Int} {extraData : ByteString} {s : Socket} (hsmall : contentLen < 2 ^ 31)
    (hbound : extraData.length < 2 ^ 63) :
    assembleBody contentLen extraData s = .outOfBounds ↔ 0 < contentLen ∧ contentLen < extraData.length := by
  by_cases hpositive : 0 < contentLen
  · obtain ⟨n, rfl⟩ := Int.eq_ofNat_of_zero_le hpositive.le
    have hn : n < 2 ^ 31 := by omega
    by_cases hle : extraData.length ≤ n
    · refine iff_of_false ?_ fun hmore => by omega
      have hremaining := remaining_eq hn hbound
      rw [if_pos hle] at hremaining
      rw [assembleBody, if_pos hpositive]
      simp only [Int.toNat_natCast, remaining_pos_iff, hremaining, length_resize]
      split
      · rw [if_neg (by omega)]
        split <;> simp
      · simp
    · exact iff_of_true (assembleBody_of_lt (by omega) hn (not_le.mp hle) hbound) ⟨hpositive, by omega⟩
  · rw [assembleBody, if_neg hpositive]
    exact iff_of_false (by simp) fun hmore => hpositive hmore.1

/-- A body that is complete has the length that was read. -/
theorem length_of_assembleBody {contentLen : Int} {extraData body : ByteString} {s : Socket} (hpositive : 0 < contentLen)
    (hsmall : contentLen < 2 ^ 31) (hbound : extraData.length < 2 ^ 63)
    (hbody : assembleBody contentLen extraData s = .complete body) : (body.length : Int) = contentLen := by
  obtain ⟨n, rfl⟩ := Int.eq_ofNat_of_zero_le hpositive.le
  have hn : n < 2 ^ 31 := by omega
  by_cases hle : extraData.length ≤ n
  · have hremaining := remaining_eq hn hbound
    rw [if_pos hle] at hremaining
    rw [assembleBody, if_pos hpositive] at hbody
    simp only [Int.toNat_natCast, remaining_pos_iff, hremaining, length_resize] at hbody
    by_cases hmissing : 0 < n - extraData.length
    · rw [if_pos hmissing, if_neg (by omega)] at hbody
      split at hbody
      · exact absurd hbody (by simp)
      · rename_i data s' hread
        have hdata := Socket.length_readRounds (Nat.zero_le _) hread
        rw [← BodyOutcome.complete.inj hbody, List.length_append, List.length_append, List.length_take, List.length_drop,
          length_resize, hdata]
        omega
    · rw [if_neg hmissing] at hbody
      rw [← BodyOutcome.complete.inj hbody]
      omega
  · rw [assembleBody_of_lt (by omega) hn (not_le.mp hle) hbound] at hbody
    exact absurd hbody (by simp)

/-! ### Whole requests -/

/-- A request as it arrives: headers up to the first blank line, one of them announcing `n` bytes, and at least so many after it. -/
structure WellFormed (headers rest : ByteString) (before : List ByteString) (n : Nat) : Prop where
  long : 4 ≤ headers.length
  ended : find? Socket.endOfHeaders (headers ++ rest) = some (headers.length - 4)
  within : headers.length ≤ Socket.maxHeaderRead
  announced : ∃ line after, headerLines headers = before ++ line :: after ∧ IsContentLength line n
  positive : 0 < n
  enough : n ≤ rest.length

/-- The body is what was announced, and that is what `json::parse` gets if it is called. -/
def HandsOver (s : Socket) (headers body : ByteString) : Prop :=
  requestBody s = .complete body ∧ jsonText s = if isRpcPost headers then some body else none

/-- How many bytes of a stream of the given length the first calls give. -/
def received (sizes : Nat → Nat) (length calls : Nat) : Nat := min length (Socket.granted sizes calls)

theorem granted_mono (sizes : Nat → Nat) {i j : Nat} (hij : i ≤ j) : Socket.granted sizes i ≤ Socket.granted sizes j := by
  induction j, hij using Nat.le_induction with
  | base => exact le_rfl
  | succ j _ ih => exact ih.trans (Nat.le_add_right _ _)

/-- Only the piece that completes the headers can go beyond them. -/
theorem completing_piece {sizes : Nat → Nat} {total length n last : Nat} (htotal : length ≤ total)
    (hlast : Socket.granted sizes last < length) (hnext : length ≤ Socket.granted sizes (last + 1)) :
    (∀ calls, received sizes total calls < length → received sizes total (calls + 1) ≤ length + n) ↔
      received sizes total (last + 1) ≤ length + n := by
  constructor
  · intro hall
    apply hall
    rw [received]
    omega
  · intro hle calls hcalls
    rw [received] at hcalls
    rcases Nat.lt_trichotomy calls last with hlt | rfl | hgt
    · have hmono := granted_mono sizes (show calls + 1 ≤ last from hlt)
      rw [received]
      omega
    · exact hle
    · have hmono := granted_mono sizes (show last + 1 ≤ calls from hgt)
      omega

/-- The body is right exactly when an `int` can hold its length, no earlier line mentions another one, and the piece that completes the headers goes no further than the body. -/
theorem requestBody_iff {headers rest : ByteString} {before : List ByteString} {n : Nat}
    (hrequest : WellFormed headers rest before n) (sizes : Nat → Nat) :
    HandsOver ⟨headers ++ rest, sizes, 0⟩ headers (rest.take n) ↔
      n < 2 ^ 31 ∧ (∀ first, before.findSome? mentionedLength = some first → first = n) ∧
        ∀ calls, received sizes (headers ++ rest).length calls < headers.length →
          received sizes (headers ++ rest).length (calls + 1) ≤ headers.length + n := by
  obtain ⟨hlong, hended, hwithin, ⟨line, after, hlines, hline⟩, hpositive, henough⟩ := hrequest
  have hlen : (headers ++ rest).length = headers.length + rest.length := List.length_append
  have hpos : headers.length - 4 + 4 = headers.length := Nat.sub_add_cancel hlong
  obtain ⟨last, hlast, hnext, hread⟩ := Socket.readHttpHeaders_eq sizes hended (by omega) (by omega)
  rw [hpos] at hlast hnext hread
  have hstep : Socket.granted sizes (last + 1) = Socket.granted sizes last + min 1024 (sizes last + 1) := rfl
  rw [completing_piece (by omega) hlast hnext, received, hlen]
  -- the last piece brings `extra` bytes beyond the headers
  obtain ⟨extra, hextra⟩ := Nat.exists_eq_add_of_le hnext
  rw [hextra] at hread ⊢
  rw [List.take_left, List.drop_take, List.drop_left, Nat.add_sub_cancel_left, ← List.drop_drop, List.drop_left] at hread
  have hdata : (rest.take extra).length = min extra rest.length := List.length_take
  have hassemble : requestBody ⟨headers ++ rest, sizes, 0⟩ =
      assembleBody (parseContentLength headers) (rest.take extra) ⟨rest.drop extra, sizes, last + 1⟩ := by
    rw [requestBody, hread]
  have hbody : (rest.take n).length = n := List.length_take_of_le henough
  have hcomplete : HandsOver ⟨headers ++ rest, sizes, 0⟩ headers (rest.take n) ↔
      assembleBody (parseContentLength headers) (rest.take extra) ⟨rest.drop extra, sizes, last + 1⟩ =
        .complete (rest.take n) := by
    rw [HandsOver, ← hassemble]
    constructor
    · exact And.left
    · intro hdone
      exact ⟨hdone, by rw [jsonText, hread, hdone]⟩
  rw [hcomplete, ← and_assoc, ← parseContentLength_iff hlines hline hpositive]
  constructor
  · intro hdone
    have hread : 0 < parseContentLength headers := by
      by_contra hnot
      rw [assembleBody, if_neg hnot] at hdone
      rw [← BodyOutcome.complete.inj hdone, List.length_nil] at hbody
      omega
    have hparsed : parseContentLength headers = n := by
      rw [← length_of_assembleBody hread (parseContentLength_lt headers) (by omega) hdone, hbody]
    refine ⟨hparsed, ?_⟩
    by_contra hmore
    have hlt := parseContentLength_lt headers
    rw [hparsed, assembleBody_of_lt hpositive (by omega) (by omega) (by omega)] at hdone
    exact absurd hdone (by simp)
  · rintro ⟨hparsed, hle⟩
    have hlt := parseContentLength_lt headers
    rw [hparsed, assembleBody_of_le hpositive (by omega) (by omega) (by rw [List.length_drop]; omega),
      Lists.take_append_take_drop (by omega)]

/-! ### Requests -/

def rpcHeaders : ByteString := bytes "POST /rpc HTTP/1.1\r\nContent-Length: 2\r\n\r\n"

/-- The body of one request and the first byte of the next. -/
def twoRequests : ByteString := bytes "\x7b\x7dP"

theorem wellFormed_twoRequests : WellFormed rpcHeaders twoRequests [bytes "POST /rpc HTTP/1.1"] 2 where
  long := by decide
  ended := by decide +kernel
  within := by decide
  announced := by
    refine ⟨bytes "Content-Length: 2", [[]], by decide +kernel, ?_⟩
    exact ⟨bytes "Content-Length", bytes " ", bytes "2", [], by decide +kernel, by decide +kernel, by decide +kernel,
      by decide +kernel, by decide +kernel, by decide +kernel, by decide +kernel⟩
  positive := Nat.two_pos
  enough := by decide

/-- In pieces of seven bytes the first byte of the body comes with the end of the headers, and the rest after it. -/
theorem requestBody_twoRequests_sevens :
    HandsOver ⟨rpcHeaders ++ twoRequests, fun _ => 6, 0⟩ rpcHeaders (bytes "\x7b\x7d") := by
  apply (requestBody_iff wellFormed_twoRequests fun _ => 6).mpr
  refine ⟨by decide, fun first hfirst => ?_, fun calls hcalls => ?_⟩
  · have hnone : [bytes "POST /rpc HTTP/1.1"].findSome? mentionedLength = none := by decide +kernel
    rw [hnone] at hfirst
    contradiction
  · have hgranted : ∀ calls, Socket.granted (fun _ => 6) calls = 7 * calls := by
      intro calls
      induction calls with
      | zero => rfl
      | succ calls ih =>
          rw [Socket.granted, ih, Nat.mul_succ]
          rfl
    have hlong : rpcHeaders.length = 41 := by decide
    have htotal : (rpcHeaders ++ twoRequests).length = 44 := by decide
    simp only [received, hgranted, hlong, htotal] at hcalls ⊢
    omega

/-- In one piece the byte of the next request comes with the headers, and `read_n` is to write beyond the string. -/
theorem requestBody_outOfBounds :
    WellFormed rpcHeaders twoRequests [bytes "POST /rpc HTTP/1.1"] 2 ∧
      requestBody ⟨rpcHeaders ++ twoRequests, fun _ => 1023, 0⟩ = .outOfBounds ∧
      ¬ HandsOver ⟨rpcHeaders ++ twoRequests, fun _ => 1023, 0⟩ rpcHeaders (twoRequests.take 2) := by
  have hbody : requestBody ⟨rpcHeaders ++ twoRequests, fun _ => 1023, 0⟩ = .outOfBounds := by decide +kernel
  refine ⟨wellFormed_twoRequests, hbody, fun hover => ?_⟩
  rw [HandsOver, hbody] at hover
  exact absurd hover.1 (by simp)

end InstrumentServer
