import InstrumentServer.Ipc.DataBufferManager
import InstrumentServer.Lib.NumericText
import InstrumentServer.Worker.VisaPlugin
import Mathlib.Data.List.DropRight

/-!
# Answers to the VISA plugin

The second half of `plugin_execute_command`: what becomes of the bytes that `viRead` has put into the buffer. Trailing blanks and line ends are cut off. An answer of more than 1024 bytes is taken for numbers: one pass over it counts delimiters, which gives the size of an array, and `strtok` then goes through it and fills the array. A shorter answer is copied into the response, and is its value too, as a double if `strtod` reads all of it and as a string otherwise.

The calls of the VISA library are parameters, and `malloc` succeeds.
-/

namespace InstrumentServer

open ByteString

/-- `max_read_size - 1` -/
def visaReadSize : Nat := 1024 * 1024 - 1

/-- What `viWrite` and `viRead` give for a command: their status, and the bytes read. -/
structure VisaExchange where
  writeStatus : Int32 := 0
  readStatus : Int32 := 0
  received : ByteString
  fits : received.length ≤ visaReadSize

namespace VisaPlugin

def largeDataThreshold : Nat := 1024

/-- The loop that trims trailing whitespace and newlines. -/
def trimReply (received : ByteString) : ByteString := received.rdropWhile fun b => b = 10 || b = 13 || b = 32

/-! ### Large data -/

/-- `delimiter_count` -/
def delimiterCount (reply : ByteString) : Nat := reply.countP fun b => b = 44 || b = 32 || b = 10

/-- The delimiters of `strtok`. -/
def isDelimiter (b : UInt8) : Bool := b = 44 || b = 32 || b = 10 || b = 13

/-- A call of `strtok`: the next token, and where the one after it is looked for. -/
def strtok (text : ByteString) : Option (ByteString × ByteString) :=
  match text.dropWhile isDelimiter with
  | [] => none
  | start => some (start.takeWhile (!isDelimiter ·), (start.dropWhile (!isDelimiter ·)).tail)

/-- The loop over the tokens, with room for so many elements: each element that is written, with its index. -/
def fillFloats : Nat → Nat → ByteString → List (Nat × UInt32)
  | 0, _, _ => []
  | room + 1, elementCount, text =>
      match strtok text with
      | none => []
      | some (token, rest) => (elementCount, strtof token) :: fillFloats room (elementCount + 1) rest

/-- `float_array`, with what was written into it. -/
structure FloatArray where
  allocated : Nat
  writes : List (Nat × UInt32)
deriving DecidableEq

def FloatArray.elementCount (array : FloatArray) : Nat := array.writes.length

/-- The bytes of the elements, which are written in order. -/
def FloatArray.data (array : FloatArray) : ByteString :=
  array.writes.flatMap fun write => (List.range 4).map fun i => (write.2 >>> UInt32.ofNat (8 * i)).toUInt8

/-- The array for a large answer, whose text ends at a NUL. -/
def floatArray (reply : ByteString) : FloatArray :=
  let estimatedElements := delimiterCount reply + 1
  { allocated := estimatedElements, writes := fillFloats estimatedElements 0 (reply.takeWhile (· ≠ 0)) }

/-- What `strtok` leaves of the text: it ends behind the first token. -/
def tokenizedText (reply : ByteString) : ByteString :=
  let text := reply.takeWhile (· ≠ 0)
  text.takeWhile isDelimiter ++ (text.dropWhile isDelimiter).takeWhile (!isDelimiter ·)

/-- The array becomes a buffer, or the response falls back to the text. -/
def storeFloats (env : CreateSurroundings) (m : DataBufferManager) (cmd : PluginCommand) (resp : PluginResponse)
    (reply : ByteString) (array : FloatArray) : DataBufferManager × PluginResponse :=
  match m.dataBufferCreate env (some cmd.instrumentName.text) (some cmd.id.text) 0 (UInt64.ofNat array.elementCount)
      (some array.data) true with
  | (m, some bufferId) =>
      (m, { resp with
            hasLargeData := true
            dataBufferId := .copy _ pluginMaxStringLen_pos bufferId
            dataElementCount := UInt64.ofNat array.elementCount
            dataType := 0
            textResponse := .copy _ pluginMaxPayload_pos (bytes "Large data buffer:  " ++ bufferId ++ bytes " (" ++
              decimal array.elementCount ++ bytes " elements)") })
  | (m, none) => (m, { resp with textResponse := .copy _ pluginMaxPayload_pos (tokenizedText reply) })

/-! ### Small data -/

/-- The value of a small answer. -/
def replyValue (reply : ByteString) : PluginParamValue :=
  match strtod (reply.takeWhile (· ≠ 0)) with
  | some (numeral, []) => .double numeral.toDouble
  | _ => .string (.copy _ pluginMaxStringLen_pos reply)

def storeText (resp : PluginResponse) (reply : ByteString) : PluginResponse :=
  { resp with textResponse := .copy _ pluginMaxPayload_pos reply, returnValue := replyValue reply }

/-! ### The function -/

/-- The array, if the answer is large. -/
def largeReply? (received : ByteString) : Option FloatArray :=
  let reply := trimReply received
  if largeDataThreshold < reply.length then some (floatArray reply) else none

/-- `%08X` -/
def hexText (status : Int32) : ByteString :=
  (List.range 8).map fun i =>
    let digit := status.toUInt32.toNat / 16 ^ (7 - i) % 16
    UInt8.ofNat (if digit < 10 then 48 + digit else 55 + digit)

def failedResponse (resp : PluginResponse) (errorCode : Int32) (message : ByteString) : PluginResponse :=
  { resp with success := false, errorCode, errorMessage := .copy _ pluginMaxStringLen_pos message }

/-- The response as the function begins it. -/
def beginResponse (cmd : PluginCommand) (resp : PluginResponse) : PluginResponse :=
  { resp with
    commandId := cmd.id
    instrumentName := cmd.instrumentName
    hasLargeData := false
    dataBufferId := .copy _ pluginMaxStringLen_pos []
    dataElementCount := 0
    dataType := 0 }

/-- What `plugin_execute_command` makes of a zeroed response, and what it returns. -/
def executeCommand (state : VisaPluginState) (exchange : VisaExchange) (env : CreateSurroundings) (m : DataBufferManager)
    (cmd : PluginCommand) : DataBufferManager × PluginResponse × Int32 :=
  let resp := beginResponse cmd .zero
  if !state.initialized then (m, failedResponse resp 0 (bytes "VISA plugin not initialized"), -1)
  else if exchange.writeStatus < 0 then
    (m, failedResponse resp exchange.writeStatus (bytes "VISA write failed: 0x" ++ hexText exchange.writeStatus), -1)
  else if !cmd.expectsResponse then (m, { resp with success := true }, 0)
  else if exchange.readStatus < 0 then
    (m, failedResponse resp exchange.readStatus (bytes "VISA read failed:  0x" ++ hexText exchange.readStatus), -1)
  else
    let reply := trimReply exchange.received
    match largeReply? exchange.received with
    | some array =>
        let (m, resp) := storeFloats env m cmd resp reply array
        (m, { resp with success := true }, 0)
    | none => (m, { storeText resp reply with success := true }, 0)

/-! ### All the values of an answer -/

/-- The maximal runs of other characters than the delimiters. -/
def valueRuns (reply : ByteString) : List ByteString := (reply.splitOnP isDelimiter).filter (· ≠ [])

/-- Every run has its element, in order, and no element is beyond the array. -/
structure ParsedCompletely (reply : ByteString) (array : FloatArray) : Prop where
  elementCount : array.elementCount = (valueRuns reply).length
  values : array.writes.map Prod.snd = (valueRuns reply).map strtof
  indices : array.writes.map Prod.fst = List.range array.elementCount
  within : ∀ write ∈ array.writes, write.1 < array.allocated

theorem valueRuns_dropWhile (text : ByteString) : valueRuns (text.dropWhile isDelimiter) = valueRuns text := by
  induction text with
  | nil => rfl
  | cons b text ih =>
      by_cases hb : isDelimiter b = true
      · have hsplit : (b :: text).splitOnP isDelimiter = [] :: text.splitOnP isDelimiter := by
          rw [List.splitOnP_cons_eq_if_modifyHead, if_pos hb]
        rw [List.dropWhile_cons_of_pos hb, ih, valueRuns, valueRuns, hsplit, List.filter_cons_of_neg (by simp)]
      · rw [List.dropWhile_cons_of_neg hb]

/-- A run at the beginning of a text. -/
theorem valueRuns_append {token : ByteString} (hne : token ≠ []) (htoken : ∀ b ∈ token, isDelimiter b = false)
    {rest : ByteString} (hrest : ∀ b ∈ rest.head?, isDelimiter b = true) :
    valueRuns (token ++ rest) = token :: valueRuns rest.tail := by
  cases rest with
  | nil =>
      rw [List.append_nil, List.tail_nil, valueRuns, List.splitOnP_eq_singleton htoken,
        List.filter_cons_of_pos (by simpa using hne)]
      rfl
  | cons b rest =>
      rw [valueRuns, List.splitOnP_append_cons_of_forall_mem htoken b (hrest b rfl),
        List.filter_cons_of_pos (by simpa using hne)]
      rfl

/-- `strtok` goes from run to run. -/
theorem valueRuns_eq (text : ByteString) :
    valueRuns text = match strtok text with
      | none => []
      | some (token, rest) => token :: valueRuns rest := by
  rw [← valueRuns_dropWhile, strtok]
  cases hstart : text.dropWhile isDelimiter with
  | nil => rfl
  | cons b start =>
      have hb : isDelimiter b = false := by
        simpa [hstart] using List.head?_dropWhile_not isDelimiter text
      have htoken : (b :: start).takeWhile (!isDelimiter ·) ≠ [] := by
        rw [List.takeWhile_cons_of_pos (by simp [hb])]
        exact List.cons_ne_nil _ _
      have hrest : ∀ c ∈ ((b :: start).dropWhile (!isDelimiter ·)).head?, isDelimiter c = true := by
        intro c hc
        have hhead := List.head?_dropWhile_not (!isDelimiter ·) (b :: start)
        rw [Option.mem_def.mp hc] at hhead
        simpa using hhead
      have hrun := valueRuns_append htoken (fun c hc => by simpa using List.mem_takeWhile_imp hc) hrest
      rwa [List.takeWhile_append_dropWhile] at hrun

theorem length_valueRuns_le (text : ByteString) : (valueRuns text).length ≤ text.countP isDelimiter + 1 := by
  refine (List.length_filter_le _ _).trans (le_of_eq ?_)
  induction text with
  | nil => rfl
  | cons b text ih =>
      rw [List.splitOnP_cons_eq_if_modifyHead, List.countP_cons]
      split
      · rw [List.length_cons, ih]
      · rw [List.length_modifyHead, ih, Nat.add_zero]

/-- The loop writes as many runs as there is room for. -/
theorem fillFloats_eq (room elementCount : Nat) (text : ByteString) :
    fillFloats room elementCount text =
      ((((valueRuns text).take room).map strtof).zipIdx elementCount).map Prod.swap := by
  induction room generalizing elementCount text with
  | zero => simp [fillFloats]
  | succ room ih =>
      rw [fillFloats, valueRuns_eq]
      cases strtok text with
      | none => simp
      | some next =>
          dsimp only
          rw [ih]
          simp

theorem length_fillFloats (room elementCount : Nat) (text : ByteString) :
    (fillFloats room elementCount text).length = min room (valueRuns text).length := by
  simp [fillFloats_eq]

theorem fillFloats_indices (room elementCount : Nat) (text : ByteString) :
    (fillFloats room elementCount text).map Prod.fst =
      List.range' elementCount (min room (valueRuns text).length) := by
  simp [fillFloats_eq, Function.comp_def]

theorem fillFloats_values (room elementCount : Nat) (text : ByteString) :
    (fillFloats room elementCount text).map Prod.snd = ((valueRuns text).map strtof).take room := by
  simp [fillFloats_eq, Function.comp_def]

theorem takeWhile_ne_zero {reply : ByteString} (hnul : 0 ∉ reply) : reply.takeWhile (· ≠ 0) = reply :=
  List.takeWhile_eq_self_iff.mpr fun b hb => by simpa using ne_of_mem_of_not_mem hb hnul

theorem zero_not_mem_trimReply {received : ByteString} (hnul : 0 ∉ received) : 0 ∉ trimReply received :=
  fun h => hnul ((List.rdropWhile_prefix _ _).mem h)

theorem largeReply?_eq_some_iff {received : ByteString} {array : FloatArray} :
    largeReply? received = some array ↔
      largeDataThreshold < (trimReply received).length ∧ floatArray (trimReply received) = array := by
  rw [largeReply?, Option.ite_none_right_eq_some, Option.some.injEq]

theorem floatArray_elementCount {reply : ByteString} (hnul : 0 ∉ reply) :
    (floatArray reply).elementCount = min (delimiterCount reply + 1) (valueRuns reply).length := by
  rw [FloatArray.elementCount, floatArray, length_fillFloats, takeWhile_ne_zero hnul]

theorem floatArray_indices {reply : ByteString} (hnul : 0 ∉ reply) :
    (floatArray reply).writes.map Prod.fst = List.range (floatArray reply).elementCount := by
  rw [floatArray_elementCount hnul, floatArray, fillFloats_indices, takeWhile_ne_zero hnul, List.range_eq_range']

/-- No element is written beyond the array, whatever the delimiters are. -/
theorem floatArray_within {reply : ByteString} (hnul : 0 ∉ reply) :
    ∀ write ∈ (floatArray reply).writes, write.1 < (floatArray reply).allocated := by
  intro write hwrite
  have hindex : write.1 ∈ List.range (floatArray reply).elementCount := by
    rw [← floatArray_indices hnul]
    exact List.mem_map_of_mem hwrite
  calc write.1 < (floatArray reply).elementCount := List.mem_range.mp hindex
    _ ≤ delimiterCount reply + 1 := floatArray_elementCount hnul ▸ Nat.min_le_left _ _

theorem floatArray_parsedCompletely_iff {reply : ByteString} (hnul : 0 ∉ reply) :
    ParsedCompletely reply (floatArray reply) ↔ (valueRuns reply).length ≤ delimiterCount reply + 1 := by
  constructor
  · intro h
    exact min_eq_right_iff.mp ((floatArray_elementCount hnul).symm.trans h.elementCount)
  · intro h
    refine ⟨?_, ?_, floatArray_indices hnul, floatArray_within hnul⟩
    · rw [floatArray_elementCount hnul, Nat.min_eq_right h]
    · rw [floatArray, fillFloats_values, takeWhile_ne_zero hnul]
      exact List.take_of_length_le (by rwa [List.length_map])

/-- A large answer is read completely if and only if it has at most one value more than it has commas, spaces and newlines. -/
theorem largeReply_parsedCompletely_iff {received : ByteString} (hnul : 0 ∉ received) {array : FloatArray}
    (harray : largeReply? received = some array) :
    ParsedCompletely (trimReply received) array ↔
      (valueRuns (trimReply received)).length ≤ delimiterCount (trimReply received) + 1 := by
  obtain ⟨-, rfl⟩ := largeReply?_eq_some_iff.mp harray
  exact floatArray_parsedCompletely_iff (zero_not_mem_trimReply hnul)

/-- A large answer without carriage returns is read completely. -/
theorem largeReply_parsedCompletely_of_no_return {received : ByteString} (hnul : 0 ∉ received)
    (hreturn : 13 ∉ trimReply received) : ParsedCompletely (trimReply received) (floatArray (trimReply received)) := by
  refine (floatArray_parsedCompletely_iff (zero_not_mem_trimReply hnul)).mpr ?_
  calc (valueRuns (trimReply received)).length ≤ (trimReply received).countP isDelimiter + 1 := length_valueRuns_le _
    _ = delimiterCount (trimReply received) + 1 := by
      rw [delimiterCount, List.countP_congr]
      intro b hb
      have hne : b ≠ 13 := ne_of_mem_of_not_mem hb hreturn
      simp [isDelimiter, hne]

/-- What is stored of a large answer is the array. -/
theorem executeCommand_of_large {state : VisaPluginState} {exchange : VisaExchange} {cmd : PluginCommand}
    (hinitialized : state.initialized = true) (hwrite : 0 ≤ exchange.writeStatus)
    (hexpects : cmd.expectsResponse = true) (hread : 0 ≤ exchange.readStatus) {array : FloatArray}
    (harray : largeReply? exchange.received = some array) (env : CreateSurroundings) (m : DataBufferManager) :
    executeCommand state exchange env m cmd =
      let (m, resp) := storeFloats env m cmd (beginResponse cmd .zero) (trimReply exchange.received) array
      (m, { resp with success := true }, 0) := by
  simp [executeCommand, hinitialized, hexpects, harray, Int32.not_lt.mpr hwrite, Int32.not_lt.mpr hread]

/-- 514 values with commas between them. -/
theorem largeReply_parsedCompletely_iff_commas :
    ParsedCompletely (trimReply ((List.replicate 513 (bytes "1,")).flatten ++ bytes "1\n"))
      (floatArray (trimReply ((List.replicate 513 (bytes "1,")).flatten ++ bytes "1\n"))) :=
  (largeReply_parsedCompletely_iff (by decide +kernel)
    (largeReply?_eq_some_iff.mpr ⟨by decide +kernel, rfl⟩)).mpr (by decide +kernel)

/-- Of 514 values with a carriage return behind each, the array has one. -/
theorem largeReply_not_parsedCompletely_returns :
    ∃ (received : ByteString) (array : FloatArray), 0 ∉ received ∧ largeReply? received = some array ∧
      (valueRuns (trimReply received)).length = 514 ∧ array.elementCount = 1 ∧
        ¬ ParsedCompletely (trimReply received) array := by
  refine ⟨(List.replicate 514 (bytes "1\r")).flatten, _, by decide +kernel,
    largeReply?_eq_some_iff.mpr ⟨by decide +kernel, rfl⟩, by decide +kernel, by decide +kernel, ?_⟩
  intro h
  exact absurd h.elementCount (by decide +kernel)

end VisaPlugin

end InstrumentServer
