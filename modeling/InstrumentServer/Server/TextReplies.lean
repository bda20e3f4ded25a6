import InstrumentServer.Server.Framing
import InstrumentServer.Server.RuntimeContext
import InstrumentServer.Worker.VisaReply

/-!
# The way of a text answer

In synchronous mode a text goes from the VISA plugin through a plugin response, a frame and a `CommandResponse` to the script. The plugin keeps an answer twice, cut to 4095 bytes as the text and cut to 127 bytes as the value, and the script gets the value. The frame holds the whole message.
-/

namespace InstrumentServer

open ByteString Ipc

/-- What `call` returns to the script for a response, when it runs synchronously. -/
def luaResult (resp : CommandResponse) : LuaValue :=
  if !resp.success then .nil
  else if resp.hasLargeData then .nil
  else
    match resp.returnValue with
    | some (.double value) => .number value
    | some (.int64 value) => .integer value
    | some (.string value) => .string value
    | some (.boolean value) => .boolean value
    | some (.doubles _) | none => .nil

/-- What the script gets for a response of the plugin, unless the encoder or the decoder throws. -/
def returnedToScript (N : JsonLibrary) (msg : IpcMessage) (cmd : SerializedCommand) (presp : PluginResponse) :
    Option LuaValue :=
  match Instrument.sendCommandResponse N msg cmd (Instrument.commandOutcome cmd presp) with
  | .error _ => none
  | .ok resp =>
      match deserializeResponse N resp.payload with
      | .error _ => none
      | .ok resp => some (luaResult resp)

/-- A response with a text as its value is written without blanks, and only what JSON wants escaped is escaped. -/
def WritesCompactly (N : JsonLibrary) : Prop :=
  ∀ resp value text, resp.returnValue = some (.string value) → serializeResponse N resp = .ok text →
    text.length ≤ (Json.Text.write (.object (responseFields resp))).length

theorem writesCompactly_compact : WritesCompactly .compact :=
  fun _ _ _ _ htext => (congrArg List.length (JsonLibrary.compact_dump htext)).ge

/-- A character between the blank and the tilde. -/
def Printable (b : UInt8) : Prop := 32 ≤ b ∧ b ≤ 126

instance : DecidablePred Printable := fun b => inferInstanceAs (Decidable (32 ≤ b ∧ b ≤ 126))

theorem validUtf8_of_printable {text : ByteString} (htext : ∀ b ∈ text, Printable b) : ValidUtf8 text :=
  validUtf8_of_forall_mem fun b hb => validUtf8_ascii (UInt8.lt_of_le_of_lt (htext b hb).2 (by decide))

theorem length_writeString_of_printable {text : ByteString} (htext : ∀ b ∈ text, Printable b) :
    (Json.Text.writeString text).length ≤ text.length * 2 + 2 :=
  Json.Text.length_writeString_le fun b hb => Json.Text.length_escapeByte_le_two (htext b hb).1

/-! ### The copies of a text -/

theorem CharArray.text_copy_of_printable {size : Nat} (hsize : 0 < size) {text : ByteString}
    (htext : ∀ b ∈ text, Printable b) : (CharArray.copy size hsize text).text = text.take (size - 1) := by
  have hnul : text.takeWhile (· ≠ 0) = text := VisaPlugin.takeWhile_ne_zero fun h => absurd (htext 0 h) (by decide)
  rw [CharArray.copy]
  dsimp only
  rw [hnul]

/-! ### The response of the plugin -/

/-- Printable characters that are no number. -/
structure TextAnswer (text : ByteString) : Prop where
  printable : ∀ b ∈ text, Printable b
  noNumber : ∀ numeral, strtod text ≠ some (numeral, [])

/-- The plugin has sent a command and read a short text that is no number. -/
structure ReadsText (state : VisaPluginState) (exchange : VisaExchange) (cmd : SerializedCommand) : Prop where
  initialized : state.initialized = true
  written : 0 ≤ exchange.writeStatus
  expectsResponse : cmd.expectsResponse = true
  read : 0 ≤ exchange.readStatus
  reachesPlugin : cmd.verb ≠ barrierNop
  small : (VisaPlugin.trimReply exchange.received).length ≤ VisaPlugin.largeDataThreshold
  plain : TextAnswer (VisaPlugin.trimReply exchange.received)

/-- The response with the text. -/
def shortTextResponse (cmd : PluginCommand) (reply : ByteString) : PluginResponse :=
  { VisaPlugin.storeText (VisaPlugin.beginResponse cmd .zero) reply with success := true }

theorem returnValue_shortTextResponse (cmd : PluginCommand) {reply : ByteString} (hplain : TextAnswer reply) :
    (shortTextResponse cmd reply).returnValue = .string (.copy _ pluginMaxStringLen_pos reply) := by
  show VisaPlugin.replyValue reply = _
  rw [VisaPlugin.replyValue, VisaPlugin.takeWhile_ne_zero fun h => absurd (hplain.printable 0 h) (by decide)]
  split
  · rename_i numeral hnumeral
    exact absurd hnumeral (hplain.noNumber numeral)
  · rfl

theorem executeCommand_of_readsText {state : VisaPluginState} {exchange : VisaExchange} {cmd : SerializedCommand}
    (htext : ReadsText state exchange cmd) (env : CreateSurroundings) (m : DataBufferManager) :
    (VisaPlugin.executeCommand state exchange env m (toPluginCommand cmd)).2.1 =
      shortTextResponse (toPluginCommand cmd) (VisaPlugin.trimReply exchange.received) := by
  have hsmall : VisaPlugin.largeReply? exchange.received = none := if_neg (Nat.not_lt.mpr htext.small)
  have hexpects : (toPluginCommand cmd).expectsResponse = true := htext.expectsResponse
  simp [VisaPlugin.executeCommand, htext.initialized, hexpects, hsmall, Int32.not_lt.mpr htext.written,
    Int32.not_lt.mpr htext.read, shortTextResponse]

section

variable (cmd : PluginCommand) {reply : ByteString}

theorem validText_shortTextResponse (hplain : TextAnswer reply) :
    (shortTextResponse cmd reply).ValidText ↔ ValidUtf8 cmd.id.text ∧ ValidUtf8 cmd.instrumentName.text := by
  have hcut (size : Nat) (hsize : 0 < size) : ValidUtf8 (CharArray.copy size hsize reply).text := by
    rw [CharArray.text_copy_of_printable hsize hplain.printable]
    exact validUtf8_of_printable fun b hb => hplain.printable b (List.mem_of_mem_take hb)
  have hvalue : ∀ s, (shortTextResponse cmd reply).returnValue = .string s → ValidUtf8 s.text := by
    intro s hs
    rw [returnValue_shortTextResponse cmd hplain, PluginParamValue.string.injEq] at hs
    exact hs ▸ hcut _ _
  have hempty : ValidUtf8 (shortTextResponse cmd reply).errorMessage.text := validUtf8_bytes ""
  constructor
  · rintro ⟨hid, hname, -⟩
    exact ⟨hid, hname⟩
  · rintro ⟨hid, hname⟩
    exact ⟨hid, hname, hempty, hcut _ pluginMaxPayload_pos, fun _ => hvalue,
      fun hlarge => absurd hlarge Bool.false_ne_true⟩

theorem returnValue_fromPluginResponse_shortTextResponse (hplain : TextAnswer reply) :
    (fromPluginResponse (shortTextResponse cmd reply)).returnValue =
      some (.string (reply.take (pluginMaxStringLen - 1))) := by
  show (shortTextResponse cmd reply).returnValue.toParamValue = _
  rw [returnValue_shortTextResponse cmd hplain, PluginParamValue.toParamValue,
    CharArray.text_copy_of_printable _ hplain.printable]

theorem responseFields_shortTextResponse (hplain : TextAnswer reply) :
    responseFields (fromPluginResponse (shortTextResponse cmd reply)) =
      [(bytes "command_id", .string cmd.id.text), (bytes "error_code", .integer 0), (bytes "error_message", .string []),
        (bytes "has_large_data", .boolean false), (bytes "instrument_name", .string cmd.instrumentName.text),
        (bytes "return_type", .string (bytes "string")),
        (bytes "return_value", .string (reply.take (pluginMaxStringLen - 1))), (bytes "success", .boolean true),
        (bytes "text_response", .string (reply.take (pluginMaxPayload - 1)))] := by
  have htext : (fromPluginResponse (shortTextResponse cmd reply)).textResponse = reply.take (pluginMaxPayload - 1) :=
    CharArray.text_copy_of_printable pluginMaxPayload_pos hplain.printable
  rw [responseFields_eq, returnFields, returnValue_fromPluginResponse_shortTextResponse cmd hplain, htext]
  rfl

/-- The message fits the frame, whatever has to be escaped. -/
theorem length_shortTextResponse (hplain : TextAnswer reply) (hsmall : reply.length ≤ VisaPlugin.largeDataThreshold) :
    (Json.Text.write (.object (responseFields (fromPluginResponse (shortTextResponse cmd reply))))).length ≤
      maxPayload := by
  have hname (array : CharArray pluginMaxStringLen) : (Json.Text.writeString array.text).length ≤ 764 := by
    have hlength := Json.Text.length_writeString_le fun b (_ : b ∈ array.text) => Json.Text.length_escapeByte_le b
    have hterminated : array.text.length < 128 := array.terminated
    omega
  have hcopy (size : Nat) : (Json.Text.writeString (reply.take size)).length ≤ min size reply.length * 2 + 2 := by
    rw [← List.length_take]
    exact length_writeString_of_printable fun b hb => hplain.printable b (List.mem_of_mem_take hb)
  have hfields : (responseFields (fromPluginResponse (shortTextResponse cmd reply))).map Prod.fst =
      [bytes "command_id", bytes "error_code", bytes "error_message", bytes "has_large_data", bytes "instrument_name",
        bytes "return_type", bytes "return_value", bytes "success", bytes "text_response"] := by
    rw [responseFields_shortTextResponse cmd hplain]
    rfl
  have hkeys : ∀ key ∈ (responseFields (fromPluginResponse (shortTextResponse cmd reply))).map Prod.fst,
      (Json.Text.writeString key).length ≤ 17 := by
    rw [hfields]
    decide +kernel
  have hwritten := Json.Text.length_writeFields_le hkeys
  have hconstants : (Json.Text.write (.integer 0)).length + (Json.Text.writeString []).length +
      (Json.Text.write (.boolean false)).length + (Json.Text.writeString (bytes "string")).length +
      (Json.Text.write (.boolean true)).length = 20 := by decide +kernel
  rw [responseFields_shortTextResponse cmd hplain] at hwritten ⊢
  have hid := hname cmd.id
  have hinstrument := hname cmd.instrumentName
  have hvalue := hcopy (pluginMaxStringLen - 1)
  have hreply := hcopy (pluginMaxPayload - 1)
  simp only [Json.Text.write, List.length_cons, List.map_cons, List.map_nil, List.sum_cons, List.sum_nil,
    List.length_nil, pluginMaxStringLen, pluginMaxPayload, VisaPlugin.largeDataThreshold, maxPayload]
    at hwritten hconstants hid hinstrument hvalue hreply hsmall ⊢
  omega

end

/-! ### To the script -/

/-- The script gets the result of a response that fits the frame exactly when its texts are valid. -/
theorem returnedToScript_eq_some_iff {N : JsonLibrary} (msg : IpcMessage) {cmd : SerializedCommand}
    (hplugin : cmd.verb ≠ barrierNop) {presp : PluginResponse} (hfinite : presp.FiniteReturn) (hfits : presp.FitsFrame N)
    (value : LuaValue) :
    returnedToScript N msg cmd presp = some value ↔ presp.ValidText ∧ luaResult (fromPluginResponse presp) = value := by
  have houtcome : Instrument.commandOutcome cmd presp = presp := if_neg hplugin
  have hread := (finite_fromPluginResponse presp).mpr hfinite
  rw [returnedToScript, houtcome, ← validText_fromPluginResponse, ← serializeResponse_ok_iff N,
    Instrument.sendCommandResponse]
  cases htext : serializeResponse N (fromPluginResponse presp) with
  | error e => simp [bind, Except.bind]
  | ok text =>
      rcases deserializeResponse_take N maxPayload htext with ⟨-, hdecode⟩ | ⟨hnot, -⟩
      · have hpayload : deserializeResponse N (IpcMessage.frame .response msg.id (cmd.syncToken.getD 0) text).payload =
            .ok (fromPluginResponse presp) := hdecode.trans (congrArg _ (decodedResponse_fromPluginResponse presp))
        simp [bind, Except.bind, pure, Except.pure, hpayload]
      · exact absurd ⟨hfits text htext, hread⟩ hnot

theorem luaResult_shortTextResponse (cmd : PluginCommand) {reply : ByteString} (hplain : TextAnswer reply) :
    luaResult (fromPluginResponse (shortTextResponse cmd reply)) = .string (reply.take (pluginMaxStringLen - 1)) := by
  have hsuccess : (fromPluginResponse (shortTextResponse cmd reply)).success = true := rfl
  have hsmall : (fromPluginResponse (shortTextResponse cmd reply)).hasLargeData = false := rfl
  rw [luaResult, hsuccess, hsmall, returnValue_fromPluginResponse_shortTextResponse cmd hplain]
  rfl

/-- The script gets the first 127 bytes. -/
theorem textReply_returned_iff {N : JsonLibrary} (hcompact : WritesCompactly N) {state : VisaPluginState}
    {exchange : VisaExchange} {cmd : SerializedCommand} (htext : ReadsText state exchange cmd) (env : CreateSurroundings)
    (m : DataBufferManager) (msg : IpcMessage) (value : LuaValue) :
    returnedToScript N msg cmd (VisaPlugin.executeCommand state exchange env m (toPluginCommand cmd)).2.1 = some value ↔
      (ValidUtf8 (toPluginCommand cmd).id.text ∧ ValidUtf8 (toPluginCommand cmd).instrumentName.text) ∧
        .string ((VisaPlugin.trimReply exchange.received).take (pluginMaxStringLen - 1)) = value := by
  have hvalue := returnValue_shortTextResponse (toPluginCommand cmd) htext.plain
  have hfinite : (shortTextResponse (toPluginCommand cmd) (VisaPlugin.trimReply exchange.received)).FiniteReturn := by
    intro _ d hd
    rw [hvalue] at hd
    contradiction
  have hfits : (shortTextResponse (toPluginCommand cmd) (VisaPlugin.trimReply exchange.received)).FitsFrame N := by
    intro text hwritten
    have hreturn := returnValue_fromPluginResponse_shortTextResponse (toPluginCommand cmd) htext.plain
    exact (hcompact _ _ text hreturn hwritten).trans
      (length_shortTextResponse _ htext.plain htext.small)
  rw [executeCommand_of_readsText htext, returnedToScript_eq_some_iff msg htext.reachesPlugin hfinite hfits,
    validText_shortTextResponse _ htext.plain, luaResult_shortTextResponse _ htext.plain]

/-- A short text that is no number reaches the script unchanged if and only if it has less than 128 bytes and the two names in the response, as they were cut for the plugin, are valid UTF-8. -/
theorem textReply_unchanged_iff {N : JsonLibrary} (hcompact : WritesCompactly N) {state : VisaPluginState}
    {exchange : VisaExchange} {cmd : SerializedCommand} (htext : ReadsText state exchange cmd) (env : CreateSurroundings)
    (m : DataBufferManager) (msg : IpcMessage) :
    returnedToScript N msg cmd (VisaPlugin.executeCommand state exchange env m (toPluginCommand cmd)).2.1 =
        some (.string (VisaPlugin.trimReply exchange.received)) ↔
      (VisaPlugin.trimReply exchange.received).length < pluginMaxStringLen ∧
        ValidUtf8 (toPluginCommand cmd).id.text ∧ ValidUtf8 (toPluginCommand cmd).instrumentName.text := by
  have hsize : (VisaPlugin.trimReply exchange.received).length ≤ pluginMaxStringLen - 1 ↔
      (VisaPlugin.trimReply exchange.received).length < pluginMaxStringLen := Nat.le_sub_one_iff_lt pluginMaxStringLen_pos
  rw [textReply_returned_iff hcompact htext, LuaValue.string.injEq, List.take_eq_self_iff, hsize, and_comm]

theorem strtod_ne_of_rest {text : ByteString} (hrest : (strtod text).map Prod.snd ≠ some []) (numeral : Numeral) :
    strtod text ≠ some (numeral, []) := fun h => hrest (congrArg (Option.map Prod.snd) h)

/-- A command whose answer is wanted. -/
def outputQuery : SerializedCommand :=
  { id := bytes "dmm-1", instrumentName := bytes "dmm", verb := bytes "OUTP?", params := .empty, expectsResponse := true }

theorem textReply_unchanged_iff_off :
    returnedToScript .compact sentMessage outputQuery (VisaPlugin.executeCommand { initialized := true }
      { received := bytes "OFF\n", fits := by decide } ⟨true, 10, 10⟩ {} (toPluginCommand outputQuery)).2.1 =
        some (.string (bytes "OFF")) := by
  have htext : ReadsText { initialized := true } { received := bytes "OFF\n", fits := by decide } outputQuery :=
    ⟨rfl, by decide, rfl, by decide, by decide, by decide +kernel, by decide +kernel,
      strtod_ne_of_rest (by decide +kernel)⟩
  exact (textReply_unchanged_iff writesCompactly_compact htext _ _ _).mpr ⟨by decide, by decide, by decide⟩

/-- Of a text of 128 characters the script gets 127. -/
theorem textReply_not_unchanged_long :
    ∃ state exchange cmd, ReadsText state exchange cmd ∧ VisaPlugin.trimReply exchange.received = List.replicate 128 65 ∧
      ∀ env m msg,
        returnedToScript .compact msg cmd (VisaPlugin.executeCommand state exchange env m (toPluginCommand cmd)).2.1 =
          some (.string (List.replicate 127 65)) ∧
        returnedToScript .compact msg cmd (VisaPlugin.executeCommand state exchange env m (toPluginCommand cmd)).2.1 ≠
          some (.string (VisaPlugin.trimReply exchange.received)) := by
  have htext : ReadsText { initialized := true } { received := List.replicate 128 65, fits := by decide +kernel }
      outputQuery :=
    ⟨rfl, by decide, rfl, by decide, by decide, by decide +kernel, by decide +kernel,
      strtod_ne_of_rest (by decide +kernel)⟩
  refine ⟨_, _, _, htext, by decide +kernel, fun env m msg => ?_⟩
  have hreturned := (textReply_returned_iff writesCompactly_compact htext env m msg (.string (List.replicate 127 65))).mpr
    ⟨⟨by decide, by decide⟩, by decide +kernel⟩
  refine ⟨hreturned, fun hsame => ?_⟩
  exact absurd (hreturned.symm.trans hsame) (by decide +kernel)

end InstrumentServer
