import InstrumentServer.Ipc.Codec
import InstrumentServer.Server.ProxyPromises
import InstrumentServer.Worker.Instrument

/-!
# What fits through a frame

A command and a response cross the process boundary as JSON text in a frame of 4096 bytes. Neither side checks the size, the encoder throws on a string that is not UTF-8, and a number that is not finite is written as null. For each direction the exact condition under which the other side accepts the message.
-/

namespace InstrumentServer

open Ipc InstrumentWorkerProxy Transition

/-! ### Responses -/

namespace PluginResponse

/-- The return value that reaches the encoder is not an infinity or a NaN. -/
def FiniteReturn (presp : PluginResponse) : Prop :=
  presp.success = true → ∀ d, presp.returnValue = .double d → d.isFinite = true

/-- The JSON text of the response fits the frame. -/
def FitsFrame (N : JsonLibrary) (presp : PluginResponse) : Prop :=
  ∀ text, serializeResponse N (fromPluginResponse presp) = .ok text → text.length ≤ maxPayload

end PluginResponse

theorem finite_fromPluginResponse (presp : PluginResponse) :
    (∀ value, (fromPluginResponse presp).returnValue = some value → value.Finite) ↔ presp.FiniteReturn := by
  rw [fromPluginResponse, PluginResponse.FiniteReturn]
  cases presp.success <;> cases presp.returnValue <;> simp [PluginParamValue.toParamValue, ParamValue.Finite]

theorem decodedResponse_fromPluginResponse (presp : PluginResponse) :
    decodedResponse (fromPluginResponse presp) = fromPluginResponse presp := by
  rw [decodedResponse, fromPluginResponse]
  cases presp.hasLargeData <;> rfl

/-- The worker builds a response message, the listener decodes it, and the promise `p` gets the converted reply. -/
def ResponseDelivered (N : JsonLibrary) (px : InstrumentWorkerProxy) (p : PromiseId) (msg : IpcMessage)
    (cmd : SerializedCommand) (presp : PluginResponse) : Prop :=
  ∃ resp px', Instrument.sendCommandResponse N msg cmd presp = .ok resp ∧
    px.handleResponseMessage N resp = .ok px' ∧ px'.values p = some (fromPluginResponse presp)

/-- The listener's half: whatever is in the frame, a decodable response reaches the pending promise of its id. -/
theorem handleResponseMessage_pending {N : JsonLibrary} {px : InstrumentWorkerProxy} (hinv : PromiseInv N px)
    (msg : IpcMessage) {p : PromiseId} {resp : CommandResponse}
    (hpending : SortedAssoc.find? msg.id px.pendingResponses = some p)
    (hdecode : deserializeResponse N msg.payload = .ok resp) :
    ∃ px', px.handleResponseMessage N msg = .ok px' ∧ px'.values p = some resp := by
  obtain ⟨-, -, hunfulfilled⟩ := hinv.owner _ _ (SortedAssoc.mem_of_find? hpending)
  have hnone := hinv.values_eq_none hunfulfilled
  rw [handleResponseMessage, hdecode]
  simp only [bind, Except.bind, hpending]
  split
  · exact ⟨_, rfl, by simp [setValue, erasePending, hnone]⟩
  · exact ⟨_, rfl, by simp [setValue, erasePending, hnone]⟩

/-- A reply reaches the future of its command exactly when its strings are valid UTF-8, its return value is finite and its JSON text fits the frame. -/
theorem response_delivered_iff {N : JsonLibrary} {instrumentName : ByteString} {px : InstrumentWorkerProxy}
    (hreach : Reachable (system N instrumentName) px) {msg : IpcMessage} {p : PromiseId}
    (hpending : SortedAssoc.find? msg.id px.pendingResponses = some p) (cmd : SerializedCommand)
    (presp : PluginResponse) :
    ResponseDelivered N px p msg cmd presp ↔ presp.ValidText ∧ presp.FiniteReturn ∧ presp.FitsFrame N := by
  have hinv := PromiseInv.of_reachable hreach
  constructor
  · rintro ⟨resp, px', hsend, hhandle, -⟩
    obtain ⟨text, htext, rfl⟩ := (Instrument.sendCommandResponse_ok_iff N msg cmd presp resp).mp hsend
    obtain ⟨resp', hdecode, -⟩ := handleResponseMessage_cases hhandle
    rcases deserializeResponse_take N maxPayload htext with ⟨⟨hle, hfinite⟩, -⟩ | ⟨-, e, herror⟩
    · refine ⟨(validText_fromPluginResponse presp).mp ((serializeResponse_ok_iff N _).mp ⟨text, htext⟩),
        (finite_fromPluginResponse presp).mp hfinite, fun text' htext' => ?_⟩
      rw [htext] at htext'
      exact Except.ok.inj htext' ▸ hle
    · have hclash := hdecode.symm.trans herror
      simp at hclash
  · rintro ⟨hvalid, hfinite, hfits⟩
    obtain ⟨text, htext⟩ := (serializeResponse_ok_iff N _).mpr ((validText_fromPluginResponse presp).mpr hvalid)
    have hread := (finite_fromPluginResponse presp).mpr hfinite
    rcases deserializeResponse_take N maxPayload htext with ⟨-, hdecode⟩ | ⟨hnot, -⟩
    · rw [decodedResponse_fromPluginResponse] at hdecode
      obtain ⟨px', hhandle, hvalue⟩ := handleResponseMessage_pending hinv
        (.frame .response msg.id (cmd.syncToken.getD 0) text) hpending hdecode
      exact ⟨_, px', (Instrument.sendCommandResponse_ok_iff N msg cmd presp _).mpr ⟨text, htext, rfl⟩, hhandle, hvalue⟩
    · exact absurd ⟨hfits text htext, hread⟩ hnot

/-- A command without parameters. -/
def readCommand : SerializedCommand := { instrumentName := bytes "dmm", verb := bytes "READ", params := .empty }

/-- One call of `execute` has sent its command and waits for the response. -/
def oneSentRun : List ProxyLabel :=
  [.execute readCommand, .advance 0 true, .advance 0 true, .advance 0 true, .advance 0 true]

def sentMessage : IpcMessage := { type := .command, id := 1 }

def integerReply : PluginResponse :=
  { PluginResponse.zero with success := true, returnValue := .int64 42, textResponse := .copy _ pluginMaxPayload_pos (bytes "42") }

def nanReply : PluginResponse :=
  { PluginResponse.zero with success := true, returnValue := .double .notANumber }

theorem response_delivered_iff_integerReply :
    ∃ px, (system .compact (bytes "dmm")).run oneSentRun = some px ∧
      SortedAssoc.find? sentMessage.id px.pendingResponses = some 0 ∧
      ResponseDelivered .compact px 0 sentMessage readCommand integerReply := by
  have hview : ((system .compact (bytes "dmm")).run oneSentRun).map
      (fun px => SortedAssoc.find? sentMessage.id px.pendingResponses) = some (some 0) := by decide +kernel
  obtain ⟨px, hrun, hpending⟩ := Option.map_eq_some_iff.mp hview
  have hlength : (serializeResponse .compact (fromPluginResponse integerReply)).toOption.map List.length =
      some 171 := by decide +kernel
  refine ⟨px, hrun, hpending, (response_delivered_iff (reachable_of_run hrun) hpending _ _).mpr ⟨?_, ?_, ?_⟩⟩
  · exact ⟨by decide, by decide, by decide, by decide, by simp [integerReply], by simp [integerReply, PluginResponse.zero]⟩
  · simp [PluginResponse.FiniteReturn, integerReply]
  · intro text htext
    obtain ⟨text', htext', hlength⟩ := Except.map_toOption_eq_some_iff.mp hlength
    rw [Except.ok.inj (htext.symm.trans htext'), hlength]
    decide

/-- A measurement that is not a number is a reply a plugin can give; the listener cannot decode it. -/
theorem response_not_delivered_nanReply :
    ∃ px, Reachable (system .compact (bytes "dmm")) px ∧
      SortedAssoc.find? sentMessage.id px.pendingResponses = some 0 ∧
      (∃ resp e, Instrument.sendCommandResponse .compact sentMessage readCommand nanReply = .ok resp ∧
        px.handleResponseMessage .compact resp = .error e) ∧
      ¬ ResponseDelivered .compact px 0 sentMessage readCommand nanReply := by
  have hview : ((system .compact (bytes "dmm")).run oneSentRun).map
      (fun px => SortedAssoc.find? sentMessage.id px.pendingResponses) = some (some 0) := by decide +kernel
  obtain ⟨px, hrun, hpending⟩ := Option.map_eq_some_iff.mp hview
  have hread : (Instrument.sendCommandResponse .compact sentMessage readCommand nanReply).toOption.map
      (fun resp => (deserializeResponse .compact resp.payload).toOption) = some none := by decide +kernel
  obtain ⟨resp, hsend, hdecode⟩ := Except.map_toOption_eq_some_iff.mp hread
  obtain ⟨e, hdecode⟩ := Except.toOption_eq_none_iff.mp hdecode
  have hhandle : px.handleResponseMessage .compact resp = .error e := by
    rw [handleResponseMessage, hdecode]
    rfl
  refine ⟨px, reachable_of_run hrun, hpending, ⟨resp, e, hsend, hhandle⟩, ?_⟩
  rintro ⟨resp', px', hsend', hhandle', -⟩
  obtain rfl := Except.ok.inj (hsend.symm.trans hsend')
  simp [hhandle] at hhandle'

/-! ### Commands -/

/-- The command as `execute` encodes it, with the id made from the next message id. -/
def numberedCommand (px : InstrumentWorkerProxy) (cmd : SerializedCommand) : SerializedCommand :=
  { cmd with id := px.commandId px.nextMessageId }

/-- `execute` either resolves its future with a failure and sends nothing, or sends one command that the worker decodes. -/
def CommandFramed (N : JsonLibrary) (px : InstrumentWorkerProxy) (cmd : SerializedCommand) (sent : Bool) : Prop :=
  ((px.execute N cmd sent).2 = [] ∧
      ∃ resp, (px.execute N cmd sent).1.values px.promises = some resp ∧ resp.success = false) ∨
    ∃ msg, (px.execute N cmd sent).2 = [msg] ∧ msg.type = .command ∧
      ∃ cmd', Instrument.deserializeCommandFromMsg N msg = .ok cmd'

theorem execute_sent {N : JsonLibrary} {px : InstrumentWorkerProxy} {cmd : SerializedCommand} {text : ByteString}
    (hopen : px.stopPoint ≠ .stopped) (htext : serializeCommand N (numberedCommand px cmd) = .ok text) :
    (px.execute N cmd true).2 = [.frame .command px.nextMessageId (cmd.syncToken.getD 0) text] := by
  simp only [numberedCommand, commandId, List.append_assoc] at htext
  simp [execute, runCall, advance, create, drawMessageId, storePromise, encode, setCall, commandId, htext, hopen]

theorem execute_unsent {N : JsonLibrary} {px : InstrumentWorkerProxy} {cmd : SerializedCommand} {text : ByteString}
    (hopen : px.stopPoint ≠ .stopped) (htext : serializeCommand N (numberedCommand px cmd) = .ok text)
    (hnone : px.values px.promises = none) :
    (px.execute N cmd false).2 = [] ∧
      (px.execute N cmd false).1.values px.promises = some (px.sendFailure (numberedCommand px cmd)) := by
  simp only [numberedCommand, commandId, List.append_assoc] at htext
  simp [execute, runCall, advance, create, drawMessageId, storePromise, encode, setCall, commandId, htext, hopen,
    resolveUnsent, setValue, erasePending, hnone, sendFailure, numberedCommand]

/-- A command is framed exactly when the send fails, or its JSON text fits the frame and no array parameter has an element that is not finite. -/
theorem command_framed_iff {N : JsonLibrary} {instrumentName : ByteString} {px : InstrumentWorkerProxy}
    (hreach : Reachable (system N instrumentName) px) (hopen : px.stopPoint ≠ .stopped) {cmd : SerializedCommand}
    (hvalid : (numberedCommand px cmd).ValidText) (sent : Bool) :
    CommandFramed N px cmd sent ↔
      sent = false ∨
        (∀ text, serializeCommand N (numberedCommand px cmd) = .ok text → text.length ≤ maxPayload) ∧
          ∀ entry ∈ cmd.params.entries, entry.2.ArrayFinite := by
  have hinv := PromiseInv.of_reachable hreach
  obtain ⟨text, htext⟩ := (serializeCommand_ok_iff N _).mpr hvalid
  have hnone : px.values px.promises = none := 
    hinv.values_eq_none (hinv.early _ (Or.inl hinv.fresh_point))
  cases sent with
  | false =>
      obtain ⟨hout, hvalue⟩ := execute_unsent hopen htext hnone
      exact iff_of_true (Or.inl ⟨hout, _, hvalue, rfl⟩) (Or.inl rfl)
  | true =>
      have haccept := deserializeCommand_take N maxPayload htext
      have hfits : (∀ text', serializeCommand N (numberedCommand px cmd) = .ok text' → text'.length ≤ maxPayload) ↔
          text.length ≤ maxPayload := by
        simp [htext]
      rw [CommandFramed, execute_sent hopen htext, hfits]
      simp only [Bool.true_eq_false, false_or, List.cons_ne_nil, false_and, List.cons.injEq, and_true, exists_eq_left']
      exact ⟨fun h => haccept.mp h.2, fun h => ⟨rfl, haccept.mpr h⟩⟩

/-- A proxy that has just been started. -/
def startedProxy : InstrumentWorkerProxy := { instrumentName := bytes "dmm" }

theorem command_framed_iff_readCommand : CommandFramed .compact startedProxy readCommand true := by
  have hlength : (serializeCommand .compact (numberedCommand startedProxy readCommand)).toOption.map List.length =
      some 107 := by decide +kernel
  have hreach : Reachable (system .compact (bytes "dmm")) startedProxy := .init
  refine (command_framed_iff hreach (by decide) ?_ true).mpr (Or.inr ⟨?_, ?_⟩)
  · exact ⟨by decide, by decide, by decide, by simp [numberedCommand, readCommand, ParamMap.empty, ParamMap.ValidText]⟩
  · intro text htext
    obtain ⟨text', htext', hlength⟩ := Except.map_toOption_eq_some_iff.mp hlength
    rw [Except.ok.inj (htext.symm.trans htext'), hlength]
    decide
  · simp [readCommand, ParamMap.empty]

/-- A waveform longer than the frame. -/
def waveform : ByteString := List.replicate 5000 48

theorem validUtf8_waveform : ByteString.ValidUtf8 waveform := by
  have hdigit : ByteString.ValidUtf8 [48] := by decide
  exact ByteString.validUtf8_replicate hdigit 5000

theorem length_waveform : waveform.length = 5000 := List.length_replicate

def longCommand : SerializedCommand :=
  { instrumentName := bytes "dmm", verb := bytes "LOAD"
    params := ParamMap.empty.insert (bytes "arg0") (.string waveform) }

/-- The first 4096 bytes of the text are sent, and the worker cannot decode them. -/
theorem command_not_framed_longCommand :
    Reachable (system .compact (bytes "dmm")) startedProxy ∧ startedProxy.stopPoint ≠ .stopped ∧
      (numberedCommand startedProxy longCommand).ValidText ∧
      ¬ CommandFramed .compact startedProxy longCommand true := by
  have hvalid : (numberedCommand startedProxy longCommand).ValidText := by
    refine ⟨by decide, by decide, by decide, fun entry hmem => ?_⟩
    obtain rfl := List.mem_singleton.mp hmem
    exact ⟨ByteString.validUtf8_bytes "arg0", validUtf8_waveform⟩
  obtain ⟨text, htext⟩ := (serializeCommand_ok_iff .compact _).mpr hvalid
  have hlong : maxPayload < text.length := by
    have hwritten := JsonLibrary.compact_dump htext
    have hparam : (bytes "arg0", Json.string waveform) ∈ paramFields longCommand.params := List.mem_singleton.mpr rfl
    have hparams : (bytes "params", Json.object (paramFields longCommand.params)) ∈
        commandFields (numberedCommand startedProxy longCommand) := by
      rw [commandFields_eq]
      simp [numberedCommand]
    have hinner := Json.Text.length_write_le_writeFields hparam
    have houter := Json.Text.length_write_le_writeFields hparams
    have hstring := Json.Text.length_le_writeString waveform
    rw [length_waveform] at hstring
    rw [← hwritten, maxPayload]
    simp only [Json.Text.write, List.length_cons] at hinner houter ⊢
    omega
  refine ⟨.init, by decide, hvalid, ?_⟩
  rw [CommandFramed, execute_sent (by decide) htext]
  rintro (⟨hout, -⟩ | ⟨msg, hout, -, hdecode⟩)
  · simp at hout
  · obtain rfl := List.head_eq_of_cons_eq hout
    exact absurd ((deserializeCommand_take .compact maxPayload htext).mp hdecode).1 (not_le.mpr hlong)

end InstrumentServer
