import InstrumentServer.Worker.Instrument
import Mathlib.Data.List.Forall2

/-!
# The main loop of a worker

The messages a worker takes off its queue, one after the other, each with the reply the plugin would give to it. The plugin is any code: its reply may depend on everything, so the replies are just a column of the input. A worker that has left the loop takes no further message.

No command is decoded as the last one for its token, so no token is ever waited for and no command is dropped. What remains is the encoder of the response: it throws on a text that is not UTF-8, the exception ends the process before anything is sent, and everything queued behind that command stays there. `mainLoop_answersAll_iff` says that nothing else can go wrong.
-/

namespace InstrumentServer

open Ipc

/-- A message the worker receives and what the plugin replies should the message reach it. -/
structure Delivery where
  msg : IpcMessage
  plugin : PluginResponse

/-- What a worker did: the commands it executed, those of them it handed to the plugin, and the messages it sent. -/
structure WorkerTrace where
  executed : List (IpcMessage × SerializedCommand) := []
  pluginCalls : List SerializedCommand := []
  sent : List IpcMessage := []

namespace WorkerTrace

def append (left right : WorkerTrace) : WorkerTrace :=
  ⟨left.executed ++ right.executed, left.pluginCalls ++ right.pluginCalls, left.sent ++ right.sent⟩

end WorkerTrace

namespace Instrument

/-- The acknowledgement, when there is one to send. -/
def acknowledge (w : Instrument) : Instrument × List IpcMessage := w.sendSyncAck.getD (w, [])

/-- `handle_command` from the decoded command on. -/
def handleCommand (N : JsonLibrary) (w : Instrument) (msg : IpcMessage) (cmd : SerializedCommand)
    (plugin : PluginResponse) : Instrument × WorkerTrace :=
  let (replied, resp) := (w.finishCommand N plugin).getD (w, [])
  let (next, ack) := replied.acknowledge
  (next, ⟨[(msg, cmd)], if cmd.verb = barrierNop then [] else [cmd], resp ++ ack⟩)

/-- One turn of the loop. -/
def deliver (N : JsonLibrary) (w : Instrument) (d : Delivery) : Instrument × WorkerTrace :=
  match w.receive N d.msg with
  | none => (w, {})
  | some next =>
      match next.phase with
      | .executing msg cmd => next.handleCommand N msg cmd d.plugin
      | _ => (next, {})

def mainLoop (N : JsonLibrary) (w : Instrument) : List Delivery → WorkerTrace
  | [] => {}
  | d :: rest =>
      let (next, trace) := w.deliver N d
      trace.append (next.mainLoop N rest)

end Instrument

/-! ### What a worker owes for its commands -/

/-- The commands among the messages, decoded, in order. -/
def receivedCommands (N : JsonLibrary) (deliveries : List Delivery) : List (IpcMessage × SerializedCommand) :=
  deliveries.filterMap fun d =>
    if d.msg.type = .command then (deserializeCommand N d.msg.payload).toOption.map fun cmd => (d.msg, cmd) else none

/-- One response with the id of the command, and an acknowledgement exactly when the command has a token. -/
def CommandAnswer (command : IpcMessage × SerializedCommand) (answer : List IpcMessage) : Prop :=
  ∃ resp, resp.type = .response ∧ resp.id = command.1.id ∧
    answer = resp :: (command.2.syncToken.map fun token =>
      ({ type := .syncAck, id := command.1.id, syncToken := token } : IpcMessage)).toList

/-- The worker executed the received commands in order, answered each of them, and kept the synthetic ones from the plugin. -/
structure AnswersAll (N : JsonLibrary) (deliveries : List Delivery) (trace : WorkerTrace) : Prop where
  executed : trace.executed = receivedCommands N deliveries
  answered : ∃ answers, List.Forall₂ CommandAnswer (receivedCommands N deliveries) answers ∧
    trace.sent = answers.flatten
  plugin : ∀ cmd ∈ trace.pluginCalls, cmd.verb ≠ barrierNop

/-- The texts of the response to a command: for a synthetic command its own id and name, cut to the size of the plugin's arrays, and otherwise those of the plugin's reply. -/
def ValidReply (cmd : SerializedCommand) (plugin : PluginResponse) : Prop :=
  if cmd.verb = barrierNop then
    ByteString.ValidUtf8 ((cmd.id.takeWhile (· ≠ 0)).take (pluginMaxStringLen - 1)) ∧
      ByteString.ValidUtf8 ((cmd.instrumentName.takeWhile (· ≠ 0)).take (pluginMaxStringLen - 1))
  else plugin.ValidText

/-- Every message is a command the decoder accepts or of a kind that is not a shutdown. -/
def AllDecode (N : JsonLibrary) (deliveries : List Delivery) : Prop :=
  ∀ d ∈ deliveries, d.msg.type ≠ .shutdown ∧
    (d.msg.type = .command → ∃ cmd, deserializeCommand N d.msg.payload = .ok cmd)

/-! ### One turn -/

theorem validText_nopResponse (cmd : SerializedCommand) :
    (Instrument.nopResponse cmd).ValidText ↔
      ByteString.ValidUtf8 ((cmd.id.takeWhile (· ≠ 0)).take (pluginMaxStringLen - 1)) ∧
        ByteString.ValidUtf8 ((cmd.instrumentName.takeWhile (· ≠ 0)).take (pluginMaxStringLen - 1)) := by
  have herror : ByteString.ValidUtf8 (Instrument.nopResponse cmd).errorMessage.text :=
    show ByteString.ValidUtf8 PluginResponse.zero.errorMessage.text by decide
  have htext : ByteString.ValidUtf8 (Instrument.nopResponse cmd).textResponse.text :=
    show ByteString.ValidUtf8 (CharArray.copy _ pluginMaxPayload_pos (bytes "BARRIER_NOP")).text by decide
  have hreturn : (Instrument.nopResponse cmd).returnValue = .none := rfl
  have hlarge : (Instrument.nopResponse cmd).hasLargeData = false := rfl
  constructor
  · rintro ⟨hid, hname, -⟩
    exact ⟨hid, hname⟩
  · rintro ⟨hid, hname⟩
    exact ⟨hid, hname, herror, htext, by simp [hreturn], by simp [hlarge]⟩

theorem validText_commandOutcome (cmd : SerializedCommand) (plugin : PluginResponse) :
    (Instrument.commandOutcome cmd plugin).ValidText ↔ ValidReply cmd plugin := by
  rw [Instrument.commandOutcome, ValidReply]
  split
  · exact validText_nopResponse cmd
  · exact Iff.rfl

section Turn

variable {N : JsonLibrary} {d : Delivery} {cmd : SerializedCommand}

theorem sendCommandResponse_of_validReply (msg : IpcMessage) (hvalid : ValidReply cmd d.plugin) :
    ∃ resp, Instrument.sendCommandResponse N msg cmd (Instrument.commandOutcome cmd d.plugin) = .ok resp ∧
      resp.type = .response ∧ resp.id = msg.id := by
  have htexts := (validText_fromPluginResponse _).mpr ((validText_commandOutcome cmd d.plugin).mpr hvalid)
  obtain ⟨text, htext⟩ := (serializeResponse_ok_iff N _).mpr htexts
  exact ⟨_, (Instrument.sendCommandResponse_ok_iff N msg cmd _ _).mpr ⟨text, htext, rfl⟩, rfl, rfl⟩

theorem sendCommandResponse_of_not_validReply (msg : IpcMessage) (hinvalid : ¬ ValidReply cmd d.plugin) :
    ∃ e, Instrument.sendCommandResponse N msg cmd (Instrument.commandOutcome cmd d.plugin) = .error e := by
  cases hsend : Instrument.sendCommandResponse N msg cmd (Instrument.commandOutcome cmd d.plugin) with
  | error e => exact ⟨e, rfl⟩
  | ok resp =>
      obtain ⟨text, htext, -⟩ := (Instrument.sendCommandResponse_ok_iff N msg cmd _ _).mp hsend
      have htexts := (validText_fromPluginResponse _).mp ((serializeResponse_ok_iff N _).mp ⟨text, htext⟩)
      exact absurd ((validText_commandOutcome cmd d.plugin).mp htexts) hinvalid

namespace Instrument

/-- A message of another kind leaves an idle worker as it is. -/
theorem deliver_other (hcommand : d.msg.type ≠ .command) (hshutdown : d.msg.type ≠ .shutdown) :
    ({} : Instrument).deliver N d = ({}, {}) := by
  rw [deliver, receive]
  cases htype : d.msg.type with
  | command => exact absurd htype hcommand
  | shutdown => exact absurd htype hshutdown
  | syncContinue | response | heartbeat | syncAck => simp [processMessage, htype, handleSyncContinue]

theorem receive_command (htype : d.msg.type = .command) (hdecode : deserializeCommand N d.msg.payload = .ok cmd) :
    ({} : Instrument).receive N d.msg = some { phase := .executing d.msg cmd } := by
  simp [receive, processMessage, htype, beginCommand, deserializeCommandFromMsg, hdecode]

/-- A command whose response can be encoded is answered, and the worker is idle again. -/
theorem deliver_valid (htype : d.msg.type = .command) (hdecode : deserializeCommand N d.msg.payload = .ok cmd)
    (hvalid : ValidReply cmd d.plugin) :
    ∃ answer, CommandAnswer (d.msg, cmd) answer ∧
      ({} : Instrument).deliver N d =
        ({}, ⟨[(d.msg, cmd)], if cmd.verb = barrierNop then [] else [cmd], answer⟩) := by
  obtain ⟨resp, hsend, hresponse, hid⟩ := sendCommandResponse_of_validReply (N := N) d.msg hvalid
  have hlast := isSyncBarrier_of_deserializeCommand N hdecode
  refine ⟨_, ⟨resp, hresponse, hid, rfl⟩, ?_⟩
  rw [deliver, receive_command htype hdecode]
  cases htoken : cmd.syncToken with
  | none => simp [handleCommand, finishCommand, hsend, htoken, acknowledge, sendSyncAck]
  | some token => simp [handleCommand, finishCommand, hsend, htoken, acknowledge, sendSyncAck, hlast]

/-- A command whose response cannot be encoded ends the worker with nothing sent. -/
theorem deliver_invalid (htype : d.msg.type = .command) (hdecode : deserializeCommand N d.msg.payload = .ok cmd)
    (hinvalid : ¬ ValidReply cmd d.plugin) :
    ({} : Instrument).deliver N d =
      ({ phase := .exited }, ⟨[(d.msg, cmd)], if cmd.verb = barrierNop then [] else [cmd], []⟩) := by
  obtain ⟨e, hsend⟩ := sendCommandResponse_of_not_validReply (N := N) d.msg hinvalid
  rw [deliver, receive_command htype hdecode]
  simp [handleCommand, finishCommand, hsend, acknowledge, sendSyncAck]

theorem mainLoop_cons (w : Instrument) (d : Delivery) (rest : List Delivery) :
    w.mainLoop N (d :: rest) = (w.deliver N d).2.append ((w.deliver N d).1.mainLoop N rest) := rfl

theorem mainLoop_exited (deliveries : List Delivery) : ({ phase := .exited } : Instrument).mainLoop N deliveries = {} := by
  induction deliveries with
  | nil => rfl
  | cons d rest ih =>
      have hturn : ({ phase := .exited } : Instrument).deliver N d = ({ phase := .exited }, {}) := by
        simp [deliver, receive]
      rw [mainLoop_cons, hturn, ih]
      rfl

end Instrument

end Turn

/-! ### All turns -/

theorem CommandAnswer.length_eq {command : IpcMessage × SerializedCommand} {answer : List IpcMessage}
    (h : CommandAnswer command answer) : answer.length = 1 + command.2.syncToken.toList.length := by
  obtain ⟨resp, -, -, rfl⟩ := h
  cases command.2.syncToken with
  | none => rfl
  | some token => rfl

section Loop

variable {N : JsonLibrary} {d : Delivery} {rest : List Delivery} {cmd : SerializedCommand}

theorem receivedCommands_other (htype : d.msg.type ≠ .command) :
    receivedCommands N (d :: rest) = receivedCommands N rest := by
  simp [receivedCommands, htype]

theorem receivedCommands_command (htype : d.msg.type = .command)
    (hdecode : deserializeCommand N d.msg.payload = .ok cmd) :
    receivedCommands N (d :: rest) = (d.msg, cmd) :: receivedCommands N rest := by
  simp [receivedCommands, htype, hdecode, Except.toOption]

theorem answersAll_nil : AnswersAll N [] {} where
  executed := rfl
  answered := ⟨[], .nil, rfl⟩
  plugin _ hmem := by simp at hmem

theorem answersAll_other {trace : WorkerTrace} (htype : d.msg.type ≠ .command) :
    AnswersAll N (d :: rest) (WorkerTrace.append {} trace) ↔ AnswersAll N rest trace := by
  have hcommands : receivedCommands N (d :: rest) = receivedCommands N rest := receivedCommands_other htype
  constructor
  · rintro ⟨hexecuted, hanswered, hplugin⟩
    rw [hcommands] at hexecuted hanswered
    exact ⟨hexecuted, hanswered, hplugin⟩
  · rintro ⟨hexecuted, hanswered, hplugin⟩
    rw [← hcommands] at hexecuted hanswered
    exact ⟨hexecuted, hanswered, hplugin⟩

/-- After an answered command the rest of the trace is judged on its own. -/
theorem answersAll_answered {answer : List IpcMessage} {trace : WorkerTrace} (htype : d.msg.type = .command)
    (hdecode : deserializeCommand N d.msg.payload = .ok cmd) (hanswer : CommandAnswer (d.msg, cmd) answer) :
    AnswersAll N (d :: rest)
        (WorkerTrace.append ⟨[(d.msg, cmd)], if cmd.verb = barrierNop then [] else [cmd], answer⟩ trace) ↔
      AnswersAll N rest trace := by
  have hcommands : receivedCommands N (d :: rest) = (d.msg, cmd) :: receivedCommands N rest :=
    receivedCommands_command htype hdecode
  constructor
  · rintro ⟨hexecuted, ⟨answers, hanswers, hsent⟩, hplugin⟩
    rw [hcommands] at hexecuted hanswers
    obtain ⟨first, others, hfirst, hothers, rfl⟩ := List.forall₂_cons_left_iff.mp hanswers
    have hsplit := List.append_inj hsent (hanswer.length_eq.trans hfirst.length_eq.symm)
    exact ⟨List.tail_eq_of_cons_eq hexecuted, ⟨others, hothers, hsplit.2⟩,
      fun c hmem => hplugin c (List.mem_append_right _ hmem)⟩
  · rintro ⟨hexecuted, ⟨answers, hanswers, hsent⟩, hplugin⟩
    refine ⟨?_, ⟨answer :: answers, ?_, ?_⟩, fun c hmem => ?_⟩
    · rw [hcommands, ← hexecuted]
      rfl
    · rw [hcommands]
      exact .cons hanswer hanswers
    · rw [List.flatten_cons, ← hsent]
      rfl
    · rcases List.mem_append.mp hmem with hown | hrest
      · by_cases hnop : cmd.verb = barrierNop
        · simp [hnop] at hown
        · simp only [if_neg hnop, List.mem_singleton] at hown
          exact hown ▸ hnop
      · exact hplugin c hrest

/-- A command that nothing is sent for is not answered. -/
theorem not_answersAll_of_sent_nil {trace : WorkerTrace} (htype : d.msg.type = .command)
    (hdecode : deserializeCommand N d.msg.payload = .ok cmd) (hsent : trace.sent = []) :
    ¬ AnswersAll N (d :: rest) trace := by
  rintro ⟨-, ⟨answers, hanswers, hflat⟩, -⟩
  rw [receivedCommands_command htype hdecode] at hanswers
  obtain ⟨first, others, ⟨resp, -, -, rfl⟩, -, rfl⟩ := List.forall₂_cons_left_iff.mp hanswers
  rw [hsent] at hflat
  simp at hflat

end Loop

/-- A worker answers all its commands exactly when every text it is to answer with is valid UTF-8. -/
theorem mainLoop_answersAll_iff {N : JsonLibrary} {deliveries : List Delivery} (hdecode : AllDecode N deliveries) :
    AnswersAll N deliveries (({} : Instrument).mainLoop N deliveries) ↔
      ∀ d ∈ deliveries, d.msg.type = .command → ∀ cmd, deserializeCommand N d.msg.payload = .ok cmd →
        ValidReply cmd d.plugin := by
  induction deliveries with
  | nil => exact iff_of_true answersAll_nil (by simp)
  | cons d rest ih =>
      obtain ⟨⟨hshutdown, hcmd⟩, hrest⟩ := List.forall_mem_cons.mp hdecode
      rw [Instrument.mainLoop_cons, List.forall_mem_cons, ← ih hrest]
      by_cases htype : d.msg.type = .command
      · obtain ⟨cmd, hcmd⟩ := hcmd htype
        by_cases hvalid : ValidReply cmd d.plugin
        · obtain ⟨answer, hanswer, hturn⟩ := Instrument.deliver_valid htype hcmd hvalid
          rw [hturn, answersAll_answered htype hcmd hanswer]
          simp [htype, hcmd, hvalid]
        · rw [Instrument.deliver_invalid htype hcmd hvalid, Instrument.mainLoop_exited]
          refine iff_of_false (not_answersAll_of_sent_nil htype hcmd rfl) fun h => ?_
          exact hvalid (h.1 htype cmd hcmd)
      · rw [Instrument.deliver_other htype hshutdown, answersAll_other htype]
        simp [htype]

/-- A command as it arrives in a frame. -/
def commandMessage (id : Nat) (cmd : SerializedCommand) : IpcMessage :=
  .frame .command id (cmd.syncToken.getD 0) ((serializeCommand .compact cmd).toOption.getD [])

def tokenCommand : SerializedCommand :=
  { instrumentName := bytes "dmm", verb := bytes "READ", params := .empty, syncToken := some 3 }

def nopCommand : SerializedCommand := { tokenCommand with verb := barrierNop }

def textReply (text : ByteString) : PluginResponse :=
  { PluginResponse.zero with success := true, textResponse := .copy _ pluginMaxPayload_pos text }

/-- A command and a synthetic one, with continues nobody waits for around them. -/
def answeredDeliveries : List Delivery :=
  [⟨{ type := .syncContinue, syncToken := 7 }, .zero⟩, ⟨commandMessage 1 tokenCommand, textReply (bytes "5 V")⟩,
    ⟨{ type := .syncContinue, syncToken := 3 }, .zero⟩, ⟨commandMessage 2 nopCommand, .zero⟩]

theorem deserializeCommand_commandMessage :
    deserializeCommand .compact (commandMessage 1 tokenCommand).payload = .ok tokenCommand ∧
      deserializeCommand .compact (commandMessage 2 nopCommand).payload = .ok nopCommand := by
  decide +kernel

theorem allDecode_answeredDeliveries : AllDecode .compact answeredDeliveries := by
  intro d hmem
  simp only [answeredDeliveries, List.mem_cons, List.not_mem_nil, or_false] at hmem
  rcases hmem with rfl | rfl | rfl | rfl
  · exact ⟨by decide, by simp⟩
  · exact ⟨by simp [commandMessage, IpcMessage.frame], fun _ => ⟨_, deserializeCommand_commandMessage.1⟩⟩
  · exact ⟨by decide, by simp⟩
  · exact ⟨by simp [commandMessage, IpcMessage.frame], fun _ => ⟨_, deserializeCommand_commandMessage.2⟩⟩

theorem mainLoop_answersAll_answeredDeliveries :
    AllDecode .compact answeredDeliveries ∧
      AnswersAll .compact answeredDeliveries (({} : Instrument).mainLoop .compact answeredDeliveries) := by
  refine ⟨allDecode_answeredDeliveries, (mainLoop_answersAll_iff allDecode_answeredDeliveries).mpr ?_⟩
  intro d hmem htype cmd hcmd
  simp only [answeredDeliveries, List.mem_cons, List.not_mem_nil, or_false] at hmem
  rcases hmem with rfl | rfl | rfl | rfl
  · simp at htype
  · obtain rfl := Except.ok.inj (deserializeCommand_commandMessage.1.symm.trans hcmd)
    refine ⟨by decide, by decide, by decide, by decide, ?_, ?_⟩
    · simp [textReply, PluginResponse.zero]
    · simp [textReply, PluginResponse.zero]
  · simp at htype
  · obtain rfl := Except.ok.inj (deserializeCommand_commandMessage.2.symm.trans hcmd)
    exact ⟨by decide, by decide⟩

/-- An instrument answers `µV` in Latin-1. -/
def latinDelivery : Delivery := ⟨commandMessage 1 tokenCommand, textReply [0xB5, 0x56]⟩

def latinDeliveries : List Delivery := [latinDelivery, ⟨commandMessage 2 nopCommand, .zero⟩]

/-- The worker ends without a response to the command, and the next one is never looked at. -/
theorem mainLoop_not_answersAll_latinDeliveries :
    AllDecode .compact latinDeliveries ∧
      (({} : Instrument).mainLoop .compact latinDeliveries).sent = [] ∧
      ¬ AnswersAll .compact latinDeliveries (({} : Instrument).mainLoop .compact latinDeliveries) := by
  obtain ⟨hfirst, hsecond⟩ := deserializeCommand_commandMessage
  have htype : latinDelivery.msg.type = .command := rfl
  have hinvalid : ¬ ValidReply tokenCommand latinDelivery.plugin := by
    rintro ⟨-, -, -, htext, -⟩
    revert htext
    decide
  have hsent : (({} : Instrument).mainLoop .compact latinDeliveries).sent = [] := by
    rw [latinDeliveries, Instrument.mainLoop_cons, Instrument.deliver_invalid htype hfirst hinvalid,
      Instrument.mainLoop_exited]
    rfl
  refine ⟨fun d hmem => ?_, hsent, not_answersAll_of_sent_nil htype hfirst hsent⟩
  simp only [latinDeliveries, List.mem_cons, List.not_mem_nil, or_false] at hmem
  rcases hmem with rfl | rfl
  · exact ⟨by simp [htype], fun _ => ⟨_, hfirst⟩⟩
  · exact ⟨by simp [commandMessage, IpcMessage.frame], fun _ => ⟨_, hsecond⟩⟩

end InstrumentServer
