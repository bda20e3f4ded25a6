import InstrumentServer.Server.DaemonStop
import InstrumentServer.Server.HttpReply
import InstrumentServer.Server.RequestBody

/-!
# Requests and replies

One round of the accept loop of the RPC server, from the bytes that a client sends to the bytes that it gets. The request line must ask for `POST /rpc`; the body is a JSON object with the name of a command and its parameters, the handler of the command runs on the state of the process, and its return code and its object make the reply. The handlers enter as a parameter: any functions on any state.

An exception from the parsing, from a handler or from the dumping of its object is answered with its text. That answer is dumped inside the `catch` block, so a text that is not valid UTF-8 makes `dump` throw again, out of the thread. The sending of a reply throws nothing, so the round is given as the answer to the request and then its sending. A `send` to a client that is gone raises `SIGPIPE`, which is neither blocked nor handled.
-/

namespace InstrumentServer

open ByteString HandlerEnd

/-! ### Commands -/

inductive RpcCommand where
  | list
  | status
  | start
  | stop
  | daemon
  | measure
  | test
  | discover
  | plugins
  | submitJob
  | submitMeasure
  | jobStatus
  | jobResult
  | jobList
  | jobCancel
deriving DecidableEq

namespace RpcCommand

/-- In the order in which they are compared. -/
def all : List RpcCommand :=
  [list, status, start, stop, daemon, measure, test, discover, plugins, submitJob, submitMeasure, jobStatus, jobResult,
    jobList, jobCancel]

def name : RpcCommand → ByteString
  | list => bytes "list"
  | status => bytes "status"
  | start => bytes "start"
  | stop => bytes "stop"
  | daemon => bytes "daemon"
  | measure => bytes "measure"
  | test => bytes "test"
  | discover => bytes "discover"
  | plugins => bytes "plugins"
  | submitJob => bytes "submit_job"
  | submitMeasure => bytes "submit_measure"
  | jobStatus => bytes "job_status"
  | jobResult => bytes "job_result"
  | jobList => bytes "job_list"
  | jobCancel => bytes "job_cancel"

def find (command : ByteString) : Option RpcCommand := all.find? fun known => known.name = command

theorem find_name (command : RpcCommand) : find command.name = some command := by
  cases command <;> decide +kernel

end RpcCommand

/-- The handlers, on whatever state they share. -/
abbrev RpcHandlers (State : Type) : Type := RpcCommand → State → Json → State × HandlerEnd

/-! ### One connection -/

/-- What a request comes to, before anything is sent. -/
inductive RpcAnswer (State : Type) where
  | reply (s : State) (statusCode : Nat) (body : ByteString)
  /-- the connection is closed without a reply -/
  | closed (s : State)
  /-- the handler does not return -/
  | blocked (s : State)
  /-- an exception leaves the thread, or the handler ends the process -/
  | terminated
  /-- `read_n` is to write beyond the end of the string -/
  | outOfBounds

/-- How a connection takes a reply: the n-th call of `send` at most `takes n + 1` bytes, and none where it fails. -/
structure ReplyPath where
  takes : Nat → Option Nat
  /-- a call that fails does so with `EPIPE` -/
  brokenPipe : Bool

/-- How the round for one connection ends. -/
inductive RpcExchange (State : Type) where
  | replied (s : State) (wire : ByteString)
  | closed (s : State)
  | blocked (s : State)
  | terminated
  /-- `SIGPIPE` ends the process -/
  | killed
  /-- `read_n` or `send` is to go beyond the end of a string -/
  | outOfBounds

section

variable {State : Type}

def unknownCommand : HandlerEnd := failed (bytes "unknown command")

def rpcDispatch (H : RpcHandlers State) (s : State) (req : Json) : State × HandlerEnd :=
  let read : Except JsonError (ByteString × Json) := do
    let command ← req.value Json.getString (bytes "command") []
    let params ← req.value .ok (bytes "params") (.object [])
    return (command, params)
  match read with
  | .error e => (s, .jsonError e)
  | .ok (command, params) =>
      match RpcCommand.find command with
      | some command => H command s params
      | none => (s, unknownCommand)

def httpStatus (rc : Nat) : Nat := if rc = 0 then 200 else 500

/-- The body of the answer to an exception. -/
def exceptionBody (what : ByteString) : Json := (ServerDaemon.exceptionReply what).body

/-- The `catch` block. -/
def replyException (N : JsonLibrary) (what : ByteString) (s : State) : RpcAnswer State :=
  match N.dump (exceptionBody what) with
  | .ok text => .reply s 500 text
  | .error _ => .terminated

/-- The answer to a request; `what` is the text of the exception, if one is thrown. -/
def rpcAnswer (N : JsonLibrary) (H : RpcHandlers State) (what : ByteString) (s : State) (body : ByteString) :
    RpcAnswer State :=
  match N.parse body with
  | .error _ => replyException N what s
  | .ok req =>
      match rpcDispatch H s req with
      | (s, .returned rc out) =>
          match N.dump out with
          | .ok text => .reply s (httpStatus rc) text
          | .error _ => replyException N what s
      | (s, .jsonError _) | (s, .systemError) => replyException N what s
      | (s, .blocked _) => .blocked s
      | (_, .terminated) => .terminated

def onlyPostBody : Json :=
  fields [(bytes "ok", .boolean false), (bytes "error", .string (bytes "Only POST /rpc is supported"))]

def answerClient (N : JsonLibrary) (H : RpcHandlers State) (what : ByteString) (s : State) (client : Socket) :
    RpcAnswer State :=
  match client.readHttpHeaders with
  | none => .closed s
  | some (headers, extraData, client) =>
      match assembleBody (parseContentLength headers) extraData client with
      | .closed => .closed s
      | .outOfBounds => .outOfBounds
      | .complete body =>
          if isRpcPost headers then rpcAnswer N H what s body
          else
            match N.dump onlyPostBody with
            | .ok text => .reply s 404 text
            | .error _ => .terminated

/-- How a round ends that has sent as much of a text as could be sent. -/
def ReplyPath.afterSend (path : ReplyPath) (s : State) (text : ByteString) : ReplyTransfer → RpcExchange State
  | .outOfBounds => .outOfBounds
  | .sent wire => if wire.length < text.length ∧ path.brokenPipe = true then .killed else .replied s wire

def ReplyPath.send (path : ReplyPath) (s : State) (statusCode : Nat) (body : ByteString) : RpcExchange State :=
  path.afterSend s (responseText statusCode body) (sendHttpResponse path.takes statusCode body)

/-- One round of the accept loop. -/
def serveClient (N : JsonLibrary) (H : RpcHandlers State) (what : ByteString) (path : ReplyPath) (s : State)
    (client : Socket) : RpcExchange State :=
  match answerClient N H what s client with
  | .reply s statusCode body => path.send s statusCode body
  | .closed s => .closed s
  | .blocked s => .blocked s
  | .terminated => .terminated
  | .outOfBounds => .outOfBounds

end

/-! ### A client -/

/-- A call as a client makes it, with what the network and the server bring to it: the pieces in which the request arrives and the reply goes out, and the text of the exception, if one is thrown. -/
structure RpcCall where
  command : RpcCommand
  params : Json
  /-- the header lines before the length of the body, the request line among them -/
  before : List ByteString
  /-- the header lines after it -/
  after : List ByteString
  sizes : Nat → Nat
  path : ReplyPath
  what : ByteString

namespace RpcCall

def request (call : RpcCall) : Json :=
  .object [(bytes "command", .string call.command.name), (bytes "params", call.params)]

/-- The document that is sent. -/
def text (N : JsonLibrary) (call : RpcCall) : ByteString := (N.dump call.request).toOption.getD []

def headers (N : JsonLibrary) (call : RpcCall) : ByteString :=
  headerBlock (call.before ++ lengthLine (call.text N).length :: call.after)

/-- The connection on which the request arrives. -/
def connection (N : JsonLibrary) (call : RpcCall) : Socket := ⟨call.headers N ++ call.text N, call.sizes, 0⟩

/-- A request as the server expects it: `POST /rpc`, the length of the body in a line that no mention of a length comes before, and a head that is not too long. -/
structure WellFormed (N : JsonLibrary) (call : RpcCall) : Prop where
  ordered : call.params.Ordered
  valid : call.params.ValidText
  post : isRpcPost (headerBlock call.before) = true
  linesBefore : ∀ line ∈ call.before, IsHeaderLine line
  linesAfter : ∀ line ∈ call.after, IsHeaderLine line
  unmentioned : ∀ line ∈ call.before, mention line = none
  within : (call.headers N).length ≤ Socket.maxHeaderRead
  small : (call.text N).length < 2 ^ 31

section

variable {N : JsonLibrary} {call : RpcCall}

theorem WellFormed.ordered_request (h : WellFormed N call) : call.request.Ordered :=
  ⟨List.pairwise_pair.mpr (show bytes "command" < bytes "params" by decide), trivial, h.ordered, trivial⟩

theorem WellFormed.validText_request (h : WellFormed N call) : call.request.ValidText := by
  have hname : ValidUtf8 call.command.name := by cases call.command <;> exact validUtf8_bytes _
  exact ⟨validUtf8_bytes _, hname, validUtf8_bytes _, h.valid, trivial⟩

theorem WellFormed.dump_request (h : WellFormed N call) : N.dump call.request = .ok (call.text N) := by
  obtain ⟨text, htext⟩ := (N.dump_ok_iff h.ordered_request).mpr h.validText_request
  rw [RpcCall.text, htext]
  rfl

theorem WellFormed.lines (h : WellFormed N call) :
    ∀ line ∈ call.before ++ lengthLine (call.text N).length :: call.after, IsHeaderLine line := by
  intro line hline
  rcases List.mem_append.mp hline with hbefore | hrest
  · exact h.linesBefore line hbefore
  · rcases List.mem_cons.mp hrest with rfl | hafter
    · exact isHeaderLine_lengthLine _
    · exact h.linesAfter line hafter

theorem isContentLength_lengthLine (n : Nat) : IsContentLength (lengthLine n) n :=
  ⟨bytes "Content-Length", [32], decimal n, [], by simp [lengthLine, show bytes "Content-Length: " =
    bytes "Content-Length" ++ [58, 32] by decide], by decide, List.forall_mem_singleton.mpr (by decide), decimal_ne_nil n,
    fun _ hb => isDigit_of_mem_decimal hb, by simp, ofDecimal_decimal n⟩

theorem WellFormed.parseContentLength_headers (h : WellFormed N call) :
    parseContentLength (call.headers N) = (call.text N).length := by
  have hbefore : call.before.findSome? mentionedLength = none := by
    refine List.findSome?_eq_none_iff.mpr fun line hline => ?_
    rw [mentionedLength, h.unmentioned line hline, Option.map_none]
  rw [parseContentLength, headers, headerLines_headerBlock h.lines, List.append_assoc, List.findSome?_append, hbefore,
    Option.none_or, List.cons_append, List.findSome?_cons,
    mentionedLength_of_isContentLength (isContentLength_lengthLine _), if_pos h.small]
  rfl

theorem WellFormed.isRpcPost_headers (h : WellFormed N call) : isRpcPost (call.headers N) = true := by
  have hpost := h.post
  have hlines := h.lines
  rw [isRpcPost, ← headerLines, headerLines_headerBlock h.linesBefore] at hpost
  rw [isRpcPost, headers, ← headerLines, headerLines_headerBlock hlines]
  cases hbefore : call.before with
  | nil =>
      rw [hbefore] at hpost
      exact absurd hpost (by decide)
  | cons line before =>
      rw [hbefore] at hpost
      exact hpost

/-- However the request is cut, its body is put together again. -/
theorem WellFormed.requestBody_eq (h : WellFormed N call) :
    ∃ extraData client, (call.connection N).readHttpHeaders = some (call.headers N, extraData, client) ∧
      assembleBody (parseContentLength (call.headers N)) extraData client = .complete (call.text N) := by
  have hsome : call.before ++ lengthLine (call.text N).length :: call.after ≠ [] := by simp
  have hlong := four_le_length_headerBlock hsome h.lines
  have hpos : (call.headers N).length - 4 + 4 = (call.headers N).length := Nat.sub_add_cancel hlong
  obtain ⟨last, -, hgranted, hread⟩ := Socket.readHttpHeaders_eq call.sizes
    (find?_headerBlock hsome h.lines (call.text N)) (by rw [List.length_append]; exact hpos ▸ Nat.le_add_right _ _)
    (hpos ▸ h.within)
  rw [← headers, hpos] at hgranted hread
  generalize Socket.granted call.sizes (last + 1) = granted at hgranted hread
  obtain ⟨beyond, rfl⟩ := Nat.exists_eq_add_of_le hgranted
  have htake : ((call.headers N ++ call.text N).take ((call.headers N).length + beyond)).drop (call.headers N).length =
      (call.text N).take beyond := by
    rw [List.take_length_add_append, List.drop_left]
  have hdrop : (call.headers N ++ call.text N).drop ((call.headers N).length + beyond) = (call.text N).drop beyond :=
    List.drop_length_add_append _
  rw [List.take_left, htake, hdrop] at hread
  refine ⟨_, _, hread, ?_⟩
  rw [h.parseContentLength_headers]
  by_cases hempty : (call.text N).length = 0
  · rw [hempty, assembleBody, if_neg (by decide), List.length_eq_zero_iff.mp hempty]
  · have hsplit := @assembleBody_of_le _ ((call.text N).take beyond)
      ⟨(call.text N).drop beyond, call.sizes, last + 1⟩ (Nat.pos_of_ne_zero hempty) h.small
      (by rw [List.length_take]; omega) (by rw [List.length_take, List.length_drop]; omega)
    have hrest : (call.text N).length - ((call.text N).take beyond).length = ((call.text N).drop beyond).length := by
      rw [List.length_take, List.length_drop]
      omega
    rw [hsplit, hrest, List.take_length, List.take_append_drop]

end

end RpcCall

end InstrumentServer
