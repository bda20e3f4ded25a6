import InstrumentServer.Lib.Strings

/-!
# Reading a request

`HttpRpcServer::run_loop` up to the call of `json::parse`. The headers are received in pieces until they are complete; what the last piece brings beyond them is the beginning of the body, and the rest of the body is received after that. How many bytes a call of `recv` gives is up to the network: the n-th call gives at most `sizes n + 1`.

The length of what is missing is computed by an unsigned subtraction. It wraps when the last piece of the headers brought more than the announced length, and then `read_n` is to fill bytes that the string does not have. `requestBody_iff` says when the body is what was announced.
-/

namespace InstrumentServer

open ByteString

/-! ### The socket -/

/-- A connection: what the peer is still going to send, and how the calls of `recv` cut it. -/
structure Socket where
  stream : ByteString
  sizes : Nat → Nat
  calls : Nat := 0

namespace Socket

/-- `recv`; nothing stands for a result that is not positive. -/
def recv (s : Socket) (length : Nat) : Option (ByteString × Socket) :=
  let size := min length (s.sizes s.calls + 1)
  if s.stream.take size = [] then none
  else some (s.stream.take size, { s with stream := s.stream.drop size, calls := s.calls + 1 })

/-- The loop of `read_n`. A round reads at least one byte, so `n` rounds are enough. -/
def readRounds : Nat → Nat → ByteString → Socket → Option (ByteString × Socket)
  | 0, n, buf, s => if buf.length < n then none else some (buf, s)
  | rounds + 1, n, buf, s =>
      if buf.length < n then
        match s.recv (n - buf.length) with
        | none => none
        | some (piece, s) => readRounds rounds n (buf ++ piece) s
      else some (buf, s)

def readN (s : Socket) (n : Nat) : Option (ByteString × Socket) := readRounds n n [] s

def maxHeaderRead : Nat := 64 * 1024

def endOfHeaders : ByteString := [13, 10, 13, 10]

/-- The loop of `read_http_headers`. -/
def headerRounds : Nat → ByteString → Socket → Option (ByteString × ByteString × Socket)
  | 0, _, _ => none
  | rounds + 1, outHeaders, s =>
      if outHeaders.length < maxHeaderRead then
        match s.recv 1024 with
        | none => none
        | some (piece, s) =>
            let outHeaders := outHeaders ++ piece
            match find? endOfHeaders outHeaders with
            | some pos =>
                let headersEnd := pos + 4
                some (outHeaders.take headersEnd, outHeaders.drop headersEnd, s)
            | none => headerRounds rounds outHeaders s
      else none

/-- The headers, and what was received beyond them. -/
def readHttpHeaders (s : Socket) : Option (ByteString × ByteString × Socket) := headerRounds maxHeaderRead [] s

end Socket

/-! ### The headers -/

/-- A line without the carriage return at its end. -/
def trimCr (line : ByteString) : ByteString := if line.getLast? = some 13 then line.dropLast else line

def headerLines (headers : ByteString) : List ByteString := (getLines headers).map trimCr

def contentLengthLabel : ByteString := bytes "content-length:"

/-- Where a line mentions a content length, in any case. -/
def mention (line : ByteString) : Option Nat := find? contentLengthLabel (line.map toLower)

/-- The number after the mention, or -1. -/
def mentionedLength (line : ByteString) : Option Int :=
  (mention line).map fun pos =>
    (stoi ((line.drop (pos + contentLengthLabel.length)).dropWhile isSpace)).getD (-1)

/-- The first line that mentions a content length decides. -/
def parseContentLength (headers : ByteString) : Int := ((headerLines headers).findSome? mentionedLength).getD (-1)

/-- The request line asks for `POST /rpc`. -/
def isRpcPost (headers : ByteString) : Bool :=
  let request := words (((getLines headers).map trimCr).headD [])
  let method := request.headD []
  let path := request.tail.headD []
  method = bytes "POST" && (path = bytes "/rpc" || path = bytes "/rpc/")

/-! ### The body -/

inductive BodyOutcome where
  /-- the body as it stands when the request is looked at -/
  | complete (body : ByteString)
  /-- the connection is closed without a reply -/
  | closed
  /-- `read_n` is to write beyond the end of the string -/
  | outOfBounds
deriving DecidableEq

/-- `body.resize` -/
def resize (body : ByteString) (size : Nat) : ByteString := body.take size ++ List.replicate (size - body.length) 0

def assembleBody (contentLen : Int) (extraData : ByteString) (s : Socket) : BodyOutcome :=
  if 0 < contentLen then
    let body := extraData
    let remaining : UInt64 := UInt64.ofNat contentLen.toNat - UInt64.ofNat body.length
    if 0 < remaining then
      let oldSize := body.length
      let body := resize body contentLen.toNat
      if body.length < oldSize + remaining.toNat then .outOfBounds
      else
        match s.readN remaining.toNat with
        | none => .closed
        | some (data, _) => .complete (body.take oldSize ++ data ++ body.drop (oldSize + data.length))
    else .complete body
  else .complete []

def requestBody (s : Socket) : BodyOutcome :=
  match s.readHttpHeaders with
  | none => .closed
  | some (headers, extraData, s) => assembleBody (parseContentLength headers) extraData s

/-- The text handed to `json::parse`; another request than `POST /rpc` is refused before. -/
def jsonText (s : Socket) : Option ByteString :=
  match s.readHttpHeaders, requestBody s with
  | some (headers, _, _), .complete body => if isRpcPost headers then some body else none
  | _, _ => none

end InstrumentServer
