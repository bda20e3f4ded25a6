import InstrumentServer.Ipc.SerializedCommand

/-!
# Messages

The frame of the shared queues between the server and one worker. The payload field has a fixed size, so a frame cannot hold a longer payload; `frame` copies what fits of a text and drops the rest.
-/

namespace InstrumentServer.Ipc

inductive MessageType where
  | command
  | response
  | heartbeat
  | shutdown
  | syncAck
  | syncContinue
deriving DecidableEq

def maxPayload : Nat := 4096

structure IpcMessage where
  type : MessageType
  id : Nat := 0
  syncToken : SyncToken := 0
  payload : ByteString := []
  payload_le : payload.length ≤ maxPayload := by exact Nat.zero_le _
deriving DecidableEq

/-- A message whose payload is the text, cut to the size of the frame. -/
def IpcMessage.frame (type : MessageType) (id : Nat) (syncToken : SyncToken) (text : ByteString) : IpcMessage where
  type := type
  id := id
  syncToken := syncToken
  payload := text.take maxPayload
  payload_le := List.length_take_le maxPayload text

end InstrumentServer.Ipc
