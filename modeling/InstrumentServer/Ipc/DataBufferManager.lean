import InstrumentServer.Lib.Bytes
import InstrumentServer.Lib.SortedAssoc
import InstrumentServer.Lib.Transition

/-!
# Data buffers

`DataBufferManager` keeps the large results of a process under generated ids and counts the references to each of them. The clock and the outcome of `malloc` belong to the surroundings of a call. The map has no order of its own; here its entries are kept in the order of their ids. The counter behind the ids has 64 bits in the source and is a natural number here. Descriptions and dimensions, which `create_buffer` never sets, and logging are left out.
-/

namespace InstrumentServer

/-- An `enum class DataType : uint8_t`, which a cast can also give a value without a name. -/
inductive DataType where
  | float32
  | float64
  | int32
  | int64
  | uint32
  | uint64
  | uint8
  | other (code : UInt8)
deriving DecidableEq

namespace DataType

def ofCode (code : UInt8) : DataType :=
  if code = 0 then .float32
  else if code = 1 then .float64
  else if code = 2 then .int32
  else if code = 3 then .int64
  else if code = 4 then .uint32
  else if code = 5 then .uint64
  else if code = 6 then .uint8
  else .other code

/-- `data_type_to_string` -/
def name : DataType → ByteString
  | .float32 => bytes "float32"
  | .float64 => bytes "float64"
  | .int32 => bytes "int32"
  | .int64 => bytes "int64"
  | .uint32 => bytes "uint32"
  | .uint64 => bytes "uint64"
  | .uint8 => bytes "uint8"
  | .other _ => bytes "unknown"

/-- `data_type_size` -/
def size : DataType → UInt64
  | .float32 => 4
  | .float64 => 8
  | .int32 | .uint32 => 4
  | .int64 | .uint64 => 8
  | .uint8 => 1
  | .other _ => 0

end DataType

structure DataBufferMetadata where
  bufferId : ByteString
  instrumentName : ByteString
  commandId : ByteString
  dataType : DataType
  elementCount : UInt64
  byteSize : UInt64
  timestampMs : UInt64
deriving DecidableEq

structure DataBuffer where
  bufferId : ByteString
  data : ByteString
  byteSize : UInt64
  elementCount : UInt64
  dataType : DataType
deriving DecidableEq

structure BufferEntry where
  buffer : DataBuffer
  metadata : DataBufferMetadata
  refCount : UInt32
deriving DecidableEq

structure DataBufferManager where
  buffers : List (ByteString × BufferEntry) := []
  nextBufferId : Nat := 1
deriving DecidableEq

/-- What a creation meets: whether `malloc` gives memory, and what the clock shows when the id is made and when the metadata is. -/
structure CreateSurroundings where
  allocated : Bool
  idMs : Int
  timestampMs : UInt64

namespace DataBufferManager

def generateBufferId (ms : Int) (id : Nat) : ByteString :=
  bytes "buffer_" ++ ByteString.decimalInt ms ++ bytes "_" ++ ByteString.decimal id

/-- `try_emplace` leaves an entry that is already there. -/
def tryEmplace (m : DataBufferManager) (bufferId : ByteString) (entry : BufferEntry) : DataBufferManager :=
  match SortedAssoc.find? bufferId m.buffers with
  | some _ => m
  | none => { m with buffers := SortedAssoc.insert bufferId entry m.buffers }

/-- The bytes of a new buffer: those handed over, or zeros. -/
def initialData (byteSize : UInt64) : Option ByteString → ByteString
  | some data => data.take byteSize.toNat
  | none => List.replicate byteSize.toNat 0

/-- The empty id stands for failure. -/
def createBuffer (env : CreateSurroundings) (m : DataBufferManager) (instrumentName commandId : ByteString)
    (dataType : DataType) (elementCount : UInt64) (data : Option ByteString) : DataBufferManager × ByteString :=
  if dataType.size = 0 then (m, [])
  else
    let byteSize := elementCount * dataType.size
    if env.allocated then
      let bufferId := generateBufferId env.idMs m.nextBufferId
      let buffer : DataBuffer := { bufferId, data := initialData byteSize data, byteSize, elementCount, dataType }
      let metadata : DataBufferMetadata :=
        { bufferId, instrumentName, commandId, dataType, elementCount, byteSize, timestampMs := env.timestampMs }
      let m := { m with nextBufferId := m.nextBufferId + 1 }
      (m.tryEmplace bufferId { buffer, metadata, refCount := 1 }, bufferId)
    else (m, [])

def createBufferWithMetadata (env : CreateSurroundings) (m : DataBufferManager) (metadata : DataBufferMetadata)
    (data : Option ByteString) : DataBufferManager × ByteString :=
  m.createBuffer env metadata.instrumentName metadata.commandId metadata.dataType metadata.elementCount data

def getBuffer (m : DataBufferManager) (bufferId : ByteString) : DataBufferManager × Option DataBuffer :=
  match SortedAssoc.find? bufferId m.buffers with
  | none => (m, none)
  | some entry =>
      let entry := { entry with refCount := entry.refCount + 1 }
      ({ m with buffers := SortedAssoc.insert bufferId entry m.buffers }, some entry.buffer)

def getMetadata (m : DataBufferManager) (bufferId : ByteString) : Option DataBufferMetadata :=
  (SortedAssoc.find? bufferId m.buffers).map BufferEntry.metadata

def releaseBuffer (m : DataBufferManager) (bufferId : ByteString) : DataBufferManager :=
  match SortedAssoc.find? bufferId m.buffers with
  | none => m
  | some entry =>
      let entry := { entry with refCount := entry.refCount - 1 }
      if entry.refCount = 0 then { m with buffers := SortedAssoc.erase bufferId m.buffers }
      else { m with buffers := SortedAssoc.insert bufferId entry m.buffers }

def listBuffers (m : DataBufferManager) : List ByteString := m.buffers.map Prod.fst

def totalMemoryUsage (m : DataBufferManager) : UInt64 :=
  m.buffers.foldl (fun total entry => total + entry.2.metadata.byteSize) 0

def clearAll (m : DataBufferManager) : DataBufferManager := { m with buffers := [] }

/-! ### The C interface -/

/-- `data_buffer_create`: what it writes to `buffer_id_out`, or nothing where it returns -1. A null pointer is `none`, for the output `false`. -/
def dataBufferCreate (env : CreateSurroundings) (m : DataBufferManager) (instrumentName commandId : Option ByteString)
    (dataType : UInt8) (elementCount : UInt64) (data : Option ByteString) (bufferIdOut : Bool) :
    DataBufferManager × Option ByteString :=
  match instrumentName, commandId, bufferIdOut with
  | some instrumentName, some commandId, true =>
      let (m, bufferId) := m.createBuffer env instrumentName commandId (.ofCode dataType) elementCount data
      if bufferId = [] then (m, none) else (m, some (bufferId.take 127))
  | _, _, _ => (m, none)

/-! ### Calls in any order -/

inductive BufferLabel where
  | create (env : CreateSurroundings) (instrumentName commandId : ByteString) (dataType : DataType)
      (elementCount : UInt64) (data : Option ByteString)
  | createWithMetadata (env : CreateSurroundings) (metadata : DataBufferMetadata) (data : Option ByteString)
  | get (bufferId : ByteString)
  | release (bufferId : ByteString)
  | clearAll

/-- How many bytes the buffers of the map occupy. -/
def bytesHeld (m : DataBufferManager) : Nat :=
  SortedAssoc.total (fun entry : BufferEntry => entry.metadata.byteSize.toNat) m.buffers

/-- The blocks `malloc` gives are disjoint parts of a 64-bit address space. -/
def HasRoom (m : DataBufferManager) (env : CreateSurroundings) (dataType : DataType) (elementCount : UInt64) : Prop :=
  env.allocated = true → m.bytesHeld + (elementCount * dataType.size).toNat < 2 ^ 64

instance (m : DataBufferManager) (env : CreateSurroundings) (dataType : DataType) (elementCount : UInt64) :
    Decidable (m.HasRoom env dataType elementCount) :=
  inferInstanceAs (Decidable (_ → _))

def step (m : DataBufferManager) : BufferLabel → Option DataBufferManager
  | .create env instrumentName commandId dataType elementCount data =>
      if m.HasRoom env dataType elementCount then
        some (m.createBuffer env instrumentName commandId dataType elementCount data).1
      else none
  | .createWithMetadata env metadata data =>
      if m.HasRoom env metadata.dataType metadata.elementCount then
        some (m.createBufferWithMetadata env metadata data).1
      else none
  | .get bufferId => some (m.getBuffer bufferId).1
  | .release bufferId => some (m.releaseBuffer bufferId)
  | .clearAll => some m.clearAll

def system : Transition.System DataBufferManager BufferLabel where
  init := {}
  step := step

end DataBufferManager

end InstrumentServer
