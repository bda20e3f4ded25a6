import InstrumentServer.Ipc.BufferReferences

/-!
# The size of a buffer

`create_buffer` multiplies the number of elements by their size in 64 bits and asks `malloc` for the result. The typed accessors and `export_to_csv` go by the number of elements. `size_kept_iff` says when the two agree: exactly if the product has room in 64 bits, or nothing is created.

The allocation has the stored size, and to read outside it is the outcome `undefined`. The text that a stream writes for an element is a parameter.
-/

namespace InstrumentServer

namespace DataBuffer

/-! ### Reading the elements -/

/-- The common body of the typed accessors: the width of what the pointer leads to, or a null pointer. -/
def asType (type : DataType) (buffer : DataBuffer) : Option UInt64 :=
  if buffer.dataType = type then some type.size else none

def asFloat32 : DataBuffer → Option UInt64 := asType .float32
def asFloat64 : DataBuffer → Option UInt64 := asType .float64
def asInt32 : DataBuffer → Option UInt64 := asType .int32
def asInt64 : DataBuffer → Option UInt64 := asType .int64
def asUint32 : DataBuffer → Option UInt64 := asType .uint32
def asUint64 : DataBuffer → Option UInt64 := asType .uint64
def asUint8 : DataBuffer → Option UInt64 := asType .uint8

/-- The typed accessors. -/
def accessors : List (DataBuffer → Option UInt64) :=
  [asFloat32, asFloat64, asInt32, asInt64, asUint32, asUint64, asUint8]

/-- `arr[i]` for a pointer to elements of a width: nothing if an element is not inside the allocation. -/
def element (buffer : DataBuffer) (width : UInt64) (i : Nat) : Option ByteString :=
  if i * width.toNat + width.toNat ≤ buffer.byteSize.toNat then
    some ((buffer.data.drop (i * width.toNat)).take width.toNat)
  else none

inductive CsvExport where
  | failed
  | written (text : ByteString) (good : Bool)
  | undefined
deriving DecidableEq

/-- The loop that all types share. -/
def csvRows (format : ByteString → ByteString) (width : UInt64) (good : Bool) (buffer : DataBuffer) : CsvExport :=
  match (List.range buffer.elementCount.toNat).mapM (buffer.element width) with
  | some elements => .written (elements.flatMap fun element => format element ++ bytes "\n") good
  | none => .undefined

/-- `export_to_csv`, to a file that can be opened or not, and that is good in the end or not. -/
def exportToCsv (format : DataType → ByteString → ByteString) (opens good : Bool) (buffer : DataBuffer) : CsvExport :=
  if opens then
    match buffer.dataType with
    | .float32 => csvRows (format .float32) 4 good buffer
    | .float64 => csvRows (format .float64) 8 good buffer
    | .int32 => csvRows (format .int32) 4 good buffer
    | .int64 => csvRows (format .int64) 8 good buffer
    | .uint32 => csvRows (format .uint32) 4 good buffer
    | .uint64 => csvRows (format .uint64) 8 good buffer
    | .uint8 => csvRows (format .uint8) 1 good buffer
    | .other _ => .failed
  else .failed

/-- Every index below the count of elements is inside the allocation, for the accessors and for the export. -/
structure ReadsInside (buffer : DataBuffer) : Prop where
  accessors : ∀ accessor ∈ accessors, ∀ width, accessor buffer = some width →
    ∀ i < buffer.elementCount.toNat, (buffer.element width i).isSome = true
  exportToCsv : ∀ format opens good, buffer.exportToCsv format opens good ≠ .undefined

variable {buffer : DataBuffer}

theorem asType_of_mem {accessor : DataBuffer → Option UInt64} (hmem : accessor ∈ accessors) :
    ∃ type, accessor = asType type := by
  simp only [DataBuffer.accessors, List.mem_cons, List.not_mem_nil, or_false] at hmem
  rcases hmem with rfl | rfl | rfl | rfl | rfl | rfl | rfl <;> exact ⟨_, rfl⟩

theorem element_isSome (hsize : buffer.byteSize.toNat = buffer.elementCount.toNat * buffer.dataType.size.toNat) {i : Nat}
    (hlt : i < buffer.elementCount.toNat) : (buffer.element buffer.dataType.size i).isSome = true := by
  have hinside : i * buffer.dataType.size.toNat + buffer.dataType.size.toNat ≤ buffer.byteSize.toNat := by
    rw [hsize, ← Nat.succ_mul]
    exact Nat.mul_le_mul_right _ hlt
  rw [element, if_pos hinside]
  rfl

theorem csvRows_ne_undefined (format : ByteString → ByteString) (good : Bool) {width : UInt64}
    (hinside : ∀ i < buffer.elementCount.toNat, (buffer.element width i).isSome = true) :
    csvRows format width good buffer ≠ .undefined := by
  have hread : ((List.range buffer.elementCount.toNat).mapM (buffer.element width)).isSome = true :=
    Lists.isSome_mapM_iff.mpr fun i hi => hinside i (List.mem_range.mp hi)
  rw [csvRows]
  split
  · exact CsvExport.noConfusion
  · rename_i hnone
    rw [hnone] at hread
    contradiction

/-- A buffer of the right size is read inside its allocation. -/
theorem readsInside (hsize : buffer.byteSize.toNat = buffer.elementCount.toNat * buffer.dataType.size.toNat) :
    buffer.ReadsInside := by
  refine ⟨fun accessor hmem width hwidth i hlt => ?_, fun format opens good => ?_⟩
  · obtain ⟨type, rfl⟩ := asType_of_mem hmem
    rw [asType] at hwidth
    split at hwidth
    · rename_i htype
      obtain rfl := Option.some.inj hwidth
      rw [← htype]
      exact element_isSome hsize hlt
    · contradiction
  · have hinside : ∀ i < buffer.elementCount.toNat, (buffer.element buffer.dataType.size i).isSome = true :=
      fun i hlt => element_isSome hsize hlt
    rw [DataBuffer.exportToCsv]
    split
    · split
      all_goals rename_i htype
      case h_8 => exact CsvExport.noConfusion
      all_goals
        rw [htype] at hinside
        exact csvRows_ne_undefined _ good hinside
    · exact CsvExport.noConfusion

end DataBuffer

namespace DataBufferManager

open Transition

/-! ### The number at the end of an id is not drawn twice -/

def IdsDrawn (m : DataBufferManager) : Prop :=
  ∀ bufferId entry, SortedAssoc.find? bufferId m.buffers = some entry →
    ∃ ms n, bufferId = generateBufferId ms n ∧ n < m.nextBufferId

variable {m m' : DataBufferManager}

theorem IdsDrawn.fresh (hdrawn : m.IdsDrawn) (ms : Int) :
    SortedAssoc.find? (generateBufferId ms m.nextBufferId) m.buffers = none := by
  cases hfind : SortedAssoc.find? (generateBufferId ms m.nextBufferId) m.buffers with
  | none => rfl
  | some entry =>
      obtain ⟨ms', n, hid, hlt⟩ := hdrawn _ entry hfind
      have hnumber := generateBufferId_number hid
      omega

theorem IdsDrawn.insert (hdrawn : m.IdsDrawn) {bufferId : ByteString} {entry : BufferEntry}
    (hfind : SortedAssoc.find? bufferId m.buffers = some entry) (changed : BufferEntry) :
    IdsDrawn { m with buffers := SortedAssoc.insert bufferId changed m.buffers } := by
  intro other found hfound
  rw [SortedAssoc.find?_insert] at hfound
  split at hfound
  · rename_i hother
    rw [hother]
    exact hdrawn bufferId entry hfind
  · exact hdrawn other found hfound

theorem IdsDrawn.effect (hdrawn : m.IdsDrawn) {label : BufferLabel} {events : List BufferEvent}
    (heffect : Effect m label m' events) : m'.IdsDrawn := by
  cases heffect with
  | nothing | missed => exact hdrawn
  | created ms entry =>
      simp only [tryEmplace, hdrawn.fresh ms]
      intro other found hfound
      rw [SortedAssoc.find?_insert] at hfound
      split at hfound
      · rename_i hother
        exact ⟨ms, m.nextBufferId, hother, Nat.lt_succ_self _⟩
      · obtain ⟨ms', n, hid, hlt⟩ := hdrawn other found hfound
        exact ⟨ms', n, hid, Nat.lt_succ_of_lt hlt⟩
  | got _ entry _ hfind | released _ entry _ hfind => exact hdrawn.insert hfind _
  | dropped bufferId =>
      intro other found hfound
      rw [SortedAssoc.find?_erase] at hfound
      split at hfound
      · contradiction
      · exact hdrawn other found hfound
  | cleared =>
      intro _ _ hfound
      contradiction

theorem idsDrawn_init : IdsDrawn {} := by
  intro _ _ hfind
  contradiction

theorem idsDrawn_of_reachable (hreach : Reachable system m) : m.IdsDrawn :=
  @Reachable.invariant _ _ system IdsDrawn idsDrawn_init
    (fun _ _ _ hdrawn hnext => hdrawn.effect (effect_of_step hnext)) m hreach

/-! ### The stored size -/

/-- What is stored under the id has the size of all its elements, and they are read inside the allocation. -/
structure SizeKept (m : DataBufferManager) (bufferId : ByteString) (dataType : DataType) (elementCount : UInt64) : Prop where
  buffer : ∃ entry, SortedAssoc.find? bufferId m.buffers = some entry ∧
    entry.buffer.elementCount = elementCount ∧ entry.buffer.dataType = dataType ∧
    entry.buffer.byteSize.toNat = elementCount.toNat * dataType.size.toNat ∧ entry.buffer.ReadsInside
  metadata : ∃ data, m.getMetadata bufferId = some data ∧
    data.byteSize.toNat = elementCount.toNat * dataType.size.toNat

/-- A successful creation stores the size that the product has in 64 bits. -/
theorem find?_createBuffer (hdrawn : m.IdsDrawn) {env : CreateSurroundings} {instrumentName commandId : ByteString}
    {dataType : DataType} {elementCount : UInt64} {data : Option ByteString} (hallocated : env.allocated = true)
    (hsize : dataType.size ≠ 0) :
    ∃ entry, SortedAssoc.find? (m.createBuffer env instrumentName commandId dataType elementCount data).2
        (m.createBuffer env instrumentName commandId dataType elementCount data).1.buffers = some entry ∧
      entry.buffer.elementCount = elementCount ∧ entry.buffer.dataType = dataType ∧
      entry.buffer.byteSize = elementCount * dataType.size ∧ entry.metadata.byteSize = elementCount * dataType.size := by
  simp only [createBuffer, if_neg hsize, hallocated, if_true, tryEmplace, hdrawn.fresh env.idMs]
  exact ⟨_, SortedAssoc.find?_insert_self .., rfl, rfl, rfl, rfl⟩

theorem createBuffer_ne_nil {env : CreateSurroundings} {instrumentName commandId : ByteString} {dataType : DataType}
    {elementCount : UInt64} {data : Option ByteString} :
    (m.createBuffer env instrumentName commandId dataType elementCount data).2 ≠ [] ↔
      dataType.size ≠ 0 ∧ env.allocated = true := by
  rw [createBuffer]
  split
  · rename_i hsize
    exact iff_of_false (fun hne => hne rfl) fun h => h.1 hsize
  · rename_i hsize
    dsimp only
    split
    · rename_i hallocated
      exact iff_of_true (generateBufferId_ne_nil env.idMs m.nextBufferId) ⟨hsize, hallocated⟩
    · rename_i hallocated
      exact iff_of_false (fun hne => hne rfl) fun h => hallocated h.2

theorem toNat_mul_eq_iff (a b : UInt64) : (a * b).toNat = a.toNat * b.toNat ↔ a.toNat * b.toNat < 2 ^ 64 := by
  rw [UInt64.toNat_mul]
  exact Nat.mod_eq_iff_lt (by decide)

/-- The size is kept exactly if nothing is created or the product has room in 64 bits. -/
theorem size_kept_iff (hreach : Reachable system m) (env : CreateSurroundings) (instrumentName commandId : ByteString)
    (code : UInt8) (elementCount : UInt64) (data : Option ByteString) :
    ((m.createBuffer env instrumentName commandId (.ofCode code) elementCount data).2 ≠ [] →
        SizeKept (m.createBuffer env instrumentName commandId (.ofCode code) elementCount data).1
          (m.createBuffer env instrumentName commandId (.ofCode code) elementCount data).2 (.ofCode code) elementCount) ↔
      (DataType.ofCode code).size = 0 ∨ env.allocated = false ∨
        elementCount.toNat * (DataType.ofCode code).size.toNat < 2 ^ 64 := by
  generalize DataType.ofCode code = dataType
  rw [createBuffer_ne_nil]
  constructor
  · intro hkept
    by_contra hnot
    obtain ⟨hsize, hallocated, hwide⟩ := not_or.mp hnot |>.imp_right not_or.mp
    rw [Bool.not_eq_false] at hallocated
    obtain ⟨entry, hfind, -, -, hbyteSize, -⟩ :=
      @find?_createBuffer m (idsDrawn_of_reachable hreach) env instrumentName commandId dataType elementCount data
        hallocated hsize
    obtain ⟨⟨stored, hstored, -, -, hexact, -⟩, -⟩ := hkept ⟨hsize, hallocated⟩
    obtain rfl := Option.some.inj (hfind.symm.trans hstored)
    rw [hbyteSize] at hexact
    exact hwide ((toNat_mul_eq_iff _ _).mp hexact)
  · rintro hcondition ⟨hsize, hallocated⟩
    have hroom : elementCount.toNat * dataType.size.toNat < 2 ^ 64 := by
      rcases hcondition with hzero | hnone | hroom
      · exact absurd hzero hsize
      · rw [hallocated] at hnone
        contradiction
      · exact hroom
    obtain ⟨entry, hfind, hcount, htype, hbuffer, hmetadata⟩ :=
      @find?_createBuffer m (idsDrawn_of_reachable hreach) env instrumentName commandId dataType elementCount data
        hallocated hsize
    have hexact := (toNat_mul_eq_iff elementCount dataType.size).mpr hroom
    refine ⟨⟨entry, hfind, hcount, htype, ?_, DataBuffer.readsInside ?_⟩, entry.metadata, ?_, ?_⟩
    · rw [hbuffer, hexact]
    · rw [hbuffer, hcount, htype, hexact]
    · rw [getMetadata, hfind]
      rfl
    · rw [hmetadata, hexact]

/-! ### Runs -/

theorem size_kept_scope :
    SizeKept (createBuffer tenMs {} (bytes "scope") (bytes "scope-1") (.ofCode 1) 2 none).1 (bytes "buffer_10_1")
      (.ofCode 1) 2 :=
  (@size_kept_iff {} .init tenMs (bytes "scope") (bytes "scope-1") 1 2 none).mpr (Or.inr (Or.inr (by decide)))
    (by decide +kernel)

/-- With 2^61 + 1 doubles the product is 8, and the second of them is outside the allocation. -/
theorem size_not_kept_wide :
    (createBuffer tenMs {} (bytes "scope") (bytes "scope-1") (.ofCode 1) 2305843009213693953 none).2 = bytes "buffer_10_1" ∧
      (∃ entry, SortedAssoc.find? (bytes "buffer_10_1")
          (createBuffer tenMs {} (bytes "scope") (bytes "scope-1") (.ofCode 1) 2305843009213693953 none).1.buffers = some entry ∧
        entry.buffer.elementCount = 2305843009213693953 ∧ entry.buffer.byteSize = 8 ∧ entry.buffer.asFloat64 = some 8 ∧
        entry.buffer.element 8 1 = none) ∧
      ¬ SizeKept (createBuffer tenMs {} (bytes "scope") (bytes "scope-1") (.ofCode 1) 2305843009213693953 none).1
        (bytes "buffer_10_1") (.ofCode 1) 2305843009213693953 := by
  refine ⟨by decide +kernel, ⟨_, rfl, by decide +kernel, by decide +kernel, by decide +kernel, by decide +kernel⟩, ?_⟩
  rintro ⟨⟨entry, hfind, -, -, hsize, -⟩, -⟩
  obtain rfl := Option.some.inj hfind
  revert hsize
  decide +kernel

end DataBufferManager

end InstrumentServer
