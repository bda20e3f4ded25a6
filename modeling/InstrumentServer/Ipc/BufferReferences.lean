import InstrumentServer.Ipc.DataBufferManager
import Mathlib.Data.List.TakeWhile

/-!
# Reference counting

A history notes the ids that were handed out, the successful gets, the releases and the calls of `clear_all`. `Live` reads off it whether a buffer should be there: it was created, nothing was cleared since, and at no point since were there as many releases as references. `reference_counting` says that the map agrees with the history, and that neither the counting nor a creation touches another buffer.

Ids end in a number that is drawn once, so an id is created at most once, and what happened since its creation is the rest of the history after the one entry for it.
-/

namespace InstrumentServer

/-- The buffer and its metadata carry the id and describe the same bytes. -/
structure BufferEntry.Describes (entry : BufferEntry) (bufferId : ByteString) : Prop where
  buffer : entry.buffer.bufferId = bufferId
  metadata : entry.metadata.bufferId = bufferId
  dataType : entry.buffer.dataType = entry.metadata.dataType
  elementCount : entry.buffer.elementCount = entry.metadata.elementCount
  byteSize : entry.buffer.byteSize = entry.metadata.byteSize

namespace DataBufferManager

open ByteString Transition

/-! ### Histories -/

inductive BufferEvent where
  | created (bufferId : ByteString)
  | got (bufferId : ByteString)
  | released (bufferId : ByteString)
  | cleared
deriving DecidableEq

/-- A creation that failed and a get that found nothing leave no trace. -/
def note (m : DataBufferManager) : BufferLabel → DataBufferManager → List BufferEvent
  | .create env instrumentName commandId dataType elementCount data, _ =>
      let bufferId := (m.createBuffer env instrumentName commandId dataType elementCount data).2
      if bufferId = [] then [] else [.created bufferId]
  | .createWithMetadata env metadata data, _ =>
      let bufferId := (m.createBufferWithMetadata env metadata data).2
      if bufferId = [] then [] else [.created bufferId]
  | .get bufferId, _ => if (m.getBuffer bufferId).2.isSome then [.got bufferId] else []
  | .release bufferId, _ => [.released bufferId]
  | .clearAll, _ => [.cleared]

/-- The references handed out and not given back, in the events since the creation. -/
def references (bufferId : ByteString) (events : List BufferEvent) : Int :=
  1 + events.count (.got bufferId) - events.count (.released bufferId)

/-- What happened after the creation of a buffer. -/
def since (bufferId : ByteString) (history : List BufferEvent) : List BufferEvent :=
  (history.dropWhile (· ≠ .created bufferId)).drop 1

/-- No `clear_all` since the creation, and the references stayed positive. -/
def Live (bufferId : ByteString) (history : List BufferEvent) : Prop :=
  .created bufferId ∈ history ∧ .cleared ∉ since bufferId history ∧
    ∀ recent, recent <+: since bufferId history → 0 < references bufferId recent

/-- The ids that successful creations returned. -/
def createdIds (history : List BufferEvent) : List ByteString :=
  history.filterMap fun
    | .created bufferId => some bufferId
    | _ => none

theorem mem_createdIds {bufferId : ByteString} {history : List BufferEvent} :
    bufferId ∈ createdIds history ↔ .created bufferId ∈ history := by
  simp only [createdIds, List.mem_filterMap]
  constructor
  · rintro ⟨event, hmem, hevent⟩
    cases event with
    | created other => exact Option.some.inj hevent ▸ hmem
    | got | released | cleared => contradiction
  · intro hmem
    exact ⟨_, hmem, rfl⟩

section Since

variable {bufferId : ByteString} {history : List BufferEvent}

/-- After the creation the later events are just appended. -/
theorem since_append (hcreated : .created bufferId ∈ history) (events : List BufferEvent) :
    since bufferId (history ++ events) = since bufferId history ++ events := by
  have hsome : history.dropWhile (· ≠ BufferEvent.created bufferId) ≠ [] := by
    intro hnil
    have hall := List.dropWhile_eq_nil_iff.mp hnil _ hcreated
    simp at hall
  rw [since, since, List.dropWhile_append, if_neg (by simpa using hsome), List.drop_append_of_le_length]
  exact List.length_pos_iff.mpr hsome

theorem since_created (hnew : .created bufferId ∉ history) : since bufferId (history ++ [.created bufferId]) = [] := by
  have hdrop : history.dropWhile (· ≠ BufferEvent.created bufferId) = [] := by
    apply List.dropWhile_eq_nil_iff.mpr
    intro event hmem
    have hne : event ≠ .created bufferId := by
      rintro rfl
      exact hnew hmem
    simpa using hne
  rw [since, List.dropWhile_append, hdrop]
  simp

theorem live_created (hnew : .created bufferId ∉ history) : Live bufferId (history ++ [.created bufferId]) := by
  refine ⟨by simp, ?_, fun recent hrecent => ?_⟩
  · rw [since_created hnew]
    simp
  · rw [since_created hnew] at hrecent
    rw [List.prefix_nil.mp hrecent]
    simp [references]

theorem references_append (earlier later : List BufferEvent) :
    references bufferId (earlier ++ later) =
      references bufferId earlier + later.count (.got bufferId) - later.count (.released bufferId) := by
  simp only [references, List.count_append]
  omega

/-- One more event: the buffer was live, and is no longer if this was the last release or cleared the map. -/
theorem live_append_iff (hcreated : .created bufferId ∈ history) (event : BufferEvent) :
    Live bufferId (history ++ [event]) ↔
      Live bufferId history ∧ event ≠ .cleared ∧ 0 < references bufferId (since bufferId history ++ [event]) := by
  rw [Live, Live, since_append hcreated]
  constructor
  · rintro ⟨-, hcleared, hpositive⟩
    refine ⟨⟨hcreated, fun hmem => hcleared (by simp [hmem]), fun recent hrecent => ?_⟩, ?_, hpositive _ List.prefix_rfl⟩
    · exact hpositive recent (hrecent.trans (List.prefix_append _ _))
    · rintro rfl
      exact hcleared (by simp)
  · rintro ⟨⟨-, hcleared, hpositive⟩, hevent, hlast⟩
    refine ⟨by simp [hcreated], ?_, fun recent hrecent => ?_⟩
    · simp [hcleared, Ne.symm hevent]
    · rcases List.prefix_concat_iff.mp hrecent with rfl | hold
      · exact hlast
      · exact hpositive recent hold

end Since

/-- The event says nothing about the buffer. -/
def Spares (bufferId : ByteString) (event : BufferEvent) : Prop :=
  event ≠ .created bufferId ∧ event ≠ .got bufferId ∧ event ≠ .released bufferId ∧ event ≠ .cleared

theorem references_spares {bufferId : ByteString} {event : BufferEvent} (hspares : Spares bufferId event)
    (events : List BufferEvent) : references bufferId (events ++ [event]) = references bufferId events := by
  obtain ⟨-, hgot, hreleased, -⟩ := hspares
  rw [references_append, List.count_singleton, List.count_singleton]
  simp [hgot, hreleased]

/-! ### The map against the history -/

/-- The entry under an id, if any, is what the history says. -/
def Counted (history : List BufferEvent) (bufferId : ByteString) : Option BufferEntry → Prop
  | none => ¬ Live bufferId history
  | some entry => Live bufferId history ∧ (entry.refCount.toNat : Int) = references bufferId (since bufferId history)

theorem Counted.spares {history : List BufferEvent} {bufferId : ByteString} {entry : Option BufferEntry}
    {event : BufferEvent} (h : Counted history bufferId entry) (hspares : Spares bufferId event) :
    Counted (history ++ [event]) bufferId entry := by
  by_cases hcreated : .created bufferId ∈ history
  · have hlive : Live bufferId (history ++ [event]) ↔ Live bufferId history := by
      rw [live_append_iff hcreated, references_spares hspares]
      constructor
      · exact And.left
      · intro hlive
        exact ⟨hlive, hspares.2.2.2, hlive.2.2 _ List.prefix_rfl⟩
    cases entry with
    | none => exact fun hnow => h (hlive.mp hnow)
    | some entry =>
        refine ⟨hlive.mpr h.1, ?_⟩
        rw [since_append hcreated, references_spares hspares, h.2]
  · cases entry with
    | none =>
        rintro ⟨hmem, -⟩
        rcases List.mem_append.mp hmem with hold | hnew
        · exact hcreated hold
        · exact hspares.1 (List.mem_singleton.mp hnew).symm
    | some entry => exact absurd h.1.1 hcreated

structure HistoryInv (m : DataBufferManager) (history : List BufferEvent) : Prop where
  numbered : ∀ bufferId ∈ createdIds history, ∃ ms n, bufferId = generateBufferId ms n ∧ n < m.nextBufferId
  distinct : (createdIds history).Nodup
  counted : ∀ bufferId, Counted history bufferId (SortedAssoc.find? bufferId m.buffers)
  described : ∀ bufferId entry, SortedAssoc.find? bufferId m.buffers = some entry → entry.Describes bufferId
  sorted : SortedAssoc.Sorted m.buffers
  room : m.bytesHeld < 2 ^ 64

/-- The number is at the end of the id. -/
theorem generateBufferId_number {ms ms' : Int} {n n' : Nat} (h : generateBufferId ms n = generateBufferId ms' n') :
    n = n' := by
  have hbytes : bytes "_" = [95] := by decide
  simp only [generateBufferId, hbytes, List.append_assoc, List.singleton_append] at h
  rw [← List.append_assoc, ← List.append_assoc] at h
  exact eq_of_append_decimal (by decide) h

theorem generateBufferId_ne_nil (ms : Int) (n : Nat) : generateBufferId ms n ≠ [] := by
  simp [generateBufferId, decimal_ne_nil]

/-- The id of the next creation has not been handed out. -/
theorem HistoryInv.fresh {m : DataBufferManager} {history : List BufferEvent} (h : HistoryInv m history) (ms : Int) :
    .created (generateBufferId ms m.nextBufferId) ∉ history := by
  intro hmem
  obtain ⟨ms', n, hid, hlt⟩ := h.numbered _ (mem_createdIds.mpr hmem)
  have hnumber := generateBufferId_number hid
  omega

/-! ### Steps -/

/-- The buffer a call is about; a creation is about the one it returns. -/
def subject (m : DataBufferManager) : BufferLabel → ByteString
  | .create env instrumentName commandId dataType elementCount data =>
      (m.createBuffer env instrumentName commandId dataType elementCount data).2
  | .createWithMetadata env metadata data => (m.createBufferWithMetadata env metadata data).2
  | .get bufferId | .release bufferId => bufferId
  | .clearAll => []

/-- Every way a call can end, with what the history notes of it. -/
inductive Effect (m : DataBufferManager) (label : BufferLabel) : DataBufferManager → List BufferEvent → Prop where
  /-- a creation that failed, or a get that found nothing -/
  | nothing : Effect m label m []
  | created (ms : Int) (entry : BufferEntry) (hsubject : m.subject label = generateBufferId ms m.nextBufferId)
      (hone : entry.refCount = 1) (hdescribes : entry.Describes (generateBufferId ms m.nextBufferId))
      (hroom : m.bytesHeld + entry.metadata.byteSize.toNat < 2 ^ 64) :
      Effect m label
        ({ m with nextBufferId := m.nextBufferId + 1 }.tryEmplace (generateBufferId ms m.nextBufferId) entry)
        [.created (generateBufferId ms m.nextBufferId)]
  | got (bufferId : ByteString) (entry : BufferEntry) (hlabel : label = .get bufferId)
      (hfind : SortedAssoc.find? bufferId m.buffers = some entry) :
      Effect m label
        { m with buffers := SortedAssoc.insert bufferId { entry with refCount := entry.refCount + 1 } m.buffers }
        [.got bufferId]
  | missed (bufferId : ByteString) (hfind : SortedAssoc.find? bufferId m.buffers = none) :
      Effect m label m [.released bufferId]
  | released (bufferId : ByteString) (entry : BufferEntry) (hlabel : label = .release bufferId)
      (hfind : SortedAssoc.find? bufferId m.buffers = some entry) (hleft : entry.refCount - 1 ≠ 0) :
      Effect m label
        { m with buffers := SortedAssoc.insert bufferId { entry with refCount := entry.refCount - 1 } m.buffers }
        [.released bufferId]
  | dropped (bufferId : ByteString) (entry : BufferEntry) (hlabel : label = .release bufferId)
      (hfind : SortedAssoc.find? bufferId m.buffers = some entry) (hlast : entry.refCount - 1 = 0) :
      Effect m label { m with buffers := SortedAssoc.erase bufferId m.buffers } [.released bufferId]
  | cleared (hlabel : label = .clearAll) : Effect m label m.clearAll [.cleared]

section Steps

variable {m m' : DataBufferManager}

theorem effect_createBuffer {label : BufferLabel} {env : CreateSurroundings} {instrumentName commandId : ByteString}
    {dataType : DataType} {elementCount : UInt64} {data : Option ByteString}
    (hsubject : m.subject label = (m.createBuffer env instrumentName commandId dataType elementCount data).2)
    (hroom : m.HasRoom env dataType elementCount) :
    Effect m label (m.createBuffer env instrumentName commandId dataType elementCount data).1
      (if (m.createBuffer env instrumentName commandId dataType elementCount data).2 = [] then []
        else [.created (m.createBuffer env instrumentName commandId dataType elementCount data).2]) := by
  unfold createBuffer at hsubject ⊢
  split
  · exact .nothing
  · rename_i hsize
    rw [if_neg hsize] at hsubject
    split
    · rename_i hallocated
      rw [if_neg (generateBufferId_ne_nil env.idMs m.nextBufferId)]
      simp only [hallocated, if_true] at hsubject
      exact .created env.idMs _ hsubject rfl ⟨rfl, rfl, rfl, rfl, rfl⟩ (hroom hallocated)
    · exact .nothing

theorem effect_of_step {label : BufferLabel} (hnext : m.step label = some m') : Effect m label m' (m.note label m') := by
  cases label with
  | create env instrumentName commandId dataType elementCount data =>
      rw [DataBufferManager.step] at hnext
      split at hnext
      · rename_i hroom
        obtain rfl := Option.some.inj hnext
        exact effect_createBuffer rfl hroom
      · contradiction
  | createWithMetadata env metadata data =>
      rw [DataBufferManager.step] at hnext
      split at hnext
      · rename_i hroom
        obtain rfl := Option.some.inj hnext
        exact effect_createBuffer rfl hroom
      · contradiction
  | get bufferId =>
      obtain rfl := Option.some.inj hnext
      show Effect m _ (m.getBuffer bufferId).1 (if (m.getBuffer bufferId).2.isSome then [.got bufferId] else [])
      unfold getBuffer
      split
      · exact .nothing
      · rename_i entry hfind
        exact .got bufferId entry rfl hfind
  | release bufferId =>
      obtain rfl := Option.some.inj hnext
      show Effect m _ (m.releaseBuffer bufferId) [.released bufferId]
      rw [releaseBuffer]
      split
      · rename_i hfind
        exact .missed bufferId hfind
      · rename_i entry hfind
        dsimp only
        split
        · rename_i hlast
          exact .dropped bufferId entry rfl hfind hlast
        · rename_i hleft
          exact .released bufferId entry rfl hfind hleft
  | clearAll =>
      obtain rfl := Option.some.inj hnext
      exact .cleared rfl

end Steps

namespace HistoryInv

variable {m m' : DataBufferManager} {history : List BufferEvent}

theorem init : HistoryInv {} [] where
  numbered _ h := by contradiction
  distinct := List.nodup_nil
  counted _ h := by simp [Live] at h
  described _ _ h := by contradiction
  sorted := List.Pairwise.nil
  room := by decide

theorem created_of_find (h : HistoryInv m history) {bufferId : ByteString} {entry : BufferEntry}
    (hfind : SortedAssoc.find? bufferId m.buffers = some entry) :
    Live bufferId history ∧ (entry.refCount.toNat : Int) = references bufferId (since bufferId history) := by
  have hcounted := h.counted bufferId
  rwa [hfind] at hcounted

theorem bytesHeld_setRefCount (hsorted : SortedAssoc.Sorted m.buffers) {bufferId : ByteString} {entry : BufferEntry}
    (hfind : SortedAssoc.find? bufferId m.buffers = some entry) (refCount : UInt32) :
    bytesHeld { m with buffers := SortedAssoc.insert bufferId { entry with refCount } m.buffers } = m.bytesHeld :=
  SortedAssoc.total_insert_same _ hsorted hfind rfl

/-- One entry changes, and the history notes one event about it. -/
theorem change (h : HistoryInv m history) (bufferId : ByteString) {event : BufferEvent}
    (hevent : ∀ other, event ≠ .created other) (hspares : ∀ other, other ≠ bufferId → Spares other event)
    (hothers : ∀ other, other ≠ bufferId → SortedAssoc.find? other m'.buffers = SortedAssoc.find? other m.buffers)
    (hcounted : Counted (history ++ [event]) bufferId (SortedAssoc.find? bufferId m'.buffers))
    (hdescribed : ∀ entry, SortedAssoc.find? bufferId m'.buffers = some entry → entry.Describes bufferId)
    (hnext : m'.nextBufferId = m.nextBufferId)
    (hsorted : SortedAssoc.Sorted m'.buffers) (hroom : m'.bytesHeld ≤ m.bytesHeld) :
    HistoryInv m' (history ++ [event]) := by
  have hids : createdIds (history ++ [event]) = createdIds history := by
    rw [createdIds, List.filterMap_append, createdIds]
    cases event with
    | created other => exact absurd rfl (hevent other)
    | got | released | cleared => simp
  refine ⟨?_, hids ▸ h.distinct, fun other => ?_, fun other entry hfind => ?_, hsorted, lt_of_le_of_lt hroom h.room⟩
  · rw [hids, hnext]
    exact h.numbered
  · by_cases hother : other = bufferId
    · rw [hother]
      exact hcounted
    · rw [hothers other hother]
      exact (h.counted other).spares (hspares other hother)
  · by_cases hother : other = bufferId
    · subst hother
      exact hdescribed entry hfind
    · exact h.described other entry (hothers other hother ▸ hfind)

theorem created (h : HistoryInv m history) (ms : Int) {entry : BufferEntry} (hone : entry.refCount = 1)
    (hdescribes : entry.Describes (generateBufferId ms m.nextBufferId))
    (hroom : m.bytesHeld + entry.metadata.byteSize.toNat < 2 ^ 64) :
    SortedAssoc.find? (generateBufferId ms m.nextBufferId) m.buffers = none ∧
    HistoryInv ({ m with nextBufferId := m.nextBufferId + 1 }.tryEmplace (generateBufferId ms m.nextBufferId) entry)
      (history ++ [.created (generateBufferId ms m.nextBufferId)]) := by
  have hfresh := h.fresh ms
  have hnone : SortedAssoc.find? (generateBufferId ms m.nextBufferId) m.buffers = none := by
    cases hfind : SortedAssoc.find? (generateBufferId ms m.nextBufferId) m.buffers with
    | none => rfl
    | some entry => exact absurd (h.created_of_find hfind).1.1 hfresh
  have hids : createdIds (history ++ [.created (generateBufferId ms m.nextBufferId)]) =
      createdIds history ++ [generateBufferId ms m.nextBufferId] := by
    rw [createdIds, List.filterMap_append]
    rfl
  refine ⟨hnone, ?_⟩
  simp only [tryEmplace, hnone]
  refine ⟨?_, ?_, fun other => ?_, fun other found hfind => ?_, SortedAssoc.sorted_insert h.sorted _ _, ?_⟩
  · rw [hids]
    intro bufferId hmem
    rcases List.mem_append.mp hmem with hold | hnew
    · obtain ⟨ms', n, hid, hlt⟩ := h.numbered bufferId hold
      exact ⟨ms', n, hid, Nat.lt_succ_of_lt hlt⟩
    · exact ⟨ms, m.nextBufferId, List.mem_singleton.mp hnew, Nat.lt_succ_self _⟩
  · rw [hids, List.nodup_append]
    refine ⟨h.distinct, by simp, fun bufferId hold other hnew heq => ?_⟩
    rw [heq, List.mem_singleton.mp hnew] at hold
    exact hfresh (mem_createdIds.mp hold)
  · rw [SortedAssoc.find?_insert]
    split
    · rename_i hother
      subst hother
      refine ⟨live_created hfresh, ?_⟩
      rw [since_created hfresh, hone]
      rfl
    · rename_i hother
      refine (h.counted other).spares ⟨?_, by simp, by simp, by simp⟩
      intro heq
      exact hother (BufferEvent.created.inj heq).symm
  · rw [SortedAssoc.find?_insert] at hfind
    split at hfind
    · rename_i hother
      rw [← Option.some.inj hfind, hother]
      exact hdescribes
    · exact h.described other found hfind
  · show SortedAssoc.total _ (SortedAssoc.insert _ entry m.buffers) < 2 ^ 64
    rw [SortedAssoc.total_insert_new _ _ hnone, Nat.add_comm]
    exact hroom

/-- The count of a buffer changes with the references the history counts, and some are left. -/
theorem recount (h : HistoryInv m history) {bufferId : ByteString} {entry : BufferEntry}
    (hfind : SortedAssoc.find? bufferId m.buffers = some entry) {event : BufferEvent} (refCount : UInt32)
    (hevent : ∀ other, event ≠ .created other) (hspares : ∀ other, other ≠ bufferId → Spares other event)
    (hcleared : event ≠ .cleared) (hpositive : 0 < refCount.toNat)
    (hreferences : references bufferId (since bufferId history ++ [event]) = refCount.toNat) :
    HistoryInv { m with buffers := SortedAssoc.insert bufferId { entry with refCount } m.buffers } (history ++ [event]) := by
  obtain ⟨hlive, -⟩ := h.created_of_find hfind
  refine h.change bufferId hevent hspares (fun other hother => ?_) ?_ (fun changed hchanged => ?_) rfl
    (SortedAssoc.sorted_insert h.sorted _ _) (bytesHeld_setRefCount h.sorted hfind _).le
  · rw [SortedAssoc.find?_insert, if_neg hother]
  · rw [SortedAssoc.find?_insert_self]
    constructor
    · rw [live_append_iff hlive.1, hreferences]
      exact ⟨hlive, hcleared, by omega⟩
    · rw [since_append hlive.1, hreferences]
  · rw [SortedAssoc.find?_insert_self] at hchanged
    obtain rfl := Option.some.inj hchanged
    obtain ⟨hbuffer, hmetadata, htype, hcount, hsize⟩ := h.described bufferId entry hfind
    exact ⟨hbuffer, hmetadata, htype, hcount, hsize⟩

theorem got (h : HistoryInv m history) {bufferId : ByteString} {entry : BufferEntry}
    (hfind : SortedAssoc.find? bufferId m.buffers = some entry) (hfew : entry.refCount.toNat + 1 < 2 ^ 32) :
    HistoryInv { m with buffers := SortedAssoc.insert bufferId { entry with refCount := entry.refCount + 1 } m.buffers }
      (history ++ [.got bufferId]) := by
  obtain ⟨-, hcount⟩ := h.created_of_find hfind
  have hadd : (entry.refCount + 1).toNat = entry.refCount.toNat + 1 := by
    rw [UInt32.toNat_add, UInt32.toNat_one, Nat.mod_eq_of_lt hfew]
  apply h.recount hfind _ (by simp) (fun other hother => by simp [Spares, Ne.symm hother]) (by simp)
  · omega
  · rw [references_append, ← hcount, hadd]
    simp

/-- A release leaves one reference less. -/
theorem references_released (h : HistoryInv m history) {bufferId : ByteString} {entry : BufferEntry}
    (hfind : SortedAssoc.find? bufferId m.buffers = some entry) :
    0 < entry.refCount.toNat ∧
      references bufferId (since bufferId history ++ [.released bufferId]) = entry.refCount.toNat - 1 ∧
      (entry.refCount - 1).toNat = entry.refCount.toNat - 1 := by
  obtain ⟨hlive, hcount⟩ := h.created_of_find hfind
  have hpositive : 0 < references bufferId (since bufferId history) := hlive.2.2 _ List.prefix_rfl
  have hpos : 0 < entry.refCount.toNat := by omega
  refine ⟨hpos, ?_, ?_⟩
  · rw [references_append, hcount]
    simp
  · rw [UInt32.toNat_sub_of_le, UInt32.toNat_one]
    exact UInt32.le_iff_toNat_le.mpr hpos

theorem released (h : HistoryInv m history) {bufferId : ByteString} {entry : BufferEntry}
    (hfind : SortedAssoc.find? bufferId m.buffers = some entry) (hleft : entry.refCount - 1 ≠ 0) :
    HistoryInv { m with buffers := SortedAssoc.insert bufferId { entry with refCount := entry.refCount - 1 } m.buffers }
      (history ++ [.released bufferId]) := by
  obtain ⟨hpos, hreferences, hsub⟩ := h.references_released hfind
  have hmore : (entry.refCount - 1).toNat ≠ 0 := fun hzero => hleft (UInt32.toNat_inj.mp hzero)
  apply h.recount hfind _ (by simp) (fun other hother => by simp [Spares, Ne.symm hother]) (by simp)
  · omega
  · rw [hreferences]
    omega

theorem dropped (h : HistoryInv m history) {bufferId : ByteString} {entry : BufferEntry}
    (hfind : SortedAssoc.find? bufferId m.buffers = some entry) (hlast : entry.refCount - 1 = 0) :
    HistoryInv { m with buffers := SortedAssoc.erase bufferId m.buffers } (history ++ [.released bufferId]) := by
  obtain ⟨hlive, -⟩ := h.created_of_find hfind
  obtain ⟨hpos, hreferences, hsub⟩ := h.references_released hfind
  have hzero : (entry.refCount - 1).toNat = 0 := congrArg UInt32.toNat hlast
  refine h.change bufferId (by simp) (fun other hother => ?_) (fun other hother => ?_) ?_ (fun _ hgone => ?_) rfl
    (SortedAssoc.sorted_erase h.sorted _) (SortedAssoc.total_erase_le _ _ _)
  · simp [Spares, Ne.symm hother]
  · rw [SortedAssoc.find?_erase, if_neg hother]
  · rw [SortedAssoc.find?_erase, if_pos rfl]
    show ¬ Live bufferId (history ++ [.released bufferId])
    rw [live_append_iff hlive.1, hreferences]
    omega
  · rw [SortedAssoc.find?_erase, if_pos rfl] at hgone
    contradiction

/-- A release under an id that is not there. -/
theorem missed (h : HistoryInv m history) {bufferId : ByteString}
    (hfind : SortedAssoc.find? bufferId m.buffers = none) : HistoryInv m (history ++ [.released bufferId]) := by
  have hdead : ¬ Live bufferId history := by
    have hcounted := h.counted bufferId
    rwa [hfind] at hcounted
  refine h.change bufferId (by simp) (fun other hother => ?_) (fun _ _ => rfl) ?_ (h.described bufferId) rfl h.sorted le_rfl
  · simp [Spares, Ne.symm hother]
  · rw [hfind]
    intro hlive
    have hcreated : .created bufferId ∈ history := by simpa using hlive.1
    exact hdead ((live_append_iff hcreated _).mp hlive).1

theorem cleared (h : HistoryInv m history) : HistoryInv m.clearAll (history ++ [.cleared]) := by
  have hids : createdIds (history ++ [.cleared]) = createdIds history := by
    simp [createdIds]
  refine ⟨hids ▸ h.numbered, hids ▸ h.distinct, fun bufferId hlive => ?_, fun _ _ hfind => ?_, List.Pairwise.nil, ?_⟩
  · have hcreated : .created bufferId ∈ history := by simpa using hlive.1
    exact ((live_append_iff hcreated _).mp hlive).2.1 rfl
  · contradiction
  · show 0 < 2 ^ 64
    decide

end HistoryInv

/-! ### Whole runs -/

/-- Each buffer has fewer than 2^32 - 1 references, also after this call. -/
def FewReferences (m : DataBufferManager) : BufferLabel → Prop
  | .get bufferId => ∀ entry ∈ SortedAssoc.find? bufferId m.buffers, entry.refCount.toNat + 1 < 2 ^ 32 - 1
  | _ => True

instance (m : DataBufferManager) : (label : BufferLabel) → Decidable (m.FewReferences label)
  | .get bufferId => inferInstanceAs (Decidable (∀ entry ∈ SortedAssoc.find? bufferId m.buffers, _))
  | .create .. | .createWithMetadata .. | .release _ | .clearAll => isTrue trivial

/-- The map is what the history says, and a call leaves the buffers alone that it is not about. -/
structure ReferenceCounted (m : DataBufferManager) (history : List BufferEvent) : Prop where
  distinct : (createdIds history).Nodup
  present : ∀ bufferId, (SortedAssoc.find? bufferId m.buffers).isSome = true ↔ Live bufferId history
  counted : ∀ bufferId entry, SortedAssoc.find? bufferId m.buffers = some entry →
    (entry.refCount.toNat : Int) = references bufferId (since bufferId history)
  described : ∀ bufferId entry, SortedAssoc.find? bufferId m.buffers = some entry → entry.Describes bufferId
  absent : ∀ bufferId, SortedAssoc.find? bufferId m.buffers = none →
    m.getBuffer bufferId = (m, none) ∧ m.releaseBuffer bufferId = m
  gone : ∀ bufferId ∈ createdIds history, SortedAssoc.find? bufferId m.buffers = none →
    ∀ t, ReachableWhile { system with init := m } FewReferences t → SortedAssoc.find? bufferId t.buffers = none
  frame : ∀ label t, m.step label = some t → label ≠ .clearAll → ∀ other, other ≠ m.subject label →
    SortedAssoc.find? other t.buffers = SortedAssoc.find? other m.buffers
  total : m.totalMemoryUsage.toNat =
    (m.listBuffers.filterMap fun bufferId => (m.getMetadata bufferId).map fun data => data.byteSize.toNat).sum

section Run

variable {m m' : DataBufferManager} {history : List BufferEvent}

theorem HistoryInv.effect (h : HistoryInv m history) {label : BufferLabel} (hfew : m.FewReferences label)
    {events : List BufferEvent} (heffect : Effect m label m' events) : HistoryInv m' (history ++ events) := by
  cases heffect with
  | nothing => rwa [List.append_nil]
  | created ms entry _ hone hdescribes hroom => exact (h.created ms hone hdescribes hroom).2
  | got bufferId entry hlabel hfind =>
      subst hlabel
      have hlt := hfew entry hfind
      exact h.got hfind (by omega)
  | missed bufferId hfind => exact h.missed hfind
  | released bufferId entry _ hfind hleft => exact h.released hfind hleft
  | dropped bufferId entry _ hfind hlast => exact h.dropped hfind hlast
  | cleared => exact h.cleared

/-- A buffer that was created and is gone is not there after any further step. -/
theorem HistoryInv.gone_effect (h : HistoryInv m history) {label : BufferLabel} (hfew : m.FewReferences label)
    {events : List BufferEvent} (heffect : Effect m label m' events) {bufferId : ByteString}
    (hcreated : bufferId ∈ createdIds history) (hnone : SortedAssoc.find? bufferId m.buffers = none) :
    SortedAssoc.find? bufferId m'.buffers = none := by
  have hdead : ¬ Live bufferId history := by
    have hcounted := h.counted bufferId
    rwa [hnone] at hcounted
  have hstill : ∀ event, ¬ Live bufferId (history ++ [event]) := by
    intro event hlive
    exact hdead ((live_append_iff (mem_createdIds.mp hcreated) event).mp hlive).1
  have hevents : ¬ Live bufferId (history ++ events) := by
    cases heffect with
    | nothing => rwa [List.append_nil]
    | created | got | missed | released | dropped | cleared => exact hstill _
  cases hfind : SortedAssoc.find? bufferId m'.buffers with
  | none => rfl
  | some entry => exact absurd ((h.effect hfew heffect).created_of_find hfind).1 hevents

theorem HistoryInv.gone (h : HistoryInv m history) {bufferId : ByteString} (hcreated : bufferId ∈ createdIds history)
    (hnone : SortedAssoc.find? bufferId m.buffers = none) {t : DataBufferManager}
    (hreach : ReachableWhile { system with init := m } FewReferences t) :
    SortedAssoc.find? bufferId t.buffers = none := by
  have hinv : ∃ later, HistoryInv t later ∧ bufferId ∈ createdIds later ∧ SortedAssoc.find? bufferId t.buffers = none := by
    refine @ReachableWhile.invariant _ _ { system with init := m } FewReferences
      (fun t => ∃ later, HistoryInv t later ∧ bufferId ∈ createdIds later ∧ SortedAssoc.find? bufferId t.buffers = none)
      ⟨history, h, hcreated, hnone⟩ ?_ t hreach
    rintro s t label ⟨later, hs, hmem, habsent⟩ hfew hnext
    have heffect := effect_of_step hnext
    refine ⟨later ++ s.note label t, hs.effect hfew heffect, ?_, hs.gone_effect hfew heffect hmem habsent⟩
    rw [createdIds, List.filterMap_append]
    exact List.mem_append_left _ hmem
  obtain ⟨_, -, -, hfind⟩ := hinv
  exact hfind

theorem HistoryInv.frame (h : HistoryInv m history) {label : BufferLabel} {events : List BufferEvent}
    (heffect : Effect m label m' events) (hlabel : label ≠ .clearAll) {other : ByteString}
    (hother : other ≠ m.subject label) : SortedAssoc.find? other m'.buffers = SortedAssoc.find? other m.buffers := by
  cases heffect with
  | nothing | missed => rfl
  | created ms entry hsubject hone hdescribes hroom =>
      rw [hsubject] at hother
      simp only [tryEmplace, (h.created ms hone hdescribes hroom).1]
      rw [SortedAssoc.find?_insert, if_neg hother]
  | got bufferId entry hget =>
      subst hget
      exact (SortedAssoc.find?_insert ..).trans (if_neg hother)
  | released bufferId entry hrelease =>
      subst hrelease
      exact (SortedAssoc.find?_insert ..).trans (if_neg hother)
  | dropped bufferId entry hrelease =>
      subst hrelease
      exact (SortedAssoc.find?_erase ..).trans (if_neg hother)
  | cleared hclear => exact absurd hclear hlabel

/-- Adding up in 64 bits is adding up, as long as the sum has room. -/
theorem foldl_byteSize (entries : List (ByteString × BufferEntry)) (start : UInt64)
    (hroom : start.toNat + SortedAssoc.total (fun entry : BufferEntry => entry.metadata.byteSize.toNat) entries < 2 ^ 64) :
    (entries.foldl (fun total entry => total + entry.2.metadata.byteSize) start).toNat =
      start.toNat + SortedAssoc.total (fun entry : BufferEntry => entry.metadata.byteSize.toNat) entries := by
  induction entries generalizing start with
  | nil => rfl
  | cons entry entries ih =>
      rw [SortedAssoc.total_cons] at hroom ⊢
      have hadd : (start + entry.2.metadata.byteSize).toNat = start.toNat + entry.2.metadata.byteSize.toNat := by
        rw [UInt64.toNat_add]
        exact Nat.mod_eq_of_lt (by omega)
      rw [List.foldl_cons, ih _ (by omega), hadd, Nat.add_assoc]

theorem HistoryInv.total (h : HistoryInv m history) :
    m.totalMemoryUsage.toNat =
      (m.listBuffers.filterMap fun bufferId => (m.getMetadata bufferId).map fun data => data.byteSize.toNat).sum := by
  have hlisted : (m.listBuffers.filterMap fun bufferId => (m.getMetadata bufferId).map fun data => data.byteSize.toNat) =
      m.buffers.map fun entry => entry.2.metadata.byteSize.toNat := by
    rw [listBuffers, List.filterMap_map, ← List.filterMap_eq_map]
    apply List.filterMap_congr
    intro entry hmem
    simp [getMetadata, SortedAssoc.find?_of_mem h.sorted hmem]
  have hroom : (0 : UInt64).toNat + m.bytesHeld < 2 ^ 64 := by
    rw [UInt64.toNat_zero, Nat.zero_add]
    exact h.room
  rw [hlisted, totalMemoryUsage, foldl_byteSize m.buffers 0 hroom, UInt64.toNat_zero, Nat.zero_add]
  rfl

end Run

/-- In every history with few references the map is what the history says. -/
theorem reference_counting {s : DataBufferManager × List BufferEvent}
    (hreach : ReachableWhile (system.logged note) (fun s label => s.1.FewReferences label) s) :
    ReferenceCounted s.1 s.2 := by
  have hinv : HistoryInv s.1 s.2 := by
    refine (@ReachableWhile.logged _ _ _ system note FewReferences (fun _ => True) HistoryInv (fun _ _ => trivial)
      HistoryInv.init ?_ _ hreach).2
    intro s t label history _ h hfew hnext
    exact h.effect hfew (effect_of_step hnext)
  refine ⟨hinv.distinct, fun bufferId => ?_, fun bufferId entry hfind => (hinv.created_of_find hfind).2,
    hinv.described, fun bufferId hnone => ?_, fun bufferId hcreated hnone t => hinv.gone hcreated hnone, fun label t hnext hlabel other hother => ?_,
    hinv.total⟩
  · have hcounted := hinv.counted bufferId
    cases hfind : SortedAssoc.find? bufferId s.1.buffers with
    | none =>
        rw [hfind] at hcounted
        exact iff_of_false (by simp) hcounted
    | some entry => exact iff_of_true rfl (hinv.created_of_find hfind).1
  · rw [getBuffer, releaseBuffer, hnone]
    exact ⟨rfl, rfl⟩
  · exact hinv.frame (effect_of_step hnext) hlabel hother

/-! ### A run -/

def tenMs : CreateSurroundings := ⟨true, 10, 10⟩

/-- Two buffers; the first is got once and released three times, and looked for again. -/
def twoBuffers : List BufferLabel :=
  [.create tenMs (bytes "scope") (bytes "scope-1") .float64 2 none,
    .create tenMs (bytes "scope") (bytes "scope-2") .uint8 3 (some [1, 2, 3]),
    .create tenMs (bytes "scope") (bytes "scope-3") (.other 9) 3 none,
    .get (bytes "buffer_10_1"), .release (bytes "buffer_10_1"), .release (bytes "buffer_10_1"),
    .release (bytes "buffer_10_1"), .get (bytes "buffer_10_1")]

theorem reference_counting_twoBuffers :
    ∃ s, ReachableWhile (system.logged note) (fun s label => s.1.FewReferences label) s ∧
      s.1.listBuffers = [bytes "buffer_10_2"] ∧ s.1.totalMemoryUsage = 3 ∧ ReferenceCounted s.1 s.2 := by
  obtain ⟨s, hreach, hview⟩ := @ReachableWhile.of_any _ _ (system.logged note) (fun s label => s.1.FewReferences label) _
    twoBuffers (fun s => s.1.listBuffers = [bytes "buffer_10_2"] && s.1.totalMemoryUsage = 3) (by decide +kernel)
  obtain ⟨hlist, htotal⟩ : s.1.listBuffers = [bytes "buffer_10_2"] ∧ s.1.totalMemoryUsage = 3 := by simpa using hview
  exact ⟨s, hreach, hlist, htotal, reference_counting hreach⟩

end DataBufferManager

end InstrumentServer
