import InstrumentServer.Ipc.DataBufferManager
import InstrumentServer.Server.PendingCommands

/-!
# Large data across the process boundary

A plugin puts a large result into a buffer and names the buffer in its response. `DataBufferManager::instance()` is one object in each process: `data_buffer_create` runs in the worker and `get_buffer` in the server, and the queues between them carry the name and not the bytes. Nothing in the server's process ever creates a buffer, so no name resolves there: `references_resolve_iff`.

Each worker's state is its link together with the buffers of its process. The ids the plugin was given while it executes a command, the responses that name one of them, and what the server was told are on record only; the steps do not read them.
-/

namespace InstrumentServer

open Ipc Transition

structure PluginProcess where
  link : WorkerLink
  /-- `DataBufferManager::instance()` of the worker -/
  buffers : DataBufferManager := {}
  /-- the ids `data_buffer_create` gave to the plugin for the command at hand -/
  created : List ByteString := []
  /-- the responses that name a buffer the plugin created for them -/
  announced : List IpcMessage := []

/-- What a response told the server about a buffer, and how many references it may still give back. -/
structure DataReference where
  bufferId : ByteString
  elementCount : UInt64
  dataType : ByteString
  outstanding : Nat := 1

structure DataServer where
  /-- `DataBufferManager::instance()` of the server -/
  buffers : DataBufferManager := {}
  workers : ByteString → PluginProcess
  references : List DataReference := []

inductive DataLabel where
  /-- a step of the proxy or the worker of an instrument -/
  | link (name : ByteString) (label : LinkLabel)
  /-- the plugin calls `data_buffer_create` -/
  | pluginCreate (name : ByteString) (env : CreateSurroundings) (instrumentName commandId : Option ByteString)
      (dataType : UInt8) (elementCount : UInt64) (data : Option ByteString) (bufferIdOut : Bool)
  | getBuffer (bufferId : ByteString)
  | releaseBuffer (bufferId : ByteString)

namespace PluginProcess

/-- The responses of this step that name a buffer which the plugin created while it executed the command. -/
def newlyAnnounced (w : PluginProcess) (link : WorkerLink) (plugin : PluginResponse) : List IpcMessage :=
  if plugin.hasLargeData = true ∧ plugin.dataBufferId.text ∈ w.created then
    (link.replies.drop w.link.replies.length).map Prod.snd
  else []

def stepLink (N : JsonLibrary) (w : PluginProcess) (label : LinkLabel) : Option PluginProcess :=
  (w.link.atomicStep N label).map fun link =>
    match label with
    | .workerFinish plugin _ => { w with link, created := [], announced := w.announced ++ w.newlyAnnounced link plugin }
    | _ => { w with link }

/-- Only a plugin that executes a command calls. -/
def pluginCreate (w : PluginProcess) (env : CreateSurroundings) (instrumentName commandId : Option ByteString)
    (dataType : UInt8) (elementCount : UInt64) (data : Option ByteString) (bufferIdOut : Bool) : Option PluginProcess :=
  match w.link.worker.phase with
  | .executing _ _ =>
      let (buffers, bufferId) :=
        w.buffers.dataBufferCreate env instrumentName commandId dataType elementCount data bufferIdOut
      some { w with buffers, created := w.created ++ bufferId.toList }
  | _ => none

/-- The response about a buffer that the listener will handle next. -/
def dueReference (N : JsonLibrary) (w : PluginProcess) : Option DataReference :=
  match w.link.responses with
  | msg :: _ =>
      if msg.type = .response ∧ msg ∈ w.announced then
        ((deserializeResponse N msg.payload).toOption.filter CommandResponse.hasLargeData).map fun resp =>
          { bufferId := resp.bufferId, elementCount := resp.elementCount, dataType := resp.dataType }
      else none
  | [] => none

end PluginProcess

namespace DataServer

def setWorker (s : DataServer) (name : ByteString) (w : PluginProcess) : DataServer :=
  { s with workers := Function.update s.workers name w }

/-- A reference to the buffer is handed out or given back. -/
def count (s : DataServer) (bufferId : ByteString) (change : Nat → Nat) : DataServer :=
  { s with references := s.references.map fun r =>
      if r.bufferId = bufferId ∧ 0 < r.outstanding then { r with outstanding := change r.outstanding } else r }

def stepLink (N : JsonLibrary) (s : DataServer) (name : ByteString) (label : LinkLabel) : Option DataServer :=
  ((s.workers name).stepLink N label).map fun w =>
    match label with
    | .handleMessage => { s.setWorker name w with references := s.references ++ ((s.workers name).dueReference N).toList }
    | _ => s.setWorker name w

def getBuffer (s : DataServer) (bufferId : ByteString) : DataServer :=
  let (buffers, buffer) := s.buffers.getBuffer bufferId
  let s := { s with buffers }
  if buffer.isSome then s.count bufferId (· + 1) else s

def releaseBuffer (s : DataServer) (bufferId : ByteString) : DataServer :=
  { s with buffers := s.buffers.releaseBuffer bufferId }.count bufferId (· - 1)

def step (N : JsonLibrary) (s : DataServer) : DataLabel → Option DataServer
  | .link name label => s.stepLink N name label
  | .pluginCreate name env instrumentName commandId dataType elementCount data bufferIdOut =>
      ((s.workers name).pluginCreate env instrumentName commandId dataType elementCount data bufferIdOut).map
        (s.setWorker name)
  | .getBuffer bufferId => some (s.getBuffer bufferId)
  | .releaseBuffer bufferId => some (s.releaseBuffer bufferId)

/-- Every interleaving of the server and the workers of its instruments. -/
def system (N : JsonLibrary) : System DataServer DataLabel where
  init := { workers := fun instrumentName => { link := { proxy := { instrumentName } } } }
  step := step N

/-- What the server was told about a buffer is what it finds, until the last reference is given back. -/
def Resolves (s : DataServer) : Prop :=
  ∀ r ∈ s.references, 0 < r.outstanding → ∃ buffer, (s.buffers.getBuffer r.bufferId).2 = some buffer ∧
    buffer.elementCount = r.elementCount ∧ buffer.dataType.name = r.dataType

/-- The step does not deliver a response about a buffer. -/
def DeliversNone (N : JsonLibrary) (s : DataServer) : DataLabel → Prop
  | .link name .handleMessage => (s.workers name).dueReference N = none
  | _ => True

instance (N : JsonLibrary) (s : DataServer) : (label : DataLabel) → Decidable (s.DeliversNone N label)
  | .link name .handleMessage => decidable_of_iff (((s.workers name).dueReference N).isNone) Option.isNone_iff_eq_none
  | .link _ (.execute _) | .link _ (.advance _ _) | .link _ (.waitTimeout _) | .link _ (.sendSyncContinue _)
  | .link _ .stop | .link _ .takeMessage | .link _ .workerReceive | .link _ (.workerFinish _ _)
  | .link _ (.workerAck _) | .pluginCreate .. | .getBuffer _ | .releaseBuffer _ => isTrue trivial

/-! ### The server's buffers -/

variable {N : JsonLibrary} {s t : DataServer}

theorem getBuffer_empty {m : DataBufferManager} (hempty : m.buffers = []) (bufferId : ByteString) :
    m.getBuffer bufferId = (m, none) := by
  rw [DataBufferManager.getBuffer, hempty, SortedAssoc.find?_nil]

theorem releaseBuffer_empty {m : DataBufferManager} (hempty : m.buffers = []) (bufferId : ByteString) :
    m.releaseBuffer bufferId = m := by
  rw [DataBufferManager.releaseBuffer, hempty, SortedAssoc.find?_nil]

/-- What a step does to the server's buffers and to what it was told. -/
theorem step_cases {label : DataLabel} (hempty : s.buffers.buffers = []) (hnext : s.step N label = some t) :
    t.buffers = s.buffers ∧
      ((∃ name, label = .link name .handleMessage ∧
          t.references = s.references ++ ((s.workers name).dueReference N).toList) ∨
        (s.DeliversNone N label ∧ t.references = s.references) ∨
        (s.DeliversNone N label ∧ ∃ bufferId, t.references = (s.count bufferId (· - 1)).references)) := by
  cases label with
  | link name label =>
      obtain ⟨w, -, rfl⟩ := Option.map_eq_some_iff.mp hnext
      cases label with
      | handleMessage => exact ⟨rfl, Or.inl ⟨name, rfl, rfl⟩⟩
      | _ => exact ⟨rfl, Or.inr (Or.inl ⟨trivial, rfl⟩)⟩
  | pluginCreate name env instrumentName commandId dataType elementCount data bufferIdOut =>
      obtain ⟨w, -, rfl⟩ := Option.map_eq_some_iff.mp hnext
      exact ⟨rfl, Or.inr (Or.inl ⟨trivial, rfl⟩)⟩
  | getBuffer bufferId =>
      obtain rfl := Option.some.inj hnext
      rw [DataServer.getBuffer, getBuffer_empty hempty]
      exact ⟨rfl, Or.inr (Or.inl ⟨trivial, rfl⟩)⟩
  | releaseBuffer bufferId =>
      obtain rfl := Option.some.inj hnext
      rw [DataServer.releaseBuffer, releaseBuffer_empty hempty]
      exact ⟨rfl, Or.inr (Or.inr ⟨trivial, bufferId, rfl⟩)⟩

/-- The server has no buffer in any run. -/
theorem buffers_of_reachable {ok : DataServer → DataLabel → Prop} (hreach : ReachableWhile (system N) ok s) :
    s.buffers.buffers = [] := by
  refine @ReachableWhile.invariant _ _ _ _ (fun s : DataServer => s.buffers.buffers = []) rfl ?_ _ hreach
  intro s t label hempty _ hnext
  rw [(step_cases hempty hnext).1, hempty]

theorem references_of_reachable (hreach : ReachableWhile (system N) (DeliversNone N) s) : s.references = [] := by
  have hinv : s.buffers.buffers = [] ∧ s.references = [] := by
    refine @ReachableWhile.invariant _ _ _ _ (fun s : DataServer => s.buffers.buffers = [] ∧ s.references = [])
      ⟨rfl, rfl⟩ ?_ _ hreach
    rintro s t label ⟨hempty, hnone⟩ hok hnext
    obtain ⟨hbuffers, ⟨name, rfl, href⟩ | ⟨-, href⟩ | ⟨-, bufferId, href⟩⟩ := step_cases hempty hnext
    · rw [hok, Option.toList_none, List.append_nil] at href
      exact ⟨hbuffers ▸ hempty, href.trans hnone⟩
    · exact ⟨hbuffers ▸ hempty, href.trans hnone⟩
    · rw [count, hnone] at href
      exact ⟨hbuffers ▸ hempty, href⟩
  exact hinv.2

/-- The references resolve in every run that delivers none, and as soon as one is delivered it does not resolve. -/
theorem references_resolve_iff (N : JsonLibrary) :
    (∀ s, ReachableWhile (system N) (DeliversNone N) s → s.Resolves) ∧
      ∀ s label t, Reachable (system N) s → s.step N label = some t → ¬ s.DeliversNone N label → ¬ t.Resolves := by
  constructor
  · intro s hreach r hr
    rw [references_of_reachable hreach] at hr
    contradiction
  · intro s label t hreach hnext hdelivers hresolves
    have hempty := buffers_of_reachable hreach
    obtain ⟨hbuffers, ⟨name, rfl, href⟩ | ⟨hnone, -⟩ | ⟨hnone, -⟩⟩ := step_cases hempty hnext
    · obtain ⟨r, hr⟩ := Option.ne_none_iff_exists'.mp hdelivers
      have houtstanding : 0 < r.outstanding := by
        rw [PluginProcess.dueReference] at hr
        split at hr
        · split at hr
          · obtain ⟨resp, -, rfl⟩ := Option.map_eq_some_iff.mp hr
            exact Nat.one_pos
          · contradiction
        · contradiction
      obtain ⟨buffer, hbuffer, -⟩ := hresolves r (by simp [href, hr]) houtstanding
      rw [hbuffers, getBuffer_empty hempty] at hbuffer
      contradiction
    · exact hdelivers hnone
    · exact hdelivers hnone

/-! ### A run -/

def scopeSurroundings : CreateSurroundings := ⟨true, 10, 10⟩

/-- The plugin's response about its first buffer, of two doubles. -/
def bufferReply : PluginResponse :=
  { PluginResponse.zero with
    success := true
    hasLargeData := true
    dataBufferId := .copy _ pluginMaxStringLen_pos (bytes "buffer_10_1")
    dataElementCount := 2
    dataType := 1 }

/-- A command, a buffer of two doubles made for it, and the response that names the buffer. -/
def bufferRun : List DataLabel :=
  let scope := bytes "scope"
  [.link scope (.execute tokenCommand)] ++ List.replicate 4 (.link scope (.advance 0 true)) ++
    [.link scope .workerReceive, .pluginCreate scope scopeSurroundings (some scope) (some (bytes "scope-1")) 1 2 none true,
      .link scope (.workerFinish bufferReply true)]

/-- The buffer is there, in the worker; the server is about to be told of it. -/
theorem references_resolve_bufferRun :
    ∃ s, ReachableWhile (system .compact) (DeliversNone .compact) s ∧
      (s.workers (bytes "scope")).buffers.listBuffers = [bytes "buffer_10_1"] ∧ s.Resolves := by
  obtain ⟨s, hreach, hview⟩ := @ReachableWhile.of_any _ _ (system .compact) (DeliversNone .compact) _ bufferRun
    (fun s => (s.workers (bytes "scope")).buffers.listBuffers = [bytes "buffer_10_1"]) (by decide +kernel)
  exact ⟨s, hreach, by simpa using hview, (references_resolve_iff .compact).1 s hreach⟩

/-- One step later the server was told of the buffer, has no reference given back, and does not find it. -/
theorem reference_unresolved :
    ∃ s, Reachable (system .compact) s ∧
      (∃ buffer, ((s.workers (bytes "scope")).buffers.getBuffer (bytes "buffer_10_1")).2 = some buffer ∧
        buffer.elementCount = 2 ∧ buffer.dataType = .float64) ∧
      (∃ r ∈ s.references, r.bufferId = bytes "buffer_10_1" ∧ r.elementCount = 2 ∧ r.dataType = bytes "float64" ∧
        0 < r.outstanding) ∧
      (s.buffers.getBuffer (bytes "buffer_10_1")).2 = none ∧ ¬ s.Resolves := by
  obtain ⟨s, hreach, hview⟩ := @ReachableWhile.of_any _ _ (system .compact) (fun _ _ => True) _
    (bufferRun ++ [.link (bytes "scope") .handleMessage])
    (fun s =>
      (((s.workers (bytes "scope")).buffers.getBuffer (bytes "buffer_10_1")).2.any fun buffer =>
        buffer.elementCount = 2 && buffer.dataType = .float64) &&
      (s.references.any fun r => r.bufferId = bytes "buffer_10_1" && r.elementCount = 2 && r.dataType = bytes "float64" &&
        0 < r.outstanding))
    (by decide +kernel)
  rw [Bool.and_eq_true, Option.any_eq_true, List.any_eq_true] at hview
  obtain ⟨⟨buffer, hbuffer, hmade⟩, r, hr, htold⟩ := hview
  obtain ⟨hcount, htype⟩ : buffer.elementCount = 2 ∧ buffer.dataType = .float64 := by simpa using hmade
  obtain ⟨⟨⟨hid, helements⟩, hname⟩, houtstanding⟩ : ((r.bufferId = bytes "buffer_10_1" ∧ r.elementCount = 2) ∧
      r.dataType = bytes "float64") ∧ 0 < r.outstanding := by simpa using htold
  have hmissing := getBuffer_empty (buffers_of_reachable hreach) (bytes "buffer_10_1")
  refine ⟨s, hreach, ⟨buffer, hbuffer, hcount, htype⟩, ⟨r, hr, hid, helements, hname, houtstanding⟩,
    congrArg Prod.snd hmissing, fun hresolves => ?_⟩
  obtain ⟨found, hfound, -⟩ := hresolves r hr houtstanding
  rw [hid, hmissing] at hfound
  contradiction

end DataServer

end InstrumentServer
