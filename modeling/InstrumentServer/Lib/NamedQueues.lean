import Mathlib.Data.List.Basic
import Mathlib.Logic.Function.Basic

/-!
# Queues with names

Bounded queues that are created, opened and removed by name. A name stands for at most one queue; removing it leaves the queue to those who have opened it, and the next queue that is created under the name is another one. Queues are told apart by numbers that are never used twice.

Two facts are kept by every operation: different names never stand for the same queue, and what was sent into a queue is, in order, what was received from it and what is still in it.
-/

structure NamedQueues (Name Message : Type) where
  names : Name → Option Nat
  contents : Nat → List Message
  next : Nat

namespace NamedQueues

variable {Name Message : Type} {s : NamedQueues Name Message}

def empty : NamedQueues Name Message := ⟨fun _ => none, fun _ => [], 0⟩

section

variable [DecidableEq Name]

def remove (s : NamedQueues Name Message) (name : Name) : NamedQueues Name Message :=
  { s with names := Function.update s.names name none }

/-- A new queue, if the name is free. -/
def create (s : NamedQueues Name Message) (name : Name) : Option (NamedQueues Name Message × Nat) :=
  if (s.names name).isSome then none
  else some ({ s with names := Function.update s.names name (some s.next), next := s.next + 1 }, s.next)

end

def send (s : NamedQueues Name Message) (capacity q : Nat) (message : Message) : Option (NamedQueues Name Message) :=
  if (s.contents q).length < capacity then
    some { s with contents := Function.update s.contents q (s.contents q ++ [message]) }
  else none

def receive (s : NamedQueues Name Message) (q : Nat) : Option (Message × NamedQueues Name Message) :=
  match s.contents q with
  | [] => none
  | message :: rest => some (message, { s with contents := Function.update s.contents q rest })

/-! ### Names -/

/-- Names stand for queues that exist, different names for different ones. -/
structure WellNamed (s : NamedQueues Name Message) : Prop where
  below : ∀ name q, s.names name = some q → q < s.next
  unique : ∀ name name' q, s.names name = some q → s.names name' = some q → name = name'

theorem wellNamed_empty : WellNamed (empty : NamedQueues Name Message) := by
  constructor <;> simp [empty]

section

variable [DecidableEq Name]

theorem names_remove (name other : Name) :
    (s.remove name).names other = if other = name then none else s.names other := by
  by_cases hother : other = name <;> simp [remove, hother]

theorem WellNamed.remove (h : WellNamed s) (name : Name) : WellNamed (s.remove name) := by
  refine ⟨fun other q hq => ?_, fun other other' q hq hq' => ?_⟩
  · rw [names_remove] at hq
    split at hq
    · simp at hq
    · exact h.below other q hq
  · rw [names_remove] at hq hq'
    split at hq
    · simp at hq
    · split at hq'
      · simp at hq'
      · exact h.unique other other' q hq hq'

/-- What the creation of a queue does. -/
theorem create_eq_some {s' : NamedQueues Name Message} {name : Name} {q : Nat} (hcreate : s.create name = some (s', q)) :
    q = s.next ∧ s'.next = s.next + 1 ∧ s'.contents = s.contents ∧
      ∀ other, s'.names other = if other = name then some s.next else s.names other := by
  rw [create] at hcreate
  split at hcreate
  · simp at hcreate
  · obtain ⟨rfl, rfl⟩ := Prod.mk.inj (Option.some.inj hcreate)
    refine ⟨rfl, rfl, rfl, fun other => ?_⟩
    by_cases hother : other = name <;> simp [hother]

theorem WellNamed.create (h : WellNamed s) {s' : NamedQueues Name Message} {name : Name} {q : Nat}
    (hcreate : s.create name = some (s', q)) : WellNamed s' := by
  obtain ⟨-, hnext, -, hnames⟩ := create_eq_some hcreate
  refine ⟨fun other q hq => ?_, fun other other' q hq hq' => ?_⟩
  · rw [hnames] at hq
    rw [hnext]
    split at hq
    · exact Option.some.inj hq ▸ Nat.lt_succ_self _
    · exact Nat.lt_succ_of_lt (h.below other q hq)
  · rw [hnames] at hq hq'
    split at hq <;> split at hq'
    · rename_i heq heq'
      exact heq.trans heq'.symm
    · exact absurd (h.below other' q hq') (Option.some.inj hq ▸ Nat.lt_irrefl _)
    · exact absurd (h.below other q hq) (Option.some.inj hq' ▸ Nat.lt_irrefl _)
    · exact h.unique other other' q hq hq'

end

/-! ### Order -/

/-- What was sent is what was received and what is still there, and that is not more than there is room for. -/
structure Balanced (s : NamedQueues Name Message) (capacity : Nat) (sent received : Nat → List Message) : Prop where
  inOrder : ∀ q, sent q = received q ++ s.contents q
  bounded : ∀ q, (s.contents q).length ≤ capacity

variable {capacity : Nat} {sent received : Nat → List Message}

theorem Balanced.send (h : Balanced s capacity sent received) {q : Nat} {message : Message}
    {s' : NamedQueues Name Message} (hsend : s.send capacity q message = some s') :
    Balanced s' capacity (Function.update sent q (sent q ++ [message])) received ∧ s'.names = s.names ∧
      s'.next = s.next := by
  rw [NamedQueues.send] at hsend
  split at hsend
  · rename_i hroom
    obtain rfl := Option.some.inj hsend
    refine ⟨⟨fun other => ?_, fun other => ?_⟩, rfl, rfl⟩ <;> by_cases hother : other = q
    · subst hother
      simp [h.inOrder other]
    · simp [hother, h.inOrder other]
    · subst hother
      simp
      omega
    · simpa [hother] using h.bounded other
  · simp at hsend

theorem Balanced.receive (h : Balanced s capacity sent received) {q : Nat} {message : Message}
    {s' : NamedQueues Name Message} (hreceive : s.receive q = some (message, s')) :
    Balanced s' capacity sent (Function.update received q (received q ++ [message])) ∧ s'.names = s.names ∧
      s'.next = s.next := by
  rw [NamedQueues.receive] at hreceive
  split at hreceive
  · simp at hreceive
  · rename_i first rest hcontents
    obtain ⟨rfl, rfl⟩ := Prod.mk.inj (Option.some.inj hreceive)
    have hbounded := h.bounded q
    rw [hcontents, List.length_cons] at hbounded
    refine ⟨⟨fun other => ?_, fun other => ?_⟩, rfl, rfl⟩ <;> by_cases hother : other = q
    · subst hother
      simp [h.inOrder other, hcontents]
    · simp [hother, h.inOrder other]
    · subst hother
      simp
      omega
    · simpa [hother] using h.bounded other

theorem Balanced.of_contents (h : Balanced s capacity sent received) {s' : NamedQueues Name Message}
    (hcontents : s'.contents = s.contents) : Balanced s' capacity sent received := by
  refine ⟨fun q => ?_, fun q => ?_⟩ <;> rw [hcontents]
  · exact h.inOrder q
  · exact h.bounded q

end NamedQueues
