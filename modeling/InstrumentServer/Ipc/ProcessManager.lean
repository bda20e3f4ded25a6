import InstrumentServer.Lib.Transition
import Mathlib.Data.List.Nodup
import Mathlib.Logic.Function.Basic

/-!
# The process manager

`ProcessManager` on POSIX and the pids of the operating system. A worker that has exited keeps its pid until `waitpid` has reported the exit; then the pid is free, for another worker or for a process that has nothing to do with this server. `is_alive` is a `waitpid`, so it reports the exit and says only "not alive". `wait_for_exit` is a row of such queries, ended by the first that says so or by the deadline.

An entry stays in `processes_` until `cleanup_all` has signalled it. A worker whose exit was reported before is signalled all the same: `own_children_signalled_iff`.
-/

namespace InstrumentServer.Ipc

open Transition

/-- What a pid is to the operating system. -/
inductive PidState where
  | free
  /-- a worker of this process manager whose exit was not yet reported -/
  | child (exited : Bool)
  | foreign
deriving DecidableEq

/-- Where the destructor is in `cleanup_all`. -/
inductive CleanupPoint where
  | idle
  | killing (pids : List Nat)
  /-- in `wait_for_exit(pid)`, with `pids` to go -/
  | waiting (pid : Nat) (pids : List Nat)
deriving DecidableEq

structure ProcessManager where
  os : Nat → PidState := fun _ => .free
  /-- the keys of `processes_` -/
  processes : List Nat := []
  cleanup : CleanupPoint := .idle

inductive ProcessLabel where
  | spawnWorker (pid : Nat)
  /-- a worker exits, for whatever reason -/
  | exit (pid : Nat)
  /-- a process of somebody else takes a free pid or gives it back -/
  | foreign (pid : Nat) (used : Bool)
  /-- `is_alive`, or one turn of `wait_for_exit` -/
  | isAlive (pid : Nat)
  | killProcess (pid : Nat) (force : Bool)
  /-- `cleanup_all` begins; the map gives the pids in some order -/
  | cleanupAll (pids : List Nat)
  /-- the next step of `cleanup_all`; `expired` says whether the deadline of `wait_for_exit` has passed -/
  | cleanup (expired : Bool)

namespace ProcessManager

/-- `waitpid(pid, &status, WNOHANG) == 0`, and what is left of the child. -/
def isAliveImpl (m : ProcessManager) (pid : Nat) : Bool × ProcessManager :=
  match m.os pid with
  | .child false => (true, m)
  | .child true => (false, { m with os := Function.update m.os pid .free })
  | .free | .foreign => (false, m)

def isAlive (m : ProcessManager) (pid : Nat) : Bool × ProcessManager :=
  if pid ∈ m.processes then m.isAliveImpl pid else (false, m)

def spawnWorker (m : ProcessManager) (pid : Nat) : ProcessManager :=
  { m with os := Function.update m.os pid (.child false), processes := m.processes.insert pid }

/-- The pids that `kill_process(pid)` passes to `kill`. -/
def killProcess (m : ProcessManager) (pid : Nat) : List Nat := if pid ∈ m.processes then [pid] else []

def cleanupStep (m : ProcessManager) (expired : Bool) : Option ProcessManager :=
  match m.cleanup with
  | .idle => none
  | .killing [] => some { m with processes := [], cleanup := .idle }
  | .killing (pid :: pids) => some { m with cleanup := .waiting pid pids }
  | .waiting pid pids =>
      if expired then some { m with cleanup := .killing pids }
      else
        some { (m.isAlive pid).2 with cleanup := if (m.isAlive pid).1 then .waiting pid pids else .killing pids }

/-- While the destructor runs there are no calls but its own. A signal shows in what the worker does next, if anything. -/
def step (m : ProcessManager) : ProcessLabel → Option ProcessManager
  | .spawnWorker pid => if m.cleanup = .idle ∧ 0 < pid ∧ m.os pid = .free then some (m.spawnWorker pid) else none
  | .exit pid =>
      if m.os pid = .child false then some { m with os := Function.update m.os pid (.child true) } else none
  | .foreign pid used =>
      if m.os pid = (if used then .free else .foreign) then
        some { m with os := Function.update m.os pid (if used then .foreign else .free) }
      else none
  | .isAlive pid => if m.cleanup = .idle then some (m.isAlive pid).2 else none
  | .killProcess _ _ => if m.cleanup = .idle then some m else none
  | .cleanupAll pids => if m.cleanup = .idle ∧ pids.Perm m.processes then some { m with cleanup := .killing pids } else none
  | .cleanup expired => m.cleanupStep expired

/-- The pids a step passes to `kill`. -/
def signals (m : ProcessManager) : ProcessLabel → List Nat
  | .killProcess pid _ => m.killProcess pid
  | .cleanup _ =>
      match m.cleanup with
      | .killing (pid :: _) => m.killProcess pid
      | _ => []
  | _ => []

/-- Every sequence of calls, with workers and foreign processes coming and going in between. -/
def system : System ProcessManager ProcessLabel where
  init := {}
  step := step

/-- The pid belongs to a worker that was spawned here and whose exit was not reported. -/
def Own (m : ProcessManager) (pid : Nat) : Prop := ∃ exited, m.os pid = .child exited

/-- No worker is asked for after it has exited; `cleanup_all` may ask for those it has signalled. -/
def Unreported (m : ProcessManager) : ProcessLabel → Prop
  | .isAlive pid => pid ∈ m.processes → m.os pid ≠ .child true
  | _ => True

/-- The pids that may still be signalled. -/
def due (m : ProcessManager) : List Nat :=
  match m.cleanup with
  | .idle => m.processes
  | .killing pids | .waiting _ pids => pids

structure ChildInv (m : ProcessManager) : Prop where
  nodup : m.processes.Nodup
  dueNodup : m.due.Nodup
  waiting : ∀ pid pids, m.cleanup = .waiting pid pids → pid ∉ pids
  own : ∀ pid ∈ m.due, m.Own pid

variable {m n : ProcessManager} {pid : Nat}

/-- A query changes nothing but the state of a worker that has exited. -/
theorem isAlive_cases (m : ProcessManager) (pid : Nat) :
    (m.isAlive pid).2 = m ∨
      (pid ∈ m.processes ∧ m.os pid = .child true ∧
        m.isAlive pid = (false, { m with os := Function.update m.os pid .free })) := by
  rw [isAlive]
  split
  · rename_i hlisted
    rw [isAliveImpl]
    split
    · exact Or.inl rfl
    · rename_i hexited
      exact Or.inr ⟨hlisted, hexited, rfl⟩
    · exact Or.inl rfl
    · exact Or.inl rfl
  · exact Or.inl rfl

namespace ChildInv

theorem init : ChildInv system.init where
  nodup := List.nodup_nil
  dueNodup := List.nodup_nil
  waiting _ _ h := by contradiction
  own _ h := by contradiction

/-- What happens to a pid that is not due, or leaves it a child. -/
theorem update (h : ChildInv m) {state : PidState} (hstate : pid ∈ m.due → ∃ exited, state = .child exited) :
    ChildInv { m with os := Function.update m.os pid state } where
  nodup := h.nodup
  dueNodup := h.dueNodup
  waiting := h.waiting
  own q hq := by
    show ∃ exited, Function.update m.os pid state q = .child exited
    by_cases hqp : q = pid
    · subst hqp
      rw [Function.update_self]
      exact hstate hq
    · rw [Function.update_of_ne hqp]
      exact h.own q hq

theorem spawnWorker (h : ChildInv m) (hidle : m.cleanup = .idle) : ChildInv (m.spawnWorker pid) := by
  have hown := h.own
  rw [due, hidle] at hown
  have hnodup : (m.processes.insert pid).Nodup := h.nodup.insert
  have hdue : (m.spawnWorker pid).due = m.processes.insert pid := by
    simp [due, ProcessManager.spawnWorker, hidle]
  refine ⟨hnodup, hdue ▸ hnodup, fun q pids hwaiting => ?_, fun q hq => ?_⟩
  · rw [show (m.spawnWorker pid).cleanup = .idle from hidle] at hwaiting
    contradiction
  · show ∃ exited, Function.update m.os pid (.child false) q = .child exited
    by_cases hqp : q = pid
    · exact ⟨false, by rw [hqp, Function.update_self]⟩
    · rw [Function.update_of_ne hqp]
      rw [hdue] at hq
      exact hown q ((List.mem_insert_iff.mp hq).resolve_left hqp)

theorem cleanupStep {expired : Bool} (h : ChildInv m) (hnext : m.cleanupStep expired = some n) : ChildInv n := by
  have hdue := h.dueNodup
  have hown := h.own
  rw [ProcessManager.cleanupStep] at hnext
  split at hnext
  · contradiction
  · obtain rfl := Option.some.inj hnext
    exact ⟨List.nodup_nil, List.nodup_nil, fun _ _ hwaiting => by contradiction, fun _ hmem => by contradiction⟩
  · rename_i pid pids hcleanup
    obtain rfl := Option.some.inj hnext
    rw [due, hcleanup] at hdue hown
    obtain ⟨hfresh, hrest⟩ := List.nodup_cons.mp hdue
    refine ⟨h.nodup, hrest, ?_, fun q hq => hown q (List.mem_cons_of_mem _ hq)⟩
    rintro _ _ ⟨⟩
    exact hfresh
  · rename_i pid pids hcleanup
    have hfresh := h.waiting pid pids hcleanup
    rw [due, hcleanup] at hdue hown
    have hkilling : ChildInv { m with cleanup := .killing pids } :=
      ⟨h.nodup, hdue, fun _ _ hwaiting => by contradiction, hown⟩
    split at hnext
    · obtain rfl := Option.some.inj hnext
      exact hkilling
    · obtain rfl := Option.some.inj hnext
      rcases m.isAlive_cases pid with hsame | ⟨-, -, hreported⟩
      · rw [hsame]
        split
        · rw [← hcleanup]
          exact h
        · exact hkilling
      · rw [hreported]
        exact hkilling.update fun hmem => absurd hmem hfresh

theorem step {label : ProcessLabel} (h : ChildInv m) (hok : m.Unreported label) (hnext : m.step label = some n) :
    ChildInv n := by
  cases label with
  | spawnWorker pid =>
      obtain ⟨⟨hidle, -, hfree⟩, hnext⟩ := Option.ite_none_right_eq_some.mp hnext
      obtain rfl := Option.some.inj hnext
      exact h.spawnWorker hidle
  | exit pid =>
      obtain ⟨-, hnext⟩ := Option.ite_none_right_eq_some.mp hnext
      obtain rfl := Option.some.inj hnext
      exact h.update fun _ => ⟨true, rfl⟩
  | foreign pid used =>
      obtain ⟨hstate, hnext⟩ := Option.ite_none_right_eq_some.mp hnext
      obtain rfl := Option.some.inj hnext
      refine h.update fun hdue => ?_
      obtain ⟨exited, hchild⟩ := h.own pid hdue
      rw [hchild] at hstate
      cases used <;> contradiction
  | isAlive pid =>
      obtain ⟨hidle, hnext⟩ := Option.ite_none_right_eq_some.mp hnext
      obtain rfl := Option.some.inj hnext
      rcases m.isAlive_cases pid with hsame | ⟨hlisted, hexited, -⟩
      · rw [hsame]
        exact h
      · exact absurd hexited (hok hlisted)
  | killProcess pid force =>
      obtain ⟨-, hnext⟩ := Option.ite_none_right_eq_some.mp hnext
      obtain rfl := Option.some.inj hnext
      exact h
  | cleanupAll pids =>
      obtain ⟨⟨hidle, hperm⟩, hnext⟩ := Option.ite_none_right_eq_some.mp hnext
      obtain rfl := Option.some.inj hnext
      have hown := h.own
      rw [due, hidle] at hown
      exact ⟨h.nodup, hperm.nodup_iff.mpr h.nodup, fun _ _ hwaiting => by contradiction,
        fun q hq => hown q (hperm.mem_iff.mp hq)⟩
  | cleanup expired => exact h.cleanupStep hnext

end ChildInv

theorem childInv_of_reachable (hreach : ReachableWhile system Unreported m) : ChildInv m := by
  refine @ReachableWhile.invariant _ _ _ _ ChildInv .init ?_ _ hreach
  intro m n label h hok hnext
  exact h.step hok hnext

/-- What is signalled is due. -/
theorem mem_due_of_mem_signals {label : ProcessLabel} (hnext : m.step label = some n) (hpid : pid ∈ m.signals label) :
    pid ∈ m.due := by
  have hkill : ∀ {q : Nat}, pid ∈ m.killProcess q → pid = q ∧ q ∈ m.processes := by
    intro q hq
    rw [killProcess] at hq
    split at hq
    · rename_i hlisted
      exact ⟨List.mem_singleton.mp hq, hlisted⟩
    · contradiction
  cases label with
  | killProcess q force =>
      obtain ⟨hidle, -⟩ := Option.ite_none_right_eq_some.mp hnext
      obtain ⟨rfl, hlisted⟩ := hkill hpid
      rwa [due, hidle]
  | cleanup expired =>
      rw [signals] at hpid
      split at hpid
      · rename_i q pids hcleanup
        obtain ⟨rfl, -⟩ := hkill hpid
        rw [due, hcleanup]
        exact List.mem_cons_self
      · contradiction
  | spawnWorker | exit | foreign | isAlive | cleanupAll => contradiction

/-! ### After a reported exit -/

/-- `cleanup_all` comes to every pid of the map, when the waits for those before it expire. -/
theorem cleanup_signals {pids : List Nat} (hcleanup : m.cleanup = .killing pids) (hpid : pid ∈ pids)
    (hlisted : pid ∈ m.processes) :
    ∃ labels n last, system.runWhile (fun _ _ => True) m labels = some n ∧ n.os = m.os ∧
      n.step (.cleanup true) = some last ∧ pid ∈ n.signals (.cleanup true) := by
  induction pids generalizing m with
  | nil => contradiction
  | cons q rest ih =>
      by_cases hq : q = pid
      · subst hq
        refine ⟨[], m, { m with cleanup := .waiting q rest }, rfl, rfl, ?_, ?_⟩
        · show m.cleanupStep true = _
          rw [cleanupStep, hcleanup]
        · simp [signals, hcleanup, killProcess, hlisted]
      · have hrest : pid ∈ rest := (List.mem_cons.mp hpid).resolve_left (Ne.symm hq)
        have hkill : system.step m (.cleanup true) = some { m with cleanup := .waiting q rest } := by
          show m.cleanupStep true = _
          rw [cleanupStep, hcleanup]
        have hexpire : system.step { m with cleanup := .waiting q rest } (.cleanup true) =
            some { m with cleanup := .killing rest } := rfl
        obtain ⟨labels, n, last, hrun, hos, hsignal⟩ := @ih { m with cleanup := .killing rest } rfl hrest hlisted
        refine ⟨.cleanup true :: .cleanup true :: labels, n, last, ?_, hos, hsignal⟩
        rw [System.runWhile, if_pos trivial, hkill, Option.bind_some, System.runWhile, if_pos trivial, hexpire,
          Option.bind_some, hrun]

/-- Only own children are signalled in every run where no exit is reported before, and an exit that is reported before leaves a pid that `cleanup_all` signals although it is not ours. -/
theorem own_children_signalled_iff {label : ProcessLabel} (hreach : ReachableWhile system Unreported m)
    (hnext : m.step label = some n) :
    (∀ pid ∈ m.signals label, m.Own pid) ∧
      (¬ m.Unreported label →
        ∃ labels o last pid, system.runWhile (fun _ _ => True) n labels = some o ∧
          o.step (.cleanup true) = some last ∧ pid ∈ o.signals (.cleanup true) ∧ ¬ o.Own pid) := by
  constructor
  · intro pid hpid
    exact (childInv_of_reachable hreach).own pid (mem_due_of_mem_signals hnext hpid)
  · intro hreported
    cases label with
    | isAlive pid =>
        obtain ⟨hidle, hnext⟩ := Option.ite_none_right_eq_some.mp hnext
        obtain rfl := Option.some.inj hnext
        obtain ⟨hlisted, hexited⟩ : pid ∈ m.processes ∧ m.os pid = .child true := by
          by_contra hnot
          exact hreported fun hlisted hexited => hnot ⟨hlisted, hexited⟩
        have hquery : (m.isAlive pid).2 = { m with os := Function.update m.os pid .free } := by
          rw [isAlive, if_pos hlisted, isAliveImpl, hexited]
        rw [hquery]
        let cleaning : ProcessManager :=
          { m with os := Function.update m.os pid .free, cleanup := .killing m.processes }
        have hbegin : system.step { m with os := Function.update m.os pid .free } (.cleanupAll m.processes) =
            some cleaning := if_pos ⟨hidle, .refl _⟩
        obtain ⟨labels, o, last, hrun, hos, hlast, hsignal⟩ := @cleanup_signals cleaning pid _ rfl hlisted hlisted
        refine ⟨.cleanupAll m.processes :: labels, o, last, pid, ?_, hlast, hsignal, ?_⟩
        · rw [System.runWhile, if_pos trivial, hbegin, Option.bind_some, hrun]
        · rintro ⟨exited, hchild⟩
          rw [hos, show cleaning.os pid = .free from Function.update_self ..] at hchild
          contradiction
    | spawnWorker | exit | foreign | killProcess | cleanupAll | cleanup => exact absurd trivial hreported

/-! ### Runs -/

instance (m : ProcessManager) : (label : ProcessLabel) → Decidable (m.Unreported label)
  | .isAlive pid => inferInstanceAs (Decidable (pid ∈ m.processes → m.os pid ≠ .child true))
  | .spawnWorker _ | .exit _ | .foreign _ _ | .killProcess _ _ | .cleanupAll _ | .cleanup _ => isTrue trivial

/-- Two workers, one asked for while it runs; the server ends, and waits for the first of them in vain. -/
def destructorRun : List ProcessLabel :=
  [.spawnWorker 10, .spawnWorker 11, .isAlive 10, .exit 10, .cleanupAll [11, 10], .cleanup false, .cleanup false,
    .cleanup true]

theorem own_children_signalled_destructorRun :
    ∃ m, ReachableWhile system Unreported m ∧ (∃ n, m.step (.cleanup true) = some n) ∧
      m.signals (.cleanup true) = [10] ∧ m.Own 10 := by
  obtain ⟨m, hreach, hview⟩ := @ReachableWhile.of_any _ _ system Unreported _ destructorRun
    (fun m => (m.step (.cleanup true)).isSome && m.signals (.cleanup true) = [10]) (by decide +kernel)
  obtain ⟨henabled, hsignals⟩ : (m.step (.cleanup true)).isSome ∧ m.signals (.cleanup true) = [10] := by
    simpa using hview
  obtain ⟨n, hnext⟩ := Option.isSome_iff_exists.mp henabled
  exact ⟨m, hreach, ⟨n, hnext⟩, hsignals, (own_children_signalled_iff hreach hnext).1 10 (by rw [hsignals]; simp)⟩

/-- A worker exits when its proxy is stopped, `wait_for_exit` reports it, the pid goes to a foreign process, and the destructor signals that one. -/
theorem foreign_process_signalled :
    ∃ m, Reachable system m ∧ (∃ n, m.step (.cleanup true) = some n) ∧ m.signals (.cleanup true) = [10] ∧
      m.os 10 = .foreign ∧ ¬ m.Own 10 := by
  obtain ⟨m, hreach, hview⟩ := @ReachableWhile.of_any _ _ system (fun _ _ => True) _
    [.spawnWorker 10, .isAlive 10, .exit 10, .isAlive 10, .foreign 10 true, .cleanupAll [10]]
    (fun m => ((m.step (.cleanup true)).isSome && m.signals (.cleanup true) = [10]) && m.os 10 = .foreign)
    (by decide +kernel)
  obtain ⟨⟨henabled, hsignals⟩, hforeign⟩ : ((m.step (.cleanup true)).isSome ∧ m.signals (.cleanup true) = [10]) ∧
      m.os 10 = .foreign := by simpa using hview
  refine ⟨m, hreach, Option.isSome_iff_exists.mp henabled, hsignals, hforeign, ?_⟩
  rintro ⟨exited, hchild⟩
  rw [hforeign] at hchild
  contradiction

end ProcessManager

end InstrumentServer.Ipc
