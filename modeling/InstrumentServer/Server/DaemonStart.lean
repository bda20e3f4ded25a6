import InstrumentServer.Server.PidFile
import InstrumentServer.Lib.Transition
import Mathlib.Logic.Function.Basic

/-!
# Daemons that start at the same time

Any number of processes share the runtime directory and call `ServerDaemon::start()`. Its steps on the PID file interleave: does the file exist, which pid is in it, does that process exist, open the file for writing, write the own pid, and remove the file again if the RPC server does not start. A process may exit at any moment; its pid is reached by signals until it has been reaped, and is then free for a new process. Opening an existing file keeps its inode and truncates it, and what is written through an open file goes to its inode even after the path was removed.

Between its look at the file and its own write a process is not protected from others doing the same. `Undisturbed` says that nobody comes in between; then at most one daemon is started, and the file names it: `at_most_one_daemon`.
-/

namespace InstrumentServer

open Transition

/-- Where a process is in `start()`. -/
inductive StartPoint where
  /-- not in `start()`, or returned with false -/
  | idle
  /-- the PID file exists -/
  | found
  | testing (pid : Int)
  /-- `is_already_running()` has returned false -/
  | clear
  | opened (inode : Nat)
  | written
  /-- the RPC server did not start -/
  | removing
  | unlinking
  /-- returned with true -/
  | started
deriving DecidableEq

structure PidFile where
  inode : Nat
  content : ByteString
deriving DecidableEq

structure RuntimeDir where
  file : Option PidFile
  /-- the next free inode -/
  inodes : Nat
  /-- the pids that `kill(pid, 0)` reaches -/
  signalable : Int → Bool
  /-- the processes that use this directory -/
  live : List Nat
  point : Nat → StartPoint

inductive StartLabel where
  | launch (p : Nat)
  | exit (p : Nat)
  /-- a pid that no live process of this directory has comes into use or is free again -/
  | other (pid : Int) (used : Bool)
  /-- the next step of a process; `ok` is for the calls that may fail -/
  | advance (p : Nat) (ok : Bool)

namespace RuntimeDir

def setPoint (s : RuntimeDir) (p : Nat) (point : StartPoint) : RuntimeDir :=
  { s with point := Function.update s.point p point }

/-- `std::ofstream ofs(pid_file)`. -/
def openPidFile (s : RuntimeDir) (p : Nat) : RuntimeDir :=
  match s.file with
  | some file => { s with file := some { file with content := [] } }.setPoint p (.opened file.inode)
  | none => { s with file := some ⟨s.inodes, []⟩, inodes := s.inodes + 1 }.setPoint p (.opened s.inodes)

/-- `ofs << getpid() << std::endl`, at the beginning of the file that was opened. -/
def writePid (s : RuntimeDir) (p inode : Nat) : RuntimeDir :=
  { s with
    file := s.file.map fun (file : PidFile) =>
      if file.inode = inode then { file with content := pidText p ++ file.content.drop (pidText p).length }
      else file }.setPoint p .written

/-- The next step of `start()`. -/
def advance (s : RuntimeDir) (p : Nat) (ok : Bool) : Option RuntimeDir :=
  match s.point p with
  | .idle => some (s.setPoint p (if s.file.isSome then .found else .clear))
  | .found =>
      match s.file.bind fun file => readPid file.content with
      | some pid => some (s.setPoint p (.testing pid))
      | none => some (s.setPoint p .clear)
  | .testing pid => some (s.setPoint p (if s.signalable pid then .idle else .clear))
  | .clear => some (if ok then s.openPidFile p else s.setPoint p .idle)
  | .opened inode => some (s.writePid p inode)
  | .written => some (s.setPoint p (if ok then .started else .removing))
  | .removing => some (s.setPoint p (if s.file.isSome then .unlinking else .idle))
  | .unlinking => some ({ s with file := if ok then none else s.file }.setPoint p .idle)
  | .started => none

def step (s : RuntimeDir) : StartLabel → Option RuntimeDir
  | .launch p =>
      if 0 < p ∧ p < 2 ^ 31 ∧ p ∉ s.live ∧ s.signalable p = false then
        some ({ s with live := p :: s.live, signalable := Function.update s.signalable p true }.setPoint p .idle)
      else none
  | .exit p => if p ∈ s.live then some { s with live := s.live.filter (· ≠ p) } else none
  | .other pid used =>
      if ∀ p ∈ s.live, (p : Int) ≠ pid then some { s with signalable := Function.update s.signalable pid used } else none
  | .advance p ok => if p ∈ s.live then s.advance p ok else none

/-- Every interleaving, from any PID file and any set of foreign pids. -/
def system (file : Option ByteString) (others : Int → Bool) : System RuntimeDir StartLabel where
  init := { file := file.map (⟨0, ·⟩), inodes := 1, signalable := others, live := [], point := fun _ => .idle }
  step := step

end RuntimeDir

/-! ### Between the look and the write -/

/-- The process has opened the PID file for writing and has not given up. -/
def StartPoint.Holds : StartPoint → Prop
  | .opened _ | .written | .removing | .unlinking | .started => True
  | _ => False

def StartPoint.Opened : StartPoint → Prop
  | .opened _ => True
  | _ => False

instance (point : StartPoint) : Decidable point.Holds :=
  match point with
  | .opened _ | .written | .removing | .unlinking | .started => isTrue trivial
  | .idle | .found | .testing _ | .clear => isFalse id

instance (point : StartPoint) : Decidable point.Opened :=
  match point with
  | .opened _ => isTrue trivial
  | .idle | .found | .testing _ | .clear | .written | .removing | .unlinking | .started => isFalse id

/-- What the process has seen of the PID file lets it go on. -/
def StartPoint.Passing (signalable : Int → Bool) : StartPoint → Prop
  | .clear => True
  | .testing pid => signalable pid = false
  | _ => False

instance (signalable : Int → Bool) (point : StartPoint) : Decidable (point.Passing signalable) :=
  match point with
  | .clear => isTrue trivial
  | .testing pid => inferInstanceAs (Decidable (signalable pid = false))
  | .idle | .found | .opened _ | .written | .removing | .unlinking | .started => isFalse id

namespace RuntimeDir

/-- No two processes are between the look and the write at the same time: nobody reads the file while another process has it open, nobody opens it after another one has seen it and goes on, and while one has it, no pid that was read and not yet tested becomes free. -/
def Undisturbed (s : RuntimeDir) : StartLabel → Prop
  | .advance p ok =>
      (s.point p = .found → ∀ q ∈ s.live, q ≠ p → ¬ (s.point q).Opened) ∧
        (s.point p = .clear → ok = true → ∀ q ∈ s.live, q ≠ p → ¬ (s.point q).Passing s.signalable)
  | .other pid used =>
      used = false → (∃ q ∈ s.live, s.point q = .testing pid) → ∀ p ∈ s.live, ¬ (s.point p).Holds
  | _ => True

instance (s : RuntimeDir) : (label : StartLabel) → Decidable (s.Undisturbed label)
  | .advance p ok => inferInstanceAs (Decidable ((s.point p = .found → ∀ q ∈ s.live, q ≠ p → ¬ (s.point q).Opened) ∧
      (s.point p = .clear → ok = true → ∀ q ∈ s.live, q ≠ p → ¬ (s.point q).Passing s.signalable)))
  | .other pid used => inferInstanceAs (Decidable (used = false → (∃ q ∈ s.live, s.point q = .testing pid) →
      ∀ p ∈ s.live, ¬ (s.point p).Holds))
  | .launch _ | .exit _ => isTrue trivial

end RuntimeDir

/-- What a process that has opened the file knows about it. -/
def StartPoint.FileOf (file : Option PidFile) (p : Nat) : StartPoint → Prop
  | .opened inode => file = some ⟨inode, []⟩
  | .written | .removing | .unlinking | .started => file.map PidFile.content = some (pidText p)
  | _ => True

/-- A process that has opened the file is seen by everybody who reads it, once its pid is written. -/
theorem StartPoint.FileOf.readPid {file : Option PidFile} {p : Nat} {point : StartPoint} (hfile : point.FileOf file p)
    (hholds : point.Holds) (hwritten : ¬ point.Opened) (hrange : p < 2 ^ 31) :
    (file.bind fun file => InstrumentServer.readPid file.content) = some (p : Int) := by
  have hcontent : file.map PidFile.content = some (pidText p) := by
    cases point with
    | idle | found | testing | clear => exact hholds.elim
    | opened => exact absurd trivial hwritten
    | written | removing | unlinking | started => exact hfile
  obtain ⟨file, rfl, hpid⟩ := Option.map_eq_some_iff.mp hcontent
  rw [Option.bind_some, hpid, readPid_pidText hrange]

theorem StartPoint.FileOf.isSome {file : Option PidFile} {p : Nat} {point : StartPoint} (hfile : point.FileOf file p)
    (hholds : point.Holds) : file.isSome := by
  cases point with
  | idle | found | testing | clear => exact hholds.elim
  | opened =>
      have hopened : file = _ := hfile
      rw [hopened]
      rfl
  | written | removing | unlinking | started =>
      obtain ⟨file, rfl, -⟩ := Option.map_eq_some_iff.mp hfile
      rfl

theorem StartPoint.Passing.of_signalable {signalable signalable' : Int → Bool} {point : StartPoint}
    (hpassing : point.Passing signalable')
    (hfree : ∀ pid, point = .testing pid → signalable' pid = false → signalable pid = false) :
    point.Passing signalable := by
  cases point with
  | testing pid => exact hfree pid rfl hpassing
  | clear => trivial
  | idle | found | opened | written | removing | unlinking | started => exact hpassing.elim

namespace RuntimeDir

structure StartInv (s : RuntimeDir) : Prop where
  range : ∀ p ∈ s.live, p < 2 ^ 31
  signal : ∀ p ∈ s.live, s.signalable p = true
  file : ∀ p ∈ s.live, (s.point p).FileOf s.file p
  /-- while one process has the file, no other one has it or is about to open it -/
  alone : ∀ p ∈ s.live, (s.point p).Holds →
    ∀ q ∈ s.live, q ≠ p → ¬ (s.point q).Holds ∧ ¬ (s.point q).Passing s.signalable

variable {s t : RuntimeDir} {p : Nat}

namespace StartInv

theorem init (file : Option ByteString) (others : Int → Bool) : StartInv (system file others).init where
  range := by simp [system]
  signal := by simp [system]
  file := by simp [system]
  alone := by simp [system]

/-- One process moves, and the file is changed only if no other process has it. -/
theorem move (h : StartInv s) (hp : p ∈ s.live) {file : Option PidFile} {next : StartPoint} (inodes : Nat)
    (hfile : next.FileOf file p) (hkept : file ≠ s.file → ∀ q ∈ s.live, q ≠ p → ¬ (s.point q).Holds)
    (hholds : next.Holds → ∀ q ∈ s.live, q ≠ p → ¬ (s.point q).Holds ∧ ¬ (s.point q).Passing s.signalable)
    (hpassing : next.Passing s.signalable → ∀ q ∈ s.live, q ≠ p → ¬ (s.point q).Holds) :
    StartInv ({ s with file, inodes }.setPoint p next) := by
  have hself : Function.update s.point p next p = next := Function.update_self ..
  have hother : ∀ {q : Nat}, q ≠ p → Function.update s.point p next q = s.point q := fun hq => Function.update_of_ne hq ..
  refine ⟨h.range, h.signal, fun q hq => ?_, fun q hq hqholds r hr hne => ?_⟩
  · show (Function.update s.point p next q).FileOf file q
    by_cases hqp : q = p
    · rw [hqp, hself]
      exact hfile
    · rw [hother hqp]
      by_cases hsame : file = s.file
      · rw [hsame]
        exact h.file q hq
      · have hnot := hkept hsame q hq hqp
        cases hpoint : s.point q with
        | idle | found | testing | clear => trivial
        | opened | written | removing | unlinking | started =>
            rw [hpoint] at hnot
            exact absurd trivial hnot
  · change (Function.update s.point p next q).Holds at hqholds
    show ¬ (Function.update s.point p next r).Holds ∧ ¬ (Function.update s.point p next r).Passing s.signalable
    by_cases hqp : q = p
    · subst hqp
      rw [hself] at hqholds
      rw [hother hne]
      exact hholds hqholds r hr hne
    · rw [hother hqp] at hqholds
      by_cases hrp : r = p
      · rw [hrp, hself]
        exact ⟨fun hnext => (hholds hnext q hq hqp).1 hqholds, fun hnext => hpassing hnext q hq hqp hqholds⟩
      · rw [hother hrp]
        exact h.alone q hq hqholds r hr hne

/-- Nobody else has the file when it is missing, or read by a process and found without a live pid. -/
theorem look (h : StartInv s) (hp : p ∈ s.live) {next : StartPoint} (hholds : ¬ next.Holds)
    (hpassing : next.Passing s.signalable → ∀ q ∈ s.live, q ≠ p → ¬ (s.point q).Holds) :
    StartInv (s.setPoint p next) := by
  refine h.move hp s.inodes ?_ (fun hfile => absurd rfl hfile) (fun hnext => absurd hnext hholds) hpassing
  cases next with
  | idle | found | testing | clear => trivial
  | opened | written | removing | unlinking | started => exact absurd trivial hholds

/-- A process that has the file goes on with it. -/
theorem keep (h : StartInv s) (hp : p ∈ s.live) (hpoint : (s.point p).Holds) {next : StartPoint}
    (hfile : next.FileOf s.file p) : StartInv (s.setPoint p next) := by
  refine h.move hp s.inodes hfile (fun hfile => absurd rfl hfile) (fun _ => h.alone p hp hpoint) fun _ q hq hne => ?_
  exact (h.alone p hp hpoint q hq hne).1

/-- Nobody else has the file while a process may go on to open it. -/
theorem unheld (h : StartInv s) (hp : p ∈ s.live) (hpassing : (s.point p).Passing s.signalable) :
    ∀ q ∈ s.live, q ≠ p → ¬ (s.point q).Holds := by
  intro q hq hne hholds
  exact (h.alone q hq hholds p hp hne.symm).2 hpassing

/-- The file is opened while nobody else may go on to open it. -/
theorem openPidFile (h : StartInv s) (hp : p ∈ s.live) (hpassing : (s.point p).Passing s.signalable)
    (hothers : ∀ q ∈ s.live, q ≠ p → ¬ (s.point q).Passing s.signalable) : StartInv (s.openPidFile p) := by
  have hopened : ∀ inode inodes, StartInv ({ s with file := some ⟨inode, []⟩, inodes }.setPoint p (.opened inode)) := by
    intro inode inodes
    refine h.move hp inodes rfl (fun _ => h.unheld hp hpassing) (fun _ q hq hne => ?_) fun hnext => hnext.elim
    exact ⟨h.unheld hp hpassing q hq hne, hothers q hq hne⟩
  rw [RuntimeDir.openPidFile]
  split
  · exact hopened _ _
  · exact hopened _ _

theorem advance {ok : Bool} (h : StartInv s) (hp : p ∈ s.live) (hok : s.Undisturbed (.advance p ok))
    (hnext : s.advance p ok = some t) : StartInv t := by
  obtain ⟨hread, hopen⟩ := hok
  rw [RuntimeDir.advance] at hnext
  cases hpoint : s.point p with
  | idle =>
      rw [hpoint] at hnext
      obtain rfl := Option.some.inj hnext
      split
      · exact h.look hp id fun hpassing => hpassing.elim
      · rename_i hnone
        refine h.look hp id fun _ q hq _ hholds => ?_
        exact hnone ((h.file q hq).isSome hholds)
  | found =>
      have hwritten : ∀ q ∈ s.live, q ≠ p → (s.point q).Holds →
          (s.file.bind fun file => readPid file.content) = some (q : Int) := by
        intro q hq hne hholds
        exact (h.file q hq).readPid hholds (hread hpoint q hq hne) (h.range q hq)
      rw [hpoint] at hnext
      dsimp only at hnext
      split at hnext
      · rename_i pid hpid
        obtain rfl := Option.some.inj hnext
        refine h.look hp id fun hpassing q hq hne hholds => ?_
        have hpassing : s.signalable pid = false := hpassing
        obtain rfl : pid = (q : Int) := Option.some.inj (hpid.symm.trans (hwritten q hq hne hholds))
        rw [h.signal q hq] at hpassing
        contradiction
      · rename_i hnone
        obtain rfl := Option.some.inj hnext
        refine h.look hp id fun _ q hq hne hholds => ?_
        rw [hwritten q hq hne hholds] at hnone
        contradiction
  | testing pid =>
      rw [hpoint] at hnext
      obtain rfl := Option.some.inj hnext
      split
      · exact h.look hp id fun hpassing => hpassing.elim
      · rename_i hfree
        refine h.look hp id fun _ => h.unheld hp ?_
        rw [hpoint]
        exact Bool.eq_false_iff.mpr hfree
  | clear =>
      rw [hpoint] at hnext
      obtain rfl := Option.some.inj hnext
      split
      · rename_i hok
        refine h.openPidFile hp ?_ (hopen hpoint hok)
        rw [hpoint]
        trivial
      · exact h.look hp id fun hpassing => hpassing.elim
  | opened inode =>
      have hfile := h.file p hp
      have halone := h.alone p hp
      rw [hpoint] at hnext hfile halone
      obtain rfl := Option.some.inj hnext
      have hfile : s.file = some ⟨inode, []⟩ := hfile
      rw [writePid, hfile]
      refine h.move hp s.inodes ?_ (fun _ q hq hne => (halone trivial q hq hne).1) (fun _ => halone trivial)
        fun hpassing => hpassing.elim
      simp [StartPoint.FileOf]
  | written =>
      have hfile := h.file p hp
      rw [hpoint] at hnext hfile
      obtain rfl := Option.some.inj hnext
      refine h.keep hp (by rw [hpoint]; trivial) ?_
      split
      · exact hfile
      · exact hfile
  | removing =>
      have hfile := h.file p hp
      rw [hpoint] at hnext hfile
      obtain rfl := Option.some.inj hnext
      refine h.keep hp (by rw [hpoint]; trivial) ?_
      split
      · exact hfile
      · trivial
  | unlinking =>
      have halone := h.alone p hp
      rw [hpoint] at hnext halone
      obtain rfl := Option.some.inj hnext
      exact h.move hp s.inodes trivial (fun _ q hq hne => (halone trivial q hq hne).1) (fun hholds => hholds.elim)
        fun hpassing => hpassing.elim
  | started =>
      rw [hpoint] at hnext
      contradiction

theorem launch (h : StartInv s) (hrange : p < 2 ^ 31) (hfresh : p ∉ s.live) :
    StartInv ({ s with live := p :: s.live, signalable := Function.update s.signalable p true }.setPoint p .idle) := by
  have hself : Function.update s.point p .idle p = .idle := Function.update_self ..
  have hother : ∀ {q : Nat}, q ∈ s.live → Function.update s.point p .idle q = s.point q := by
    intro q hq
    apply Function.update_of_ne
    rintro rfl
    exact hfresh hq
  refine ⟨fun q hq => ?_, fun q hq => ?_, fun q hq => ?_, fun q hq hholds r hr hne => ?_⟩
  · rcases List.mem_cons.mp hq with rfl | hq
    · exact hrange
    · exact h.range q hq
  · show Function.update s.signalable (p : Int) true q = true
    rcases List.mem_cons.mp hq with rfl | hq
    · exact Function.update_self ..
    · rw [Function.update_apply, h.signal q hq]
      exact ite_self _
  · show (Function.update s.point p .idle q).FileOf s.file q
    rcases List.mem_cons.mp hq with rfl | hq
    · rw [hself]
      trivial
    · rw [hother hq]
      exact h.file q hq
  · change (Function.update s.point p .idle q).Holds at hholds
    show ¬ (Function.update s.point p .idle r).Holds ∧
      ¬ (Function.update s.point p .idle r).Passing (Function.update s.signalable (p : Int) true)
    rcases List.mem_cons.mp hq with rfl | hq
    · rw [hself] at hholds
      exact hholds.elim
    · rw [hother hq] at hholds
      rcases List.mem_cons.mp hr with rfl | hr
      · rw [hself]
        exact ⟨id, id⟩
      · rw [hother hr]
        refine ⟨(h.alone q hq hholds r hr hne).1, fun hpassing => (h.alone q hq hholds r hr hne).2 ?_⟩
        refine hpassing.of_signalable fun pid _ hfree => ?_
        rw [Function.update_apply] at hfree
        split at hfree
        · contradiction
        · exact hfree

theorem exit (h : StartInv s) : StartInv { s with live := s.live.filter (· ≠ p) } where
  range q hq := h.range q (List.mem_of_mem_filter hq)
  signal q hq := h.signal q (List.mem_of_mem_filter hq)
  file q hq := h.file q (List.mem_of_mem_filter hq)
  alone q hq hholds r hr := h.alone q (List.mem_of_mem_filter hq) hholds r (List.mem_of_mem_filter hr)

theorem other (h : StartInv s) {pid : Int} {used : Bool} (hforeign : ∀ q ∈ s.live, (q : Int) ≠ pid)
    (hok : s.Undisturbed (.other pid used)) :
    StartInv { s with signalable := Function.update s.signalable pid used } where
  range := h.range
  signal q hq := by
    show Function.update s.signalable pid used q = true
    rw [Function.update_of_ne (hforeign q hq)]
    exact h.signal q hq
  file := h.file
  alone q hq hholds r hr hne := by
    refine ⟨(h.alone q hq hholds r hr hne).1, fun hpassing => (h.alone q hq hholds r hr hne).2 ?_⟩
    refine StartPoint.Passing.of_signalable hpassing fun pid' htesting hfree => ?_
    change Function.update s.signalable pid used pid' = false at hfree
    by_cases hpid : pid' = pid
    · subst hpid
      have hused : used = false := by rwa [Function.update_self] at hfree
      exact absurd hholds (hok hused ⟨r, hr, htesting⟩ q hq)
    · rwa [Function.update_of_ne hpid] at hfree

theorem step {label : StartLabel} (h : StartInv s) (hok : s.Undisturbed label) (hnext : s.step label = some t) :
    StartInv t := by
  cases label with
  | launch p =>
      obtain ⟨⟨-, hrange, hfresh, -⟩, hnext⟩ := Option.ite_none_right_eq_some.mp hnext
      obtain rfl := Option.some.inj hnext
      exact h.launch hrange hfresh
  | exit p =>
      obtain ⟨-, hnext⟩ := Option.ite_none_right_eq_some.mp hnext
      obtain rfl := Option.some.inj hnext
      exact h.exit
  | other pid used =>
      obtain ⟨hforeign, hnext⟩ := Option.ite_none_right_eq_some.mp hnext
      obtain rfl := Option.some.inj hnext
      exact h.other hforeign hok
  | advance p ok =>
      obtain ⟨hp, hnext⟩ := Option.ite_none_right_eq_some.mp hnext
      exact h.advance hp hok hnext

end StartInv

/-- At most one live process has started a daemon, and the PID file holds its pid. -/
theorem at_most_one_daemon {file : Option ByteString} {others : Int → Bool}
    (hreach : ReachableWhile (system file others) Undisturbed s) :
    (∀ p ∈ s.live, ∀ q ∈ s.live, s.point p = .started → s.point q = .started → p = q) ∧
      ∀ p ∈ s.live, s.point p = .started → s.file.map PidFile.content = some (pidText p) := by
  have hinv : StartInv s := by
    refine @ReachableWhile.invariant _ _ _ _ StartInv (.init file others) ?_ _ hreach
    intro s t label h hok hnext
    exact h.step hok hnext
  constructor
  · intro p hp q hq hpoint hother
    by_contra hne
    have halone := hinv.alone p hp (by rw [hpoint]; trivial) q hq (Ne.symm hne)
    rw [hother] at halone
    exact halone.1 trivial
  · intro p hp hpoint
    have hfile := hinv.file p hp
    rw [hpoint] at hfile
    exact hfile

/-- The steps of a look that nobody interrupts are `isAlreadyRunning`. -/
theorem look_alone {file : Option ByteString} {others : Int → Bool} (hlive : p ∈ s.live) (hpoint : s.point p = .idle) :
    ∃ n, (system file others).runWhile (fun _ _ => True) s (List.replicate n (.advance p true)) =
      some (s.setPoint p (if isAlreadyRunning s.signalable (s.file.map PidFile.content) then .idle else .clear)) := by
  have hstep : ∀ (t u : RuntimeDir) labels, t.live = s.live → t.advance p true = some u →
      (system file others).runWhile (fun _ _ => True) t (.advance p true :: labels) =
        (system file others).runWhile (fun _ _ => True) u labels := by
    intro t u labels hsame hnext
    have hstep : (system file others).step t (.advance p true) = some u := by
      show t.step (.advance p true) = some u
      rw [RuntimeDir.step, if_pos (hsame ▸ hlive), hnext]
    rw [System.runWhile, if_pos trivial, hstep, Option.bind_some]
  have hself : ∀ next, (s.setPoint p next).point p = next := fun next => Function.update_self ..
  have hagain : ∀ next last, (s.setPoint p next).setPoint p last = s.setPoint p last := by
    intro next last
    simp [setPoint]
  cases hfile : s.file with
  | none =>
      refine ⟨1, ?_⟩
      rw [List.replicate_one, hstep s (s.setPoint p .clear) [] rfl (by simp [RuntimeDir.advance, hpoint, hfile])]
      rfl
  | some file =>
      have hfound : s.advance p true = some (s.setPoint p .found) := by simp [RuntimeDir.advance, hpoint, hfile]
      have hread : (s.setPoint p .found).file = some file := hfile
      cases hpid : readPid file.content with
      | none =>
          have hclear : (s.setPoint p .found).advance p true = some (s.setPoint p .clear) := by
            simp only [RuntimeDir.advance, hself, hread, Option.bind_some, hpid, hagain]
          refine ⟨2, ?_⟩
          show (system _ others).runWhile _ s [.advance p true, .advance p true] = _
          rw [hstep s _ _ rfl hfound, hstep (s.setPoint p .found) _ _ rfl hclear]
          simp [isAlreadyRunning, hpid, System.runWhile]
      | some pid =>
          have htesting : (s.setPoint p .found).advance p true = some (s.setPoint p (.testing pid)) := by
            simp only [RuntimeDir.advance, hself, hread, Option.bind_some, hpid, hagain]
          have htested : (s.setPoint p (.testing pid)).advance p true =
              some (s.setPoint p (if s.signalable pid then .idle else .clear)) := by
            simp only [RuntimeDir.advance, hself, hagain]
            rfl
          refine ⟨3, ?_⟩
          show (system _ others).runWhile _ s [.advance p true, .advance p true, .advance p true] = _
          rw [hstep s _ _ rfl hfound, hstep (s.setPoint p .found) _ _ rfl htesting,
            hstep (s.setPoint p (.testing pid)) _ _ rfl htested]
          simp [isAlreadyRunning, hpid, System.runWhile]

/-! ### Runs -/

/-- Two processes find the PID file of a dead one; the second one reads it after the first one has written. -/
def staleRun : List StartLabel :=
  [.launch 100, .launch 101, .advance 101 true] ++ List.replicate 6 (.advance 100 true) ++
    [.advance 101 true, .advance 101 true]

theorem at_most_one_daemon_staleRun :
    ∃ s, ReachableWhile (system (some (bytes "4242\n")) fun _ => false) Undisturbed s ∧ 100 ∈ s.live ∧ 101 ∈ s.live ∧
      s.point 100 = .started ∧
      (∀ p ∈ s.live, ∀ q ∈ s.live, s.point p = .started → s.point q = .started → p = q) ∧
      ∀ p ∈ s.live, s.point p = .started → s.file.map PidFile.content = some (pidText p) := by
  obtain ⟨s, hreach, hview⟩ := @ReachableWhile.of_any _ _ (system (some (bytes "4242\n")) fun _ => false) Undisturbed _
    staleRun (fun s => (100 ∈ s.live && 101 ∈ s.live) && s.point 100 = .started) (by decide +kernel)
  obtain ⟨⟨hfirst, hsecond⟩, hstarted⟩ : (100 ∈ s.live ∧ 101 ∈ s.live) ∧ s.point 100 = .started := by simpa using hview
  exact ⟨s, hreach, hfirst, hsecond, hstarted, at_most_one_daemon hreach⟩

/-- Both processes see that there is no PID file, and each writes its own. -/
def racingRun : List StartLabel :=
  [.launch 100, .launch 101, .advance 100 true, .advance 101 true] ++ List.replicate 3 (.advance 100 true) ++
    List.replicate 3 (.advance 101 true)

theorem two_daemons_started :
    ∃ s, Reachable (system none fun _ => false) s ∧ 100 ∈ s.live ∧ 101 ∈ s.live ∧ s.point 100 = .started ∧
      s.point 101 = .started ∧ s.file.map PidFile.content = some (pidText 101) := by
  obtain ⟨s, hreach, hview⟩ := @ReachableWhile.of_any _ _ (system none fun _ => false) (fun _ _ => True) _ racingRun
    (fun s => (100 ∈ s.live && 101 ∈ s.live) && (s.point 100 = .started && s.point 101 = .started) &&
      s.file.map PidFile.content = some (pidText 101)) (by decide +kernel)
  obtain ⟨⟨⟨hfirst, hsecond⟩, hstarted, hother⟩, hfile⟩ : ((100 ∈ s.live ∧ 101 ∈ s.live) ∧ s.point 100 = .started ∧
      s.point 101 = .started) ∧ s.file.map PidFile.content = some (pidText 101) := by simpa using hview
  exact ⟨s, hreach, hfirst, hsecond, hstarted, hother, hfile⟩

end RuntimeDir

end InstrumentServer
