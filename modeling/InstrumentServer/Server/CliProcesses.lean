import InstrumentServer.Server.CommandLine
import InstrumentServer.Server.RegistryAtomicity

/-!
# One server or many processes

The documentation describes one server: `start` adds an instrument to it, `list` and `status` show it, `stop` and `daemon stop` take it away, and after `daemon stop` no daemon is running. `Throughout` runs this server, as far as the invocations of the command line determine it, beside a log of them.

What there is instead is a process for each invocation. The instrument that `start` creates ends with the process that created it, and `daemon stop` stops the daemon object of its own process, which never ran. So the two levels agree exactly as long as nobody looks: `cli_refines_iff`.
-/

namespace InstrumentServer

open Transition

/-- What the processes of one user share. -/
structure Host where
  pidFile : Option ByteString
  signalable : Int → Bool
  /-- the processes that wait in `daemon start` -/
  daemons : List Nat := []

/-- One invocation as an observer notes it. -/
structure Invocation where
  args : List ByteString
  ended : MainEnd
  /-- the instruments in the registry when `main` was left -/
  instruments : List ByteString
  /-- `is_already_running()` before and after -/
  runningBefore : Bool
  runningAfter : Bool

inductive HostLabel where
  | invoke (args : List ByteString) (env : CliSurroundings)
  /-- a daemon ends, with its PID file removed or not -/
  | daemonEnds (pid : Nat) (removed : Bool)
  /-- a pid that no daemon has comes into use or is free again -/
  | other (pid : Int) (used : Bool)

namespace Host

def isAlreadyRunning (h : Host) : Bool := InstrumentServer.isAlreadyRunning h.signalable h.pidFile

/-- The new process can be reached by signals. -/
def surroundings (h : Host) (env : CliSurroundings) : CliSurroundings :=
  { env with daemon := { env.daemon with signalable := Function.update h.signalable env.daemon.pid true } }

/-- `main` with the objects of a new process. -/
def main (N : JsonLibrary) (Y : YamlLibrary) (h : Host) (args : List ByteString) (env : CliSurroundings) :
    ServerDaemon × MainEnd :=
  CommandLine.main N Y (h.surroundings env) { pidFile := h.pidFile } args

/-- The process ends, with the destructor of its daemon object, or stays. -/
def leave (h : Host) (env : CliSurroundings) : ServerDaemon × MainEnd → Host
  | (d, .exited _) => { h with pidFile := (d.stop (h.surroundings env).daemon .anotherThread).1.pidFile }
  | (d, .blocked) =>
      { pidFile := d.pidFile
        signalable := Function.update h.signalable env.daemon.pid true
        daemons := env.daemon.pid :: h.daemons }
  | (d, .aborted) => { h with pidFile := d.pidFile }

def step (N : JsonLibrary) (Y : YamlLibrary) (h : Host) : HostLabel → Option Host
  | .invoke args env =>
      if 0 < env.daemon.pid ∧ env.daemon.pid < 2 ^ 31 ∧ h.signalable env.daemon.pid = false then
        some (h.leave env (h.main N Y args env))
      else none
  | .daemonEnds pid removed =>
      if pid ∈ h.daemons then
        some
          { pidFile := if removed then none else h.pidFile
            signalable := Function.update h.signalable pid false
            daemons := h.daemons.filter (· ≠ pid) }
      else none
  | .other pid used =>
      if ∀ p ∈ h.daemons, (p : Int) ≠ pid then some { h with signalable := Function.update h.signalable pid used }
      else none

def note (N : JsonLibrary) (Y : YamlLibrary) (h : Host) (label : HostLabel) (h' : Host) : List Invocation :=
  match label with
  | .invoke args env =>
      [{ args
         ended := (h.main N Y args env).2
         instruments := (h.main N Y args env).1.registry.instruments.map Prod.fst
         runningBefore := h.isAlreadyRunning
         runningAfter := h'.isAlreadyRunning }]
  | _ => []

/-- Every sequence of invocations, from any PID file and any set of pids in use. -/
def system (N : JsonLibrary) (Y : YamlLibrary) (pidFile : Option ByteString) (signalable : Int → Bool) :
    System (Host × List Invocation) HostLabel :=
  ({ init := { pidFile, signalable }, step := step N Y } : System Host HostLabel).logged (note N Y)

end Host

/-! ### The documented server -/

namespace Invocation

def exitCode (e : Invocation) : Option Nat :=
  match e.ended with
  | .exited output => some output.code
  | _ => none

def stdout (e : Invocation) : List ByteString :=
  match e.ended with
  | .exited output => output.stdout
  | _ => []

/-- `list`, or `status` of this instrument. -/
def Asks (e : Invocation) (name : ByteString) : Prop :=
  e.args.head? = some (bytes "list") ∨ e.args.take 2 = [bytes "status", name]

/-- The line that `list` or `status` has for an instrument. -/
def Shows (e : Invocation) (name : ByteString) : Prop :=
  bytes "  " ++ name ∈ e.stdout ∨ bytes "Instrument: " ++ name ∈ e.stdout

def StopsDaemon (e : Invocation) : Prop := e.args.take 2 = [bytes "daemon", bytes "stop"]

instance (e : Invocation) : Decidable e.StopsDaemon :=
  inferInstanceAs (Decidable (e.args.take 2 = [bytes "daemon", bytes "stop"]))

/-- What an invocation does to the instruments of the documented server. -/
def apply (e : Invocation) (instruments : List ByteString) : List ByteString :=
  if e.args.head? = some (bytes "start") ∧ e.exitCode = some 0 then instruments ++ e.instruments
  else if e.StopsDaemon then []
  else instruments.filter fun name => e.args.take 2 ≠ [bytes "stop", name]

/-- Whoever asks for an instrument that should be there is shown it, and a daemon that was stopped is gone. -/
def AsDocumented (instruments : List ByteString) (e : Invocation) : Prop :=
  (∀ name ∈ instruments, e.Asks name → e.Shows name) ∧ (e.StopsDaemon → e.exitCode = some 0 → e.runningAfter = false)

/-- Nobody asks for an instrument that should be there, or stops a daemon that is running. -/
def Unnoticed (instruments : List ByteString) (e : Invocation) : Prop :=
  (∀ name ∈ instruments, ¬ e.Asks name) ∧ (e.StopsDaemon → e.runningBefore = false)

end Invocation

/-- A condition at every invocation, on the instruments that the documented server has before it. -/
def Throughout (P : List ByteString → Invocation → Prop) : List ByteString → List Invocation → Prop
  | _, [] => True
  | instruments, e :: log => P instruments e ∧ Throughout P (e.apply instruments) log

theorem Throughout.congr {P Q : List ByteString → Invocation → Prop} {log : List Invocation}
    (hiff : ∀ instruments, ∀ e ∈ log, P instruments e ↔ Q instruments e) (instruments : List ByteString) :
    Throughout P instruments log ↔ Throughout Q instruments log := by
  induction log generalizing instruments with
  | nil => exact Iff.rfl
  | cons e log ih =>
      rw [Throughout, Throughout, hiff instruments e List.mem_cons_self]
      rw [ih fun instruments e' he' => hiff instruments e' (List.mem_cons_of_mem e he')]

/-! ### What an invocation can do -/

namespace CommandLine

variable {N : JsonLibrary} {Y : YamlLibrary} {env : CliSurroundings} {file : Option ByteString} {rest : List ByteString}

theorem main_list : main N Y env { pidFile := file } (bytes "list" :: rest) =
    ({ pidFile := file }, .exited { code := 1, stdout := [bytes "No instruments running"] }) := rfl

theorem main_status (name : ByteString) : ∃ error,
    main N Y env { pidFile := file } (bytes "status" :: name :: rest) =
      ({ pidFile := file }, .exited { code := 1, stderr := [error] }) := by
  have hmain : main N Y env { pidFile := file } (bytes "status" :: name :: rest) =
      ({ pidFile := file },
        report printStatus (if name = [] then .failed (bytes "missing name")
          else .failed (bytes "instrument not found"))) := rfl
  rw [hmain]
  split
  · exact ⟨_, rfl⟩
  · exact ⟨_, rfl⟩

/-- What the options of `daemon` leave in the parameters. -/
structure DaemonParams (action : ByteString) (params : List (ByteString × Json)) : Prop where
  action : SortedAssoc.find? (bytes "action") params = some (.string action)
  logLevel : ∀ value, SortedAssoc.find? (bytes "log_level") params = some value → ∃ text, value = .string text
  block : SortedAssoc.find? (bytes "block") params = none

theorem DaemonParams.init (action : ByteString) : DaemonParams action [(bytes "action", .string action)] := by
  refine ⟨rfl, fun value hvalue => ?_, rfl⟩
  have hnone : SortedAssoc.find? (bytes "log_level") [(bytes "action", Json.string action)] = none := rfl
  rw [hnone] at hvalue
  contradiction

theorem DaemonParams.setLogLevel {action text : ByteString} {params : List (ByteString × Json)}
    (h : DaemonParams action params) : DaemonParams action (Json.set params (bytes "log_level") (.string text)) := by
  refine ⟨?_, fun value hvalue => ?_, ?_⟩
  · rw [Json.set, SortedAssoc.find?_insert, if_neg (by decide)]
    exact h.action
  · rw [Json.set, SortedAssoc.find?_insert_self] at hvalue
    exact ⟨text, (Option.some.inj hvalue).symm⟩
  · rw [Json.set, SortedAssoc.find?_insert, if_neg (by decide)]
    exact h.block

theorem DaemonParams.parseOptions {action : ByteString} {params : List (ByteString × Json)}
    (h : DaemonParams action params) (options : List ByteString) :
    DaemonParams action (CommandLine.parseOptions daemonOptions params options) := by
  induction params, options using CommandLine.parseOptions.induct daemonOptions with
  | case1 params => exact h
  | case2 params arg => exact h
  | case3 params arg value rest key hkey ih =>
      obtain rfl : key = bytes "log_level" := by
        rw [daemonOptions, List.lookup_cons] at hkey
        split at hkey
        · exact (Option.some.inj hkey).symm
        · contradiction
      rw [CommandLine.parseOptions, hkey]
      exact ih h.setLogLevel
  | case4 params arg value rest hkey ih =>
      rw [CommandLine.parseOptions, hkey]
      exact ih h

theorem handleDaemon_stop {caller : CallingThread} {d : ServerDaemon} {env : DaemonSurroundings}
    {params : List (ByteString × Json)} (h : DaemonParams (bytes "stop") params) :
    handleDaemon env caller d (.object params) = d.handleStop env caller := by
  cases hlevel : SortedAssoc.find? (bytes "log_level") params with
  | none =>
      simp only [handleDaemon, Json.value, h.action, h.block, hlevel, Option.elim_none, Option.elim_some, Json.getString]
      rfl
  | some value =>
      obtain ⟨text, rfl⟩ := h.logLevel value hlevel
      simp only [handleDaemon, Json.value, h.action, h.block, hlevel, Option.elim_none, Option.elim_some, Json.getString]
      rfl

/-- The daemon object of the process is not running, so there is nothing to stop. -/
theorem main_daemonStop (options : List ByteString) : ∃ output,
    main N Y env { pidFile := file } (bytes "daemon" :: bytes "stop" :: options) =
      ({ pidFile := file }, .exited output) ∧ output.code = 0 := by
  have hparams := (DaemonParams.init (bytes "stop")).parseOptions options
  have hmain : main N Y env { pidFile := file } (bytes "daemon" :: bytes "stop" :: options) =
      Prod.map id (report printDaemon) (handleDaemon env.daemon .anotherThread { pidFile := file }
        (.object (parseOptions daemonOptions [(bytes "action", .string (bytes "stop"))] options))) := rfl
  rw [hmain, handleDaemon_stop hparams, ServerDaemon.handleStop]
  by_cases hrunning : isAlreadyRunning env.daemon.signalable file = true
  · rw [if_pos hrunning]
    exact ⟨{ code := 0 }, rfl, rfl⟩
  · rw [if_neg hrunning]
    exact ⟨{ code := 0, stdout := [bytes "daemon not running"] }, rfl, rfl⟩

end CommandLine

/-- What is true of every invocation. -/
structure Invocation.Local (e : Invocation) : Prop where
  unseen : ∀ name, e.Asks name → ¬ e.Shows name
  unstopped : e.StopsDaemon → e.exitCode = some 0 ∧ e.runningAfter = e.runningBefore

namespace Host

variable {N : JsonLibrary} {Y : YamlLibrary} {h h' : Host}

theorem eq_cons_of_take {args : List ByteString} {first second : ByteString} (htake : args.take 2 = [first, second]) :
    ∃ rest, args = first :: second :: rest := by
  refine ⟨args.drop 2, ?_⟩
  have happend := List.take_append_drop 2 args
  rw [htake] at happend
  exact happend.symm

/-- A process that asks for instruments has none to show. -/
theorem not_shows_of_asks {e : Invocation} {env : CliSurroundings} {name : ByteString}
    (hended : e.ended = (h.main N Y e.args env).2) (hasks : e.Asks name) : ¬ e.Shows name := by
  obtain ⟨args, ended, instruments, before, after⟩ := e
  obtain rfl : ended = (h.main N Y args env).2 := hended
  rw [Invocation.Shows, Invocation.stdout]
  rcases hasks with hlist | hstatus
  · obtain ⟨rest, rfl⟩ : ∃ rest, args = bytes "list" :: rest := by
      cases args with
      | nil => contradiction
      | cons command rest => exact ⟨rest, by rw [Option.some.inj hlist]⟩
    rw [Host.main, CommandLine.main_list]
    -- the only line begins neither with a space nor with an I
    rintro (hmem | hmem)
    · have hfirst : some (32 : UInt8) = some 78 := congrArg List.head? (List.mem_singleton.mp hmem)
      exact absurd hfirst (by decide)
    · have hfirst : some (73 : UInt8) = some 78 := congrArg List.head? (List.mem_singleton.mp hmem)
      exact absurd hfirst (by decide)
  · obtain ⟨rest, rfl⟩ := eq_cons_of_take hstatus
    obtain ⟨error, hmain⟩ := @CommandLine.main_status N Y (h.surroundings env) h.pidFile rest name
    rw [Host.main, hmain]
    rintro (hmem | hmem) <;> contradiction

/-- `daemon stop` reports success and leaves everything as it was. -/
theorem daemonStop_leaves {args : List ByteString} {env : CliSurroundings}
    (hstops : args.take 2 = [bytes "daemon", bytes "stop"]) :
    (∃ output, (h.main N Y args env).2 = .exited output ∧ output.code = 0) ∧ h.leave env (h.main N Y args env) = h := by
  obtain ⟨options, rfl⟩ := eq_cons_of_take hstops
  obtain ⟨output, hmain, hcode⟩ := @CommandLine.main_daemonStop N Y (h.surroundings env) h.pidFile options
  rw [Host.main, hmain]
  exact ⟨⟨output, rfl, hcode⟩, rfl⟩

theorem note_local {label : HostLabel} (hnext : h.step N Y label = some h') :
    ∀ e ∈ h.note N Y label h', e.Local := by
  intro e he
  cases label with
  | daemonEnds pid removed => contradiction
  | other pid used => contradiction
  | invoke args env =>
      obtain ⟨-, hnext⟩ := Option.ite_none_right_eq_some.mp hnext
      obtain rfl := Option.some.inj hnext
      obtain rfl := List.mem_singleton.mp he
      refine ⟨fun name hasks => not_shows_of_asks rfl hasks, fun hstops => ?_⟩
      obtain ⟨⟨output, hended, hcode⟩, hleave⟩ := @daemonStop_leaves N Y h args env hstops
      refine ⟨?_, ?_⟩
      · simp only [Invocation.exitCode, hended, hcode]
      · show (h.leave env (h.main N Y args env)).isAlreadyRunning = h.isAlreadyRunning
        rw [hleave]

theorem local_of_reachable {pidFile : Option ByteString} {signalable : Int → Bool} {s : Host × List Invocation}
    (hreach : Reachable (system N Y pidFile signalable) s) : ∀ e ∈ s.2, e.Local := by
  refine (@ReachableWhile.logged _ _ _ _ (note N Y) (fun _ _ => True) (fun _ => True) (fun _ log => ∀ e ∈ log, e.Local)
    (fun _ _ => trivial) (by simp) ?_ _ hreach).2
  intro s t label log _ hlog _ hnext e he
  rcases List.mem_append.mp he with hold | hnew
  · exact hlog e hold
  · exact note_local hnext e hnew

/-- The processes behave like the documented server in the runs where nobody notices the difference, and in no others. -/
theorem cli_refines_iff {pidFile : Option ByteString} {signalable : Int → Bool} {s : Host × List Invocation}
    (hreach : Reachable (system N Y pidFile signalable) s) :
    Throughout Invocation.AsDocumented [] s.2 ↔ Throughout Invocation.Unnoticed [] s.2 := by
  apply Throughout.congr
  intro instruments e he
  obtain ⟨hunseen, hunstopped⟩ := local_of_reachable hreach e he
  constructor
  · rintro ⟨hshown, hstopped⟩
    refine ⟨fun name hname hasks => hunseen name hasks (hshown name hname hasks), fun hstops => ?_⟩
    obtain ⟨hcode, hsame⟩ := hunstopped hstops
    rw [← hsame]
    exact hstopped hstops hcode
  · rintro ⟨hunasked, hidle⟩
    refine ⟨fun name hname hasks => absurd hasks (hunasked name hname), fun hstops _ => ?_⟩
    rw [(hunstopped hstops).2]
    exact hidle hstops

end Host

/-! ### Runs -/

instance (e : Invocation) (name : ByteString) : Decidable (e.Asks name) :=
  inferInstanceAs (Decidable (e.args.head? = some (bytes "list") ∨ e.args.take 2 = [bytes "status", name]))

instance (e : Invocation) (instruments : List ByteString) : Decidable (e.Unnoticed instruments) :=
  inferInstanceAs (Decidable ((∀ name ∈ instruments, ¬ e.Asks name) ∧ (e.StopsDaemon → e.runningBefore = false)))

instance decidableThroughout {P : List ByteString → Invocation → Prop} [∀ instruments e, Decidable (P instruments e)] :
    (instruments : List ByteString) → (log : List Invocation) → Decidable (Throughout P instruments log)
  | _, [] => isTrue trivial
  | instruments, e :: log =>
      @instDecidableAnd _ _ _ (decidableThroughout (e.apply instruments) log)

namespace Host

/-- An invocation in the laboratory of the meter, as process `pid`. -/
def invocation (pid : Nat) (args : List ByteString) : HostLabel :=
  .invoke args
    { daemon := { pid, signalable := fun _ => false }
      start := { toSurroundings := InstrumentRegistry.meterLab .started }
      proxies := fun _ => (true, {})
      others := fun _ => { code := 0 } }

/-- The meter is started and stopped before anybody lists the instruments, and the daemon has ended when it is stopped. -/
def unnoticedRun : List HostLabel :=
  [invocation 100 [bytes "daemon", bytes "start"], invocation 101 [bytes "start", bytes "/lab/dmm.yml"],
    invocation 102 [bytes "stop", bytes "dmm"], invocation 103 [bytes "list"], .daemonEnds 100 false,
    invocation 104 [bytes "daemon", bytes "stop"]]

theorem cli_refines_unnoticedRun :
    ∃ s, Reachable (system .compact .textOnly none fun _ => false) s ∧
      s.2.map Invocation.exitCode = [none, some 0, some 1, some 1, some 0] ∧
      Throughout Invocation.AsDocumented [] s.2 := by
  obtain ⟨s, hreach, hview⟩ := @ReachableWhile.of_any _ _ (system .compact .textOnly none fun _ => false)
    (fun _ _ => True) _ unnoticedRun
    (fun s => s.2.map Invocation.exitCode = [none, some 0, some 1, some 1, some 0] &&
      Throughout Invocation.Unnoticed [] s.2) (by decide +kernel)
  obtain ⟨hcodes, hunnoticed⟩ : s.2.map Invocation.exitCode = [none, some 0, some 1, some 1, some 0] ∧
      Throughout Invocation.Unnoticed [] s.2 := by simpa using hview
  exact ⟨s, hreach, hcodes, (cli_refines_iff hreach).mpr hunnoticed⟩

/-- The workflow of the documentation: start the daemon and an instrument, list the instruments, stop the daemon. -/
def documentedWorkflow : List HostLabel :=
  [invocation 100 [bytes "daemon", bytes "start"], invocation 101 [bytes "start", bytes "/lab/dmm.yml"],
    invocation 102 [bytes "list"], invocation 103 [bytes "daemon", bytes "stop"]]

/-- `start` reports success and `list` shows nothing, `daemon stop` reports success and the daemon is running. -/
theorem documentedWorkflow_fails :
    ∃ s first started listed stopped, Reachable (system .compact .textOnly none fun _ => false) s ∧
      s.2 = [first, started, listed, stopped] ∧ started.exitCode = some 0 ∧ started.instruments = [bytes "dmm"] ∧
      listed.args = [bytes "list"] ∧ ¬ listed.Shows (bytes "dmm") ∧
      stopped.args = [bytes "daemon", bytes "stop"] ∧ stopped.exitCode = some 0 ∧ stopped.runningAfter = true ∧
      ¬ Throughout Invocation.AsDocumented [] s.2 := by
  obtain ⟨⟨h, log⟩, hreach, hview⟩ := @ReachableWhile.of_any _ _ (system .compact .textOnly none fun _ => false)
    (fun _ _ => True) _ documentedWorkflow
    (fun s => s.2.map (fun e => (e.args, e.exitCode, e.instruments, e.runningAfter)) =
      [([bytes "daemon", bytes "start"], none, [], true),
        ([bytes "start", bytes "/lab/dmm.yml"], some 0, [bytes "dmm"], true),
        ([bytes "list"], some 1, [], true), ([bytes "daemon", bytes "stop"], some 0, [], true)])
    (by decide +kernel)
  have hviews := of_decide_eq_true hview
  obtain ⟨first, rest, rfl, -, hviews⟩ := List.map_eq_cons_iff.mp hviews
  obtain ⟨started, rest, rfl, hstarted, hviews⟩ := List.map_eq_cons_iff.mp hviews
  obtain ⟨listed, rest, rfl, hlisted, hviews⟩ := List.map_eq_cons_iff.mp hviews
  obtain ⟨stopped, rest, rfl, hstopped, hviews⟩ := List.map_eq_cons_iff.mp hviews
  obtain rfl := List.map_eq_nil_iff.mp hviews
  simp only [Prod.mk.injEq] at hstarted hlisted hstopped
  obtain ⟨-, hstartCode, hinstruments, -⟩ := hstarted
  obtain ⟨hstopArgs, hstopCode, -, hrunning⟩ := hstopped
  refine ⟨_, first, started, listed, stopped, hreach, rfl, hstartCode, hinstruments, hlisted.1, ?_, hstopArgs, hstopCode,
    hrunning, ?_⟩
  · exact (local_of_reachable hreach listed (by simp)).unseen _ (Or.inl (by rw [hlisted.1]; rfl))
  · rintro ⟨-, -, -, ⟨-, hgone⟩, -⟩
    have hgone := hgone (by rw [Invocation.StopsDaemon, hstopArgs]; rfl) hstopCode
    rw [hrunning] at hgone
    contradiction

end Host

end InstrumentServer
