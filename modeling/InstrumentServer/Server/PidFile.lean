import InstrumentServer.Lib.Strings

/-!
# The PID file

A started daemon leaves its pid in `server.pid`. Another call of `start()` takes the daemon for running when the file names a pid that signal 0 reaches.
-/

namespace InstrumentServer

open ByteString

/-- What `create_pid_file` writes into the file. -/
def pidText (pid : Nat) : ByteString := decimal pid ++ [10]

/-- `ifs >> pid`. -/
def readPid (content : ByteString) : Option Int := stoi content

theorem readPid_pidText {pid : Nat} (hpid : pid < 2 ^ 31) : readPid (pidText pid) = some (pid : Int) := by
  have hspaces : ∀ b ∈ ([] : ByteString), isSpace b = true := by simp
  have hfeed : ∀ b ∈ ([10] : ByteString), isSpace b = true := by simp [isSpace]
  have hread := stoi_digits hspaces (decimal_ne_nil pid) (fun b => isDigit_of_mem_decimal) hfeed
  rw [ofDecimal_decimal, if_pos hpid] at hread
  exact hread

/-- `is_already_running()`, when nothing happens in between: `signalable` says which pids `kill(pid, 0)` reaches. -/
def isAlreadyRunning (signalable : Int → Bool) (file : Option ByteString) : Bool :=
  match file.bind readPid with
  | some pid => signalable pid
  | none => false

end InstrumentServer
