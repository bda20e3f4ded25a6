import InstrumentServer.Server.CommandHandlers
import InstrumentServer.Lib.Transition

/-!
# The command line

`instrument-server <command> …` is a process of its own. Its `main` calls a command handler, on the daemon object and the registry of this process, prints what the handler gives, and returns; the objects end with the process. A `daemon start` that succeeds does not return. The processes have only the PID file in common.
-/

namespace InstrumentServer

/-- What a process prints and returns. -/
structure CliOutput where
  code : Nat
  stdout : List ByteString := []
  stderr : List ByteString := []
deriving DecidableEq

inductive MainEnd where
  | exited (output : CliOutput)
  /-- `daemon start` waits while the daemon is running -/
  | blocked
  /-- an exception that nobody catches -/
  | aborted
deriving DecidableEq

/-- What an invocation finds around it. `proxies` says what `status` learns from a proxy; `others` is the outcome of the commands that use neither the daemon object nor the PID file. -/
structure CliSurroundings where
  daemon : DaemonSurroundings
  start : StartSurroundings
  proxies : ByteString → Bool × ProxyStats
  others : List ByteString → CliOutput

namespace CommandLine

/-- A text field of a handler's answer. -/
def textField (out : Json) (key : ByteString) : Option ByteString :=
  if out.contains key then (out.field key >>= Json.getString).toOption else none

/-- The options behind the positional arguments: each name in `options` takes the argument after it, under its key. -/
def parseOptions (options : List (ByteString × ByteString)) (params : List (ByteString × Json)) :
    List ByteString → List (ByteString × Json)
  | [] | [_] => params
  | arg :: value :: rest =>
      match options.lookup arg with
      | some key => parseOptions options (Json.set params key (.string value)) rest
      | none => parseOptions options params (value :: rest)

/-- A handler that came back is printed; an exception ends the process. -/
def report (print : Nat → Json → CliOutput) : HandlerEnd → MainEnd
  | .returned rc out => .exited (print rc out)
  | .blocked _ => .blocked
  | .jsonError _ | .systemError | .terminated => .aborted

def printDaemon (rc : Nat) (out : Json) : CliOutput :=
  match textField out (bytes "error") with
  | some error => { code := rc, stderr := [error] }
  | none => { code := rc, stdout := (textField out (bytes "message")).toList }

def printStart (rc : Nat) (out : Json) : CliOutput where
  code := rc
  stdout := (textField out (bytes "instrument")).toList.map (bytes "Started instrument: " ++ ·)
  stderr := (textField out (bytes "error")).toList

def printStop (name : ByteString) (rc : Nat) (out : Json) : CliOutput :=
  match textField out (bytes "error") with
  | some error => { code := rc, stderr := [error] }
  | none => { code := rc, stdout := [bytes "Stopped instrument: " ++ name] }

/-- `Commands sent`, read back as an `int`. -/
def commandsSent (out : Json) : List ByteString :=
  match out.field (bytes "stats") >>= fun stats => stats.value Json.getInt32 (bytes "commands_sent") 0 with
  | .ok sent => [bytes "  Commands sent: " ++ ByteString.decimalInt sent.toInt]
  | .error _ => []

def printStatus (rc : Nat) (out : Json) : CliOutput :=
  match textField out (bytes "error") with
  | some error => { code := rc, stderr := [error] }
  | none =>
      let alive := (out.value Json.getBool (bytes "alive") false).toOption.getD false
      { code := rc
        stdout := [bytes "Instrument: " ++ (textField out (bytes "name")).getD [],
          bytes "  Status: " ++ (if alive then bytes "RUNNING" else bytes "STOPPED")] ++ commandsSent out }

/-- The names of the instruments in the answer of `handle_list`. -/
def listedNames (out : Json) : List ByteString :=
  match out.field (bytes "instruments") with
  | .ok (.array items) => items.filterMap fun item => item.getString.toOption
  | _ => []

def printList (out : Json) : CliOutput :=
  match listedNames out with
  | [] => { code := 1, stdout := [bytes "No instruments running"] }
  | names => { code := 0, stdout := bytes "Running instruments:" :: names.map (bytes "  " ++ ·) }

def daemonOptions : List (ByteString × ByteString) := [(bytes "--log-level", bytes "log_level")]

def startOptions : List (ByteString × ByteString) :=
  [(bytes "--plugin", bytes "plugin"), (bytes "--log-level", bytes "log_level")]

/-- `main`, in a process whose objects are those of `d`. A missing `<config>` is read past the arguments. -/
def main (N : JsonLibrary) (Y : YamlLibrary) (env : CliSurroundings) (d : ServerDaemon) (args : List ByteString) :
    ServerDaemon × MainEnd :=
  match args with
  | [] => (d, .exited { code := 1 })
  | command :: args =>
      if command = bytes "daemon" then
        match args with
        | [] => (d, .exited { code := 1, stderr := [bytes "Usage: instrument-server daemon <start|stop|status>"] })
        | action :: options =>
            let params := .object (parseOptions daemonOptions [(bytes "action", .string action)] options)
            let (d, ended) := handleDaemon env.daemon .anotherThread d params
            (d, report printDaemon ended)
      else if command = bytes "start" then
        match args with
        | [] => (d, .aborted)
        | config :: options =>
            let params := .object (parseOptions startOptions [(bytes "config_path", .string config)] options)
            let (r, ended) := handleStart N Y env.start d.registry params
            ({ d with registry := r }, report printStart ended)
      else if command = bytes "stop" then
        match args with
        | [] => (d, .exited { code := 1, stderr := [bytes "Error: stop requires instrument name",
            bytes "Usage: instrument-server stop <name>"] })
        | name :: _ =>
            let (r, ended) := handleStop d.registry (.object [(bytes "name", .string name)])
            ({ d with registry := r }, report (printStop name) ended)
      else if command = bytes "status" then
        match args with
        | [] => (d, .exited { code := 1, stderr := [bytes "Error: status requires instrument name",
            bytes "Usage: instrument-server status <name>"] })
        | name :: _ =>
            (d, report printStatus (handleStatus env.proxies d.registry (.object [(bytes "name", .string name)])))
      else if command = bytes "list" then (d, report (fun _ out => printList out) (handleList d.registry))
      else (d, .exited (env.others (command :: args)))

end CommandLine

end InstrumentServer
