import PeerPool.Agent.Start

/-! The agent as a process. It takes its settings from its environment, and tells by its exit
code how far it got. There is no transport to the cluster in this library, so the process
never gets past the connection. -/

open PeerPool PeerPool.Agent

namespace PeerPool.Process

/-- The variables that are set. -/
def readEnvironment : IO (Dict String) := do
  let mut found := []
  for name in Settings.variableNames do
    if let some value ← IO.getEnv name then found := (name, value) :: found
  return .ofList found

/-- What a file holds, if it can be read. -/
def readFile? (name : Option String) : IO (Option String) := do
  match name with
  | none => return none
  | some name =>
    try return some (← IO.FS.readFile name)
    catch _ => return none

def label : Level → String
  | .error => "ERROR"
  | .warn => "WARN"
  | .info => "INFO"
  | .debug => "DEBUG"
  | .trace => "TRACE"

/-- The log goes to standard error, without what only matters to who works on the agent. -/
def logLine (level : Level) (text : String) : IO Unit :=
  match level with
  | .debug | .trace => pure ()
  | _ => IO.eprintln s!"{label level} {text}"

def world : Program.World StartReply IO where
  log := logLine
  answer _ := pure false

end PeerPool.Process

def main : IO UInt32 := do
  let environment ← PeerPool.Process.readEnvironment
  let contents ← PeerPool.Process.readFile? (Settings.file? environment.get?)
  match ← (start (Settings.ofEnvironment environment.get? contents)).run PeerPool.Process.world with
  | .ok _ => return 0
  | .error error =>
    PeerPool.Process.logLine .error error.message
    return error.exitCode
