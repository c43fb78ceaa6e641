import PeerPool.Config.Encode
import PeerPool.Pass.Call

/-! Passes: programs that bring what the agent manages in line with a batch of objects,
and that may give up. -/

namespace PeerPool

/-- What is to become of the objects of a batch. -/
inductive Mode where
  /-- They are to be covered. -/
  | add
  /-- They are no longer to be covered. -/
  | remove
  /-- They, and nothing else, are to be covered. -/
  | sync
deriving DecidableEq, Repr, Inhabited

def Mode.write : Mode → String
  | .add => "add"
  | .remove => "remove"
  | .sync => "sync"

/-- Why a pass gave up. -/
inductive PassError where
  | invalidDocument (error : ConfigError)
  | documentStore (error : Cluster.StoreError)
  | serviceStore (error : Cluster.StoreError)
  | registry (error : Provider.Error)
  | missingProviderId (node : String)
  | missingMetadata
deriving DecidableEq, Repr

def PassError.message : PassError → String
  | .invalidDocument error => s!"Couldn't parse the load balancer configuration! Reason: {error.message}"
  | .documentStore error => s!"Couldn't access the load balancer configuration! Reason: {error.message}"
  | .serviceStore error => s!"Couldn't update the service! Reason: {error.message}"
  | .registry error => s!"Couldn't retrieve IP reservations! Reason: {error.message}"
  | .missingProviderId node => s!"Node '{node}' has no provider ID!"
  | .missingMetadata => "Object is missing its name or namespace!"

abbrev Pass (α : Type) := ExceptT PassError (Program Call.Answer) α

namespace Pass

/-- The answer to a call, be it good or bad. -/
def ask (call : Call) : Pass call.Answer := ExceptT.lift (.request call)

def say (level : Level) (text : String) : Pass Unit := ExceptT.lift (.log level text)

def info (text : String) : Pass Unit := say .info text

def debug (text : String) : Pass Unit := say .debug text

def warn (text : String) : Pass Unit := say .warn text

/-- Gives up on a bad answer. -/
def check {ε α : Type} (wrap : ε → PassError) : Except ε α → Pass α
  | .ok value => pure value
  | .error error => throw (wrap error)

end Pass

end PeerPool
