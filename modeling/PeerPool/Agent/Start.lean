import PeerPool.Http.Backend
import PeerPool.Settings.Sources

/-! How the agent starts. It needs settings, a connection to the cluster and the API of the
provider, in this order, and gives up on the first that it cannot have. -/

namespace PeerPool.Agent

inductive StartError where
  | settings (error : SettingsError)
  | cluster
  | provider (error : Provider.Error)
deriving DecidableEq, Repr

namespace StartError

def message : StartError → String
  | .settings error => s!"Couldn't load settings! {error.message}"
  | .cluster => "Couldn't create client! The cluster is out of reach"
  | .provider error => s!"Couldn't create the Equinix Metal client! {error.message}"

/-- Tells the failed steps apart to whoever started the process. -/
def exitCode : StartError → UInt32
  | .cluster => 6
  | .settings _ => 7
  | .provider _ => 8

end StartError

/-- What the agent asks for when it starts. -/
inductive StartRequest where
  /-- Whether there is a connection to the cluster. -/
  | connect
deriving DecidableEq, Repr

abbrev StartReply (_ : StartRequest) : Type := Bool

/-- What the loops of the agent run with. -/
structure Started where
  settings : Settings
  backend : Http.Backend
deriving DecidableEq, Repr

def start (settings : Except SettingsError Settings) : Program StartReply (Except StartError Started) := do
  match settings with
  | .error error => return .error (.settings error)
  | .ok settings =>
    Program.log .info s!"Starting with:\n{settings.write}"
    if ← Program.request .connect then
      match Http.Backend.of settings with
      | .ok backend => return .ok ⟨settings, backend⟩
      | .error error => return .error (.provider error)
    else return .error .cluster

end PeerPool.Agent
