import PeerPool.Agent.Basic
import PeerPool.Agent.PeeredNodes
import PeerPool.Pass.Nodes
import PeerPool.Pass.Services

/-! The loops of the agent: one that follows the nodes, one that follows the services, and
one that brings everything in line from time to time. -/

namespace PeerPool.Agent

open Cluster (Node Service)

variable (settings : Settings)

def runNodes (mode : Mode) (nodes : List Node) : Program Reply Unit :=
  runPass (fun error => s!"Node reconciliation ({mode.write}) failed, will retry later! {error.message}")
    (Pass.nodes settings mode nodes)

def runServices (mode : Mode) (services : List Service) : Program Reply Unit :=
  runPass (fun error => s!"Service reconciliation ({mode.write}) failed, will retry later! {error.message}")
    (Pass.services settings mode services)

def onNodeEvent (peered : PeeredNodes) : WatchEvent Node → Program Reply PeeredNodes
  | .applied node => do
    let (needed, peered) := peered.applied node
    if needed then runNodes settings .add [node]
    return peered
  | .deleted node => do
    runNodes settings .remove [node]
    return peered.deleted node
  | .restarted nodes => do
    Program.log .debug s!"Node watch (re)started with {nodes.length} node(s)"
    runNodes settings .sync nodes
    return .restarted nodes
  | .failed code => do
    Program.log .warn s!"Node watch failed! Status {code}"
    ask (.sleep retryDelay)
    return peered

def nodeLoop : Loop where
  State := PeeredNodes
  start := pure {}
  round peered := do onNodeEvent settings peered (← ask .nodeEvent)

def onServiceEvent : WatchEvent Service → Program Reply Unit
  | .applied service => runServices settings .add [service]
  | .deleted service => runServices settings .remove [service]
  | .restarted services => do
    Program.log .debug s!"Service watch (re)started with {services.length} service(s)"
    runServices settings .sync services
  | .failed code => do
    Program.log .warn s!"Service watch failed! Status {code}"
    ask (.sleep retryDelay)

def serviceLoop : Loop where
  State := Unit
  start := pure ()
  round _ := do onServiceEvent settings (← ask .serviceEvent)

/-- Brings the nodes and then the services in line with what is listed now. -/
def resync : Program Reply Unit := do
  Program.log .info "Running periodic resync..."
  match ← ask .listNodes with
  | .ok nodes => runNodes settings .sync nodes
  | .error code => Program.log .warn s!"Couldn't list nodes for resync! Status {code}"
  match ← ask .listServices with
  | .ok services => runServices settings .sync services
  | .error code => Program.log .warn s!"Couldn't list services for resync! Status {code}"

/-- The watches sync when they start, so the first resync is a whole period later. -/
def resyncLoop : Loop where
  State := Unit
  start := ask .tick
  round _ := do
    resync settings
    ask .tick

/-- All that the agent does once it has started. -/
def loops : List Loop := [nodeLoop settings, serviceLoop settings, resyncLoop settings]

end PeerPool.Agent
