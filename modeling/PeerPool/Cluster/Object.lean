import PeerPool.Dict
import PeerPool.Json.Basic

/-! The objects of the cluster: its nodes, and the services that ask for addresses. -/

namespace PeerPool.Cluster

/-- What every object may carry. `ns` is its namespace. -/
structure Metadata where
  name : Option String := none
  ns : Option String := none
  resourceVersion : Option String := none
  labels : Option (Dict String) := none
  annotations : Option (Dict String) := none
deriving DecidableEq, Repr, Inhabited

structure Node where
  metadata : Metadata := {}
  /-- What the provider of the machine knows it by. -/
  providerId : Option String := none
deriving DecidableEq, Repr, Inhabited

/-- The labels of a node, none if it has no list of them. -/
def Node.labels (node : Node) : Dict String := node.metadata.labels.getD ∅

/-- A provider ID of no text counts as none. -/
def Node.assignedId? (node : Node) : Option String := node.providerId.filter (!·.isEmpty)

structure ServiceSpec where
  type : Option String := none
  /-- The address that the service is reached at from outside the cluster. -/
  loadBalancerAddress : Option String := none
  clusterAddress : Option String := none
  ports : Option Json := none
  selector : Option (Dict String) := none
deriving Repr, Inhabited

structure Service where
  metadata : Metadata := {}
  spec : Option ServiceSpec := none
deriving Repr, Inhabited

namespace Service

def loadBalancerType : String := "LoadBalancer"

def isLoadBalancer (service : Service) : Bool :=
  service.spec.bind ServiceSpec.type == some loadBalancerType

/-- The address that the service has already. One of no text counts as none. -/
def assignedAddress? (service : Service) : Option String :=
  (service.spec.bind ServiceSpec.loadBalancerAddress).filter (!·.isEmpty)

def assign (service : Service) (address : String) : Service :=
  { service with spec := some { service.spec.getD {} with loadBalancerAddress := some address } }

end Service

end PeerPool.Cluster
