import PeerPool.Dict

/-! The load balancer's configuration: whom to peer with, and which addresses it
may announce. It also carries settings that nothing here looks at, because what
a user wrote has to survive being read and written back. -/

namespace PeerPool

/-- The node label that scopes a peer to a single node. -/
def hostnameLabel : String := "kubernetes.io/hostname"

/-- One condition on a node's labels, kept as written. -/
structure MatchExpression where
  key : String
  operator : String
  values : List String := []
deriving DecidableEq, Repr, Inhabited

/-- A set of nodes, given by their labels. -/
structure NodeSelector where
  labels : Dict String := ∅
  expressions : List MatchExpression := []
deriving DecidableEq, Repr, Inhabited

/-- Exactly the node of this name. -/
def NodeSelector.ofHostname (node : String) : NodeSelector :=
  { labels := .singleton hostnameLabel node }

/-- A routing session to be held with the router at `address`. -/
structure Peer where
  localAsn : UInt32
  peerAsn : UInt32
  address : String
  port : Option UInt16 := none
  sourceAddress : Option String := none
  holdTime : Option String := none
  routerId : Option String := none
  password : Option String := none
  selectors : List NodeSelector := []
deriving DecidableEq, Repr, Inhabited

/-- Addresses, each with its prefix length, to be handed out under one name. -/
structure AddressPool where
  name : String
  protocol : String
  addresses : List String := []
  autoAssign : Option Bool := none
  avoidBuggyIps : Option Bool := none
deriving DecidableEq, Repr, Inhabited

structure Config where
  peers : List Peer := []
  communities : Dict String := ∅
  pools : List AddressPool := []
deriving DecidableEq, Repr, Inhabited

/-- The two lists have the same members, however ordered and repeated. -/
def sameElements {α : Type} [BEq α] (left right : List α) : Bool :=
  left.all right.contains && right.all left.contains

/-- The peer is scoped by exactly these selectors. -/
def Peer.hasSelectors (peer : Peer) (selectors : List NodeSelector) : Bool :=
  sameElements peer.selectors selectors

/-- The nodes that the peer is scoped to by name. -/
def Peer.hostnames (peer : Peer) : List String :=
  peer.selectors.filterMap (·.labels.get? hostnameLabel)

namespace Config

/-- The nodes that some peer is scoped to, each once, in order of appearance. -/
def nodeNames (config : Config) : List String :=
  (config.peers.flatMap Peer.hostnames).eraseDups

def poolAddresses (config : Config) : List String :=
  config.pools.flatMap AddressPool.addresses

end Config

end PeerPool
