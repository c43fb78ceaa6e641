import PeerPool.Proofs.NodeRounds

/-! Which nodes the watch takes for handed over, by all that it has heard. Each name goes its own way: the latest event
that is about it decides, and what was heard before is forgotten. -/

namespace PeerPool.Proofs.TrackedNodes
open NodeRounds Agent Cluster

variable {name : String} {peered : PeeredNodes} {event : WatchEvent Node} {history : List (WatchEvent Node)} {node : Node}

end PeerPool.Proofs.TrackedNodes
