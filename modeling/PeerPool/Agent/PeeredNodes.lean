import PeerPool.Cluster.Object

/-! The nodes that were handed over for peering. The peers of a node depend on nothing but
who it is, so a node that was handed over with its provider ID needs no pass when it is
merely updated. -/

namespace PeerPool.Agent

open Cluster (Node)

/-- The names of the nodes that were handed over. -/
structure PeeredNodes where
  names : List String := []
deriving DecidableEq, Repr, Inhabited

/-- What a node is tracked under. A missing name counts as one of no text. -/
def trackedAs (node : Node) : String := node.metadata.name.getD ""

namespace PeeredNodes

/-- Whether a node that was added or updated needs a pass, and who was handed over then.
One that waits for its provider ID is not tracked, so it is handed over again. -/
def applied (peered : PeeredNodes) (node : Node) : Bool × PeeredNodes :=
  match node.assignedId? with
  | none => (true, peered)
  | some _ =>
    if peered.names.contains (trackedAs node) then (false, peered)
    else (true, ⟨trackedAs node :: peered.names⟩)

def deleted (peered : PeeredNodes) (node : Node) : PeeredNodes :=
  ⟨peered.names.filter (· != trackedAs node)⟩

/-- Starts over with the nodes of a listing. -/
def restarted (nodes : List Node) : PeeredNodes :=
  ⟨(nodes.filter (·.assignedId?.isSome)).map trackedAs⟩

end PeeredNodes

end PeerPool.Agent
