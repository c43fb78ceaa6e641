import PeerPool.Config.Edit
import PeerPool.Pass.Document
import PeerPool.Settings.Basic

/-! Passes over nodes: each node that is selected peers with the routers that its provider
knows for it. -/

namespace PeerPool

/-- A node that is to peer. -/
structure PeeringNode where
  name : String
  providerId : String
deriving DecidableEq, Repr

/-- The peer that a node has in the router at an address. -/
def Settings.peerOf (settings : Settings) (node address : String) : Peer where
  localAsn := settings.localAsn
  peerAsn := settings.peerAsn
  address := address
  password := settings.bgpPassword
  selectors := [NodeSelector.ofHostname node]

namespace Pass

open Cluster (Node)

def nodeName (node : Node) : Pass String :=
  match node.metadata.name with
  | some name => pure name
  | none => throw .missingMetadata

/-- The nodes of a batch that are selected, of which each must have a provider ID. -/
def peeringNodes (selector : Selector) : List Node → Pass (List PeeringNode)
  | [] => pure []
  | node :: rest => do
    let name ← nodeName node
    if Selector.accepts selector node.labels then
      match node.assignedId? with
      | some providerId => return ⟨name, providerId⟩ :: (← peeringNodes selector rest)
      | none => throw (.missingProviderId name)
    else
      debug s!"Node '{name}' doesn't match the BGP node selector, skipping..."
      peeringNodes selector rest

/-- Removes the peers of the nodes of a batch. -/
def removeNodes (edited : Edited) : List Node → Pass Edited
  | [] => pure edited
  | node :: rest => do
    let name ← nodeName node
    let step := edited.config.removePeers (.ofHostname name)
    if step.changed then info s!"Removed peers of node '{name}'"
    removeNodes ⟨step.config, edited.changed || step.changed⟩ rest

/-- Adds a peer of a node for each address. -/
def addPeers (settings : Settings) (node : String) (edited : Edited) : List String → Pass Edited
  | [] => pure edited
  | address :: rest => do
    let step := edited.config.addPeer (settings.peerOf node address)
    if step.changed then info s!"Added peer {address} for node '{node}'"
    addPeers settings node ⟨step.config, edited.changed || step.changed⟩ rest

/-- Adds the peers of nodes. A node whose routers cannot be found is left for a later pass. -/
def addNodes (settings : Settings) (edited : Edited) : List PeeringNode → Pass Edited
  | [] => pure edited
  | node :: rest => do
    match ← ask (.resolvePeers node.providerId) with
    | .ok [] =>
      warn s!"Node '{node.name}' has no BGP peers, skipping..."
      addNodes settings edited rest
    | .ok addresses => do addNodes settings (← addPeers settings node.name edited addresses) rest
    | .error error =>
      warn s!"Couldn't resolve BGP peers of node '{node.name}'! Reason: {error.message}"
      addNodes settings edited rest

/-- Removes the peers of other nodes first, then adds those of the nodes that have none. -/
def syncNodes (settings : Settings) (config : Config) (nodes : List PeeringNode) : Pass Edited := do
  let kept := config.retainNodes (nodes.map (·.name))
  if kept.changed then info "Removed peers of stale nodes"
  let documented := kept.config.nodeNames
  addNodes settings kept (nodes.filter (!documented.contains ·.name))

/-- The configuration after a batch of nodes. -/
def editForNodes (settings : Settings) (mode : Mode) (config : Config) (nodes : List Node) : Pass Edited := do
  match mode with
  | .remove => removeNodes ⟨config, false⟩ nodes
  | .add => addNodes settings ⟨config, false⟩ (← peeringNodes settings.nodeSelector nodes)
  | .sync => syncNodes settings config (← peeringNodes settings.nodeSelector nodes)

def nodes (settings : Settings) (mode : Mode) (batch : List Node) : Pass Unit := do
  match settings.location with
  | none => debug s!"Load balancer configuration is disabled, ignoring {batch.length} node(s)..."
  | some location =>
    info s!"Reconciling {batch.length} node(s) ({mode.write})..."
    let config ← load location.name
    let edited ← editForNodes settings mode config batch
    if edited.changed then save location.name edited.config
    else debug "Node peers unchanged, skipping the update..."

end Pass

end PeerPool
