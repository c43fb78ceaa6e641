import PeerPool.Config.Basic

/-! Edits of a configuration. Each tells whether it changed anything, because the
stored document is only written when something did. -/

namespace PeerPool

/-- A configuration after an edit, and whether the edit changed it. -/
structure Edited where
  config : Config
  changed : Bool
deriving DecidableEq, Repr

namespace Config

/-- Some peer has this remote address and this set of selectors. -/
def hasPeer (config : Config) (address : String) (selectors : List NodeSelector) : Bool :=
  config.peers.any fun known => known.address == address && known.hasSelectors selectors

/-- Adds a peer unless the configuration has it already. -/
def addPeer (config : Config) (peer : Peer) : Edited :=
  if config.hasPeer peer.address peer.selectors then ⟨config, false⟩
  else ⟨{ config with peers := config.peers ++ [peer] }, true⟩

/-- Keeps the peers that pass the test. -/
def filterPeers (config : Config) (keep : Peer → Bool) : Edited :=
  let kept := config.peers.filter keep
  ⟨{ config with peers := kept }, kept.length != config.peers.length⟩

/-- Removes every peer that is scoped by the given selector and nothing else. -/
def removePeers (config : Config) (selector : NodeSelector) : Edited :=
  config.filterPeers fun peer => !peer.hasSelectors [selector]

/-- Removes every peer that is scoped to a node outside `nodes`, whatever else its
selectors ask for. A peer that names no node stays. -/
def retainNodes (config : Config) (nodes : List String) : Edited :=
  config.filterPeers fun peer => peer.hostnames.all nodes.contains

/-- Some pool holds the address. -/
def mapsAddress (config : Config) (address : String) : Bool :=
  config.pools.any fun pool => pool.addresses.contains address

/-- Merges a pool into the first of its name, or puts it at the end. -/
def mergePool (pool : AddressPool) : List AddressPool → List AddressPool
  | [] => [pool]
  | known :: rest =>
    if known.name = pool.name then
      { known with addresses := known.addresses ++ pool.addresses } :: rest
    else known :: mergePool pool rest

/-- Adds the addresses of a pool unless one of them is mapped already, in which case
the wish counts as granted. -/
def addPool (config : Config) (pool : AddressPool) : Edited :=
  if pool.addresses.isEmpty || pool.addresses.any config.mapsAddress then ⟨config, false⟩
  else ⟨{ config with pools := mergePool pool config.pools }, true⟩

/-- Takes an address out of a pool. A pool that this empties is gone; one that was
empty before stays. -/
def withoutAddress (address : String) (pool : AddressPool) : Option AddressPool :=
  let kept := pool.addresses.filter (· != address)
  if kept.isEmpty && !pool.addresses.isEmpty then none
  else some { pool with addresses := kept }

/-- Takes an address out of every pool. -/
def removeAddress (config : Config) (address : String) : Edited :=
  ⟨{ config with pools := config.pools.filterMap (withoutAddress address) }, config.mapsAddress address⟩

end Config

end PeerPool
