import Mathlib.Data.List.Nodup
import PeerPool.Proofs.PeerEdits
import PeerPool.Proofs.PoolEdits

/-! A configuration that holds everything once: each peer, each pool and, but for one pool, each
address. No edit breaks this, whatever it is asked to add or to remove. -/

namespace PeerPool.Proofs.UniqueEntries
open PeerEdits PoolEdits

/-- The same router for the same sets of nodes. -/
def Twins (first second : Peer) : Prop :=
  first.address = second.address ∧ ∀ selector, selector ∈ first.selectors ↔ selector ∈ second.selectors

theorem twins_iff {first second : Peer} :
    Twins first second ↔ first.address = second.address ∧ first.hasSelectors second.selectors = true := by
  rw [Twins, Peer.hasSelectors, sameElements_iff]

instance (first second : Peer) : Decidable (Twins first second) := decidable_of_iff _ twins_iff.symm

/-- An address may be listed twice in its pool, but there is only one pool that lists it. -/
structure Unique (config : Config) : Prop where
  peers : config.peers.Pairwise fun first second => ¬ Twins first second
  names : (config.pools.map (·.name)).Nodup
  addresses : config.pools.Pairwise fun first second => first.addresses.Disjoint second.addresses

instance (first second : AddressPool) : Decidable (first.addresses.Disjoint second.addresses) :=
  decidable_of_iff (∀ address ∈ first.addresses, address ∉ second.addresses) Iff.rfl

instance (config : Config) : Decidable (Unique config) :=
  decidable_of_iff ((config.peers.Pairwise fun first second => ¬ Twins first second) ∧ (config.pools.map (·.name)).Nodup ∧
      config.pools.Pairwise fun first second => first.addresses.Disjoint second.addresses)
    ⟨fun ⟨peers, names, addresses⟩ => ⟨peers, names, addresses⟩, fun unique => ⟨unique.peers, unique.names, unique.addresses⟩⟩

theorem addPeer_unique {config : Config} (unique : Unique config) (peer : Peer) : Unique (config.addPeer peer).config := by
  unfold Config.addPeer
  split
  next => exact unique
  next new =>
    refine ⟨?_, unique.names, unique.addresses⟩
    apply List.pairwise_append.mpr
    refine ⟨unique.peers, List.pairwise_singleton _ _, ?_⟩
    intro known member other last twins
    cases List.mem_singleton.mp last
    obtain ⟨address, selectors⟩ := twins_iff.mp twins
    exact new (List.any_eq_true.mpr ⟨known, member, by simp [address, selectors]⟩)

theorem filterPeers_unique {config : Config} (unique : Unique config) (keep : Peer → Bool) :
    Unique (config.filterPeers keep).config :=
  ⟨unique.peers.filter keep, unique.names, unique.addresses⟩

theorem mergePool_names (pool : AddressPool) (pools : List AddressPool) :
    (Config.mergePool pool pools).map (·.name) =
      if pool.name ∈ pools.map (·.name) then pools.map (·.name) else pools.map (·.name) ++ [pool.name] := by
  induction pools with
  | nil => rfl
  | cons known rest ih =>
    rw [Config.mergePool]
    split
    next same => simp [same]
    next differs =>
      have elsewhere : pool.name ∈ (known :: rest).map (·.name) ↔ pool.name ∈ rest.map (·.name) := by
        simp [Ne.symm differs]
      rw [List.map_cons, ih, if_congr elsewhere rfl rfl]
      split <;> rfl

/-- A list of addresses shares none with pools if it shares none with what they hold together. -/
theorem disjoint_pools {addresses : List String} {pools : List AddressPool} :
    (∀ pool ∈ pools, addresses.Disjoint pool.addresses) ↔ addresses.Disjoint (pools.flatMap AddressPool.addresses) := by
  constructor
  · intro apart address here there
    obtain ⟨pool, member, inside⟩ := List.mem_flatMap.mp there
    exact apart pool member here inside
  · intro apart pool member address here there
    exact apart here (List.mem_flatMap.mpr ⟨pool, member, there⟩)

theorem mergePool_disjoint {pool : AddressPool} {pools : List AddressPool}
    (addresses : pools.Pairwise fun first second => first.addresses.Disjoint second.addresses)
    (new : pool.addresses.Disjoint (pools.flatMap AddressPool.addresses)) :
    (Config.mergePool pool pools).Pairwise fun first second => first.addresses.Disjoint second.addresses := by
  induction pools with
  | nil => exact List.pairwise_singleton _ _
  | cons known rest ih =>
    obtain ⟨apart, addresses⟩ := List.pairwise_cons.mp addresses
    rw [List.flatMap_cons, List.disjoint_append_right] at new
    obtain ⟨unknown, new⟩ := new
    rw [Config.mergePool]
    split
    next =>
      refine List.pairwise_cons.mpr ⟨?_, addresses⟩
      intro other member
      exact List.disjoint_append_left.mpr ⟨apart other member, disjoint_pools.mpr new other member⟩
    next =>
      refine List.pairwise_cons.mpr ⟨disjoint_pools.mpr ?_, ih addresses new⟩
      intro address here there
      rcases (mem_mergePool address pool rest).mp there with added | held
      · exact unknown added here
      · exact disjoint_pools.mp apart here held

theorem addPool_unique {config : Config} (unique : Unique config) (pool : AddressPool) : Unique (config.addPool pool).config := by
  unfold Config.addPool
  split
  next => exact unique
  next refused =>
    have new : pool.addresses.Disjoint (config.pools.flatMap AddressPool.addresses) := by
      intro address here there
      have mapped := (mapsAddress_iff config address).mpr there
      exact refused (Bool.or_eq_true_iff.mpr (.inr (List.any_eq_true.mpr ⟨address, here, mapped⟩)))
    refine ⟨unique.peers, ?_, mergePool_disjoint unique.addresses new⟩
    change ((Config.mergePool pool config.pools).map (·.name)).Nodup
    rw [mergePool_names]
    split
    next => exact unique.names
    next unnamed => exact List.nodup_append.mpr ⟨unique.names, List.nodup_singleton _, by simpa using unnamed⟩

/-- What is left of a pool goes by its name, and holds what it held but for the address. -/
theorem withoutAddress_some {address : String} {pool left : AddressPool} (stays : Config.withoutAddress address pool = some left) :
    left.name = pool.name ∧ left.addresses ⊆ pool.addresses := by
  unfold Config.withoutAddress at stays
  simp only at stays
  split at stays
  · cases stays
  · cases stays
    exact ⟨rfl, List.filter_sublist.subset⟩

theorem removeAddress_unique {config : Config} (unique : Unique config) (address : String) :
    Unique (config.removeAddress address).config := by
  have named := List.pairwise_map.mp unique.names
  refine ⟨unique.peers, List.pairwise_map.mpr (List.pairwise_filterMap.mpr ?_), List.pairwise_filterMap.mpr ?_⟩
  · refine named.imp ?_
    intro first second differs kept stays other remains
    rw [(withoutAddress_some stays).1, (withoutAddress_some remains).1]
    exact differs
  · refine unique.addresses.imp ?_
    intro first second apart kept stays other remains shared here there
    exact apart ((withoutAddress_some stays).2 here) ((withoutAddress_some remains).2 there)

/-- What may be done to a configuration. -/
inductive Edit where
  | addPeer (peer : Peer)
  | removePeers (selector : NodeSelector)
  | retainNodes (nodes : List String)
  | addPool (pool : AddressPool)
  | removeAddress (address : String)
deriving Repr

def Edit.apply (config : Config) : Edit → Edited
  | .addPeer peer => config.addPeer peer
  | .removePeers selector => config.removePeers selector
  | .retainNodes nodes => config.retainNodes nodes
  | .addPool pool => config.addPool pool
  | .removeAddress address => config.removeAddress address

/-- The configuration after one edit upon the other. -/
def edited (config : Config) (edits : List Edit) : Config := edits.foldl (fun config edit => (edit.apply config).config) config

theorem apply_unique {config : Config} (unique : Unique config) (edit : Edit) : Unique (edit.apply config).config := by
  cases edit with
  | addPeer peer => exact addPeer_unique unique peer
  | removePeers selector => exact filterPeers_unique unique _
  | retainNodes nodes => exact filterPeers_unique unique _
  | addPool pool => exact addPool_unique unique pool
  | removeAddress address => exact removeAddress_unique unique address

/-- A configuration that holds everything once holds everything once after any edits. -/
theorem edits_keep_unique {config : Config} (unique : Unique config) (edits : List Edit) : Unique (edited config edits) := by
  induction edits generalizing config with
  | nil => exact unique
  | cons edit rest ih => exact ih (apply_unique unique edit)

section

def peerFor (address : String) (names : List String) : Peer where
  localAsn := 65000
  peerAsn := 65530
  address := address
  selectors := names.map NodeSelector.ofHostname

def pool (name : String) (addresses : List String) : AddressPool where
  name := name
  protocol := "bgp"
  addresses := addresses

def filled : Config where
  peers := [peerFor "r1" ["n1", "n2"], peerFor "r1" ["n1"]]
  pools := [pool "shop/web" ["a", "a"], pool "spare" [], pool "shop/api" ["b"]]

/-- A peer comes again with its selectors in another order and repeated; pools come under known names,
with addresses that are new, repeated or mapped; one pool is emptied, and a node goes. -/
def busy : List Edit :=
  [.addPeer (peerFor "r1" ["n2", "n1", "n2"]), .addPeer (peerFor "r2" ["n3", "n3"]), .addPool (pool "shop/api" ["c", "c", "d"]),
    .addPool (pool "other" ["e", "a"]), .addPool (pool "spare" ["f"]), .removeAddress "a", .addPool (pool "shop/web" ["a"]),
    .removePeers (.ofHostname "n1"), .retainNodes ["n1", "n3"]]

theorem edits_keep_unique_busy : Unique filled ∧ Unique (edited filled busy) := by
  have unique : Unique filled := by decide +kernel
  exact ⟨unique, edits_keep_unique unique busy⟩

end

end PeerPool.Proofs.UniqueEntries
