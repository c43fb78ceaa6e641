import PeerPool.Proofs.PoolRemovals
import PeerPool.Proofs.UniqueEntries

/-! What an edit says of itself. It tells exactly whether the configuration is another one afterwards, on which hangs
whether the configuration is written, and the same edit has nothing left to do when it comes again. -/

namespace PeerPool.Proofs.TruthfulEdits
open PeerEdits PoolEdits PoolRemovals UniqueEntries

/-- The outcome of an edit says whether the configuration differs from what it was. -/
def Truthful (before : Config) (after : Edited) : Prop := after.changed = true ↔ after.config ≠ before

/-- An edit that says so wherever it leaves things as they are needs to change something wherever it says that. -/
theorem truthful_of {before : Config} {after : Edited} (idle : after.changed = false → after.config = before)
    (changed : after.changed = true → after.config ≠ before) : Truthful before after := by
  refine ⟨changed, ?_⟩
  intro differs
  cases told : after.changed with
  | true => rfl
  | false => exact absurd (idle told) differs

theorem addPeer_truthful (config : Config) (peer : Peer) : Truthful config (config.addPeer peer) := by
  unfold Config.addPeer
  split
  next => exact truthful_of (fun _ => rfl) (fun changed => absurd changed Bool.false_ne_true)
  next =>
    apply truthful_of (fun idle => absurd idle.symm Bool.false_ne_true)
    intro _ same
    have longer := congrArg (·.peers.length) same
    simp at longer

/-- A peer is there once it was added, by itself if not before. -/
theorem addPeer_again (config : Config) (peer : Peer) :
    ((config.addPeer peer).config.addPeer peer).config = (config.addPeer peer).config := by
  have known := addPeer_hasPeer config peer
  generalize (config.addPeer peer).config = added at known ⊢
  rw [Config.addPeer, if_pos known]

theorem filterPeers_truthful (config : Config) (keep : Peer → Bool) : Truthful config (config.filterPeers keep) := by
  apply truthful_of (filterPeers_edits config keep).idle
  intro changed same
  have shorter := (filterPeers_shrinks config keep).2 changed
  rw [same] at shorter
  omega

theorem filterPeers_again (config : Config) (keep : Peer → Bool) :
    ((config.filterPeers keep).config.filterPeers keep).config = (config.filterPeers keep).config := by
  simp [Config.filterPeers, List.filter_filter]

/-- A pool that is added, or refused because of an address that is mapped, has an address that is mapped then. -/
theorem addPool_maps (config : Config) {pool : AddressPool} (brings : pool.addresses ≠ []) :
    ∃ address ∈ pool.addresses, address ∈ (config.addPool pool).config.poolAddresses := by
  by_cases changed : (config.addPool pool).changed = true
  · obtain ⟨address, inside⟩ := List.exists_mem_of_ne_nil _ brings
    rw [addPool_config config changed]
    exact ⟨address, inside, (mem_mergePool address pool config.pools).mpr (.inl inside)⟩
  · have refused := mt (addPool_changed config).mpr changed
    rw [addPool_idle config changed]
    simpa [brings] using refused

theorem addPool_truthful (config : Config) (pool : AddressPool) : Truthful config (config.addPool pool) := by
  apply truthful_of
  · intro idle
    exact addPool_idle config (by simp [idle])
  · intro changed same
    obtain ⟨brings, new⟩ := (addPool_changed config).mp changed
    obtain ⟨address, inside, mapped⟩ := addPool_maps config brings
    rw [same] at mapped
    exact new address inside mapped

theorem addPool_again (config : Config) (pool : AddressPool) :
    ((config.addPool pool).config.addPool pool).config = (config.addPool pool).config := by
  apply addPool_idle
  intro changed
  obtain ⟨brings, new⟩ := (addPool_changed _).mp changed
  obtain ⟨address, inside, mapped⟩ := addPool_maps config brings
  exact new address inside mapped

/-- Removing an address leaves the pools alone only if none of them holds it. -/
theorem removeAddress_eq_iff {config : Config} {address : String} :
    (config.removeAddress address).config = config ↔ address ∉ config.poolAddresses := by
  have agree := @unmapped_eq_iff config [address] []
  simp only [List.mem_singleton, List.not_mem_nil, iff_false] at agree
  constructor
  · intro same mapped
    exact agree.mp same address mapped rfl
  · intro unmapped
    apply agree.mpr
    intro other mapped same
    exact unmapped (same ▸ mapped)

theorem removeAddress_truthful (config : Config) (address : String) : Truthful config (config.removeAddress address) := by
  have told : (config.removeAddress address).changed = true ↔ address ∈ config.poolAddresses := mapsAddress_iff config address
  exact told.trans (not_iff_comm.mp removeAddress_eq_iff.symm).symm

theorem removeAddress_again (config : Config) (address : String) :
    ((config.removeAddress address).config.removeAddress address).config = (config.removeAddress address).config := by
  apply removeAddress_eq_iff.mpr
  intro mapped
  exact ((mem_removeAddress config).mp mapped).2 rfl

theorem apply_truthful (config : Config) (edit : Edit) : Truthful config (edit.apply config) := by
  cases edit with
  | addPeer peer => exact addPeer_truthful config peer
  | removePeers selector => exact filterPeers_truthful config _
  | retainNodes nodes => exact filterPeers_truthful config _
  | addPool pool => exact addPool_truthful config pool
  | removeAddress address => exact removeAddress_truthful config address

theorem apply_again (config : Config) (edit : Edit) : (edit.apply (edit.apply config).config).config = (edit.apply config).config := by
  cases edit with
  | addPeer peer => exact addPeer_again config peer
  | removePeers selector => exact filterPeers_again config _
  | retainNodes nodes => exact filterPeers_again config _
  | addPool pool => exact addPool_again config pool
  | removeAddress address => exact removeAddress_again config address

/-- An edit tells whether it changed the configuration, and that it did not when it is made a second time. -/
theorem edits_tell (config : Config) (edit : Edit) :
    ((edit.apply config).changed = true ↔ (edit.apply config).config ≠ config) ∧
    (edit.apply (edit.apply config).config).changed = false := by
  refine ⟨apply_truthful config edit, ?_⟩
  apply Bool.eq_false_iff.mpr
  intro changed
  exact (apply_truthful (edit.apply config).config edit).mp changed (apply_again config edit)

end PeerPool.Proofs.TruthfulEdits
