import PeerPool.Proofs.PoolRemovals
import PeerPool.Proofs.UniqueEntries

/-! A pool that is added, and then loses what it brought in. Whether it came as a new one or was merged into
another, the configuration is as before once the last of its addresses is gone, in whatever order and however
often they are removed. An empty pool of its name would be filled by it, and dropped with that last address. -/

namespace PeerPool.Proofs.RestoredPools
open PoolEdits PoolRemovals UniqueEntries

/-- The removal of addresses, one after the other. -/
def removals (addresses : List String) : List Edit := addresses.map .removeAddress

theorem edited_removals (config : Config) (addresses : List String) :
    edited config (removals addresses) = unmapped [] config addresses := by
  induction addresses generalizing config with
  | nil => rfl
  | cons address rest ih => exact ih (config.removeAddress address).config

variable {config : Config} {added : AddressPool} {gone : List String}

/-- An address of the added pool stays mapped until it is removed. -/
theorem stays_mapped (changed : (config.addPool added).changed = true) {address : String} (brought : address ∈ added.addresses)
    (kept : address ∉ gone) : address ∈ (edited (config.addPool added).config (removals gone)).poolAddresses := by
  rw [edited_removals]
  apply (mem_unmapped_all _ gone).mpr
  refine ⟨?_, kept⟩
  rw [addPool_config config changed]
  exact (mem_mergePool address added config.pools).mpr (.inl brought)

/-- Removals of what an added pool brought in undo the addition exactly when they are complete. -/
theorem removals_restore (changed : (config.addPool added).changed = true)
    (filled : ∀ known ∈ config.pools, known.name = added.name → known.addresses ≠ [])
    (brought : ∀ address ∈ gone, address ∈ added.addresses) :
    edited (config.addPool added).config (removals gone) = config ↔ ∀ address ∈ added.addresses, address ∈ gone := by
  constructor
  · intro restored address inside
    by_contra kept
    have mapped := stays_mapped changed inside kept
    rw [restored] at mapped
    exact ((addPool_changed config).mp changed).2 address inside mapped
  · intro complete
    rw [edited_removals]
    exact unmapped_addPool config changed filled fun address => ⟨brought address, complete address⟩

section

/-- Two pools of one name, the second of which must be left alone. -/
def twins : Config where
  peers := [peerFor "r1" ["n1"]]
  pools := [pool "spare" [], pool "shop/web" ["a", "b", "a"], pool "shop/web" ["c"], pool "shop/api" ["d"]]

def doubled : AddressPool := pool "shop/web" ["e", "f", "e"]

theorem removals_restore_twins :
    (twins.addPool doubled).changed = true ∧
    edited (twins.addPool doubled).config (removals ["f", "e", "f"]) = twins ∧
    edited (twins.addPool doubled).config (removals ["e", "e"]) ≠ twins := by
  have changed : (twins.addPool doubled).changed = true := by decide
  have filled : ∀ known ∈ twins.pools, known.name = doubled.name → known.addresses ≠ [] := by decide
  refine ⟨changed, (removals_restore changed filled (by decide)).mpr (by decide), ?_⟩
  exact mt (removals_restore changed filled (by decide)).mp (by decide)

end

/-- An empty pool that takes in what is added under its name is dropped when that is removed. -/
theorem namesake_dropped (changed : (config.addPool added).changed = true) {known : AddressPool}
    (namesake : config.pools.find? (·.name = added.name) = some known) (empty : known.addresses = [])
    (all : ∀ address, address ∈ gone ↔ address ∈ added.addresses) :
    (edited (config.addPool added).config (removals gone)).pools = config.pools.eraseP (·.name = added.name) := by
  obtain ⟨brings, new⟩ := (addPool_changed config).mp changed
  have apart : ∀ other ∈ config.pools, ∀ address ∈ other.addresses, address ∉ gone := by
    intro other member address inside goes
    exact new address ((all address).mp goes) (List.mem_flatMap.mpr ⟨other, member, inside⟩)
  have merges := mergePool_merged added config.pools
  rw [edited_removals, unmapped_pools, addPool_config config changed]
  dsimp only
  generalize Config.mergePool added config.pools = merged at merges ⊢
  generalize config.pools = pools at merges namesake apart ⊢
  cases merges with
  | @first ahead behind other others same =>
    obtain ⟨before, rest⟩ := List.forall_mem_append.mp apart
    obtain ⟨-, after⟩ := List.forall_mem_cons.mp rest
    have unnamed : ∀ other ∈ ahead, ¬ decide (other.name = added.name) = true := by simpa using others
    have first : known = other := by
      rw [List.find?_append, List.find?_eq_none.mpr unnamed, List.find?_cons_of_pos (by simpa using same)] at namesake
      exact (Option.some.inj namesake).symm
    subst first
    have dropped : stripped gone { known with addresses := known.addresses ++ added.addresses } = none := by
      apply stripped_all
      · simpa [empty] using fun address => (all address).mpr
      · simpa [empty] using brings
    rw [List.filterMap_append, stripped_apart before, List.filterMap_cons_none dropped, stripped_apart after,
      List.eraseP_append_right _ unnamed, List.eraseP_cons_of_pos (by simpa using same)]
  | new others =>
    have absent : pools.find? (·.name = added.name) = none := List.find?_eq_none.mpr (by simpa using others)
    cases absent.symm.trans namesake

end PeerPool.Proofs.RestoredPools
