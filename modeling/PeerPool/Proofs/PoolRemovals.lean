import Mathlib.Data.List.Basic
import PeerPool.Proofs.PoolEdits

/-! Taking several addresses out of the pools at once. What is left depends on which of the
mapped addresses go, and not on their order, on how often they are named, or on others. -/

namespace PeerPool.Proofs.PoolRemovals
open PoolEdits

variable (config : Config)

/-- Takes addresses out of a pool. As with a single one, a pool that this empties is gone. -/
def stripped (gone : List String) (pool : AddressPool) : Option AddressPool :=
  let kept := pool.addresses.filter (!gone.contains ·)
  if kept.isEmpty && !pool.addresses.isEmpty then none else some { pool with addresses := kept }

theorem stripped_nil (pool : AddressPool) : stripped [] pool = some pool := by
  have kept : pool.addresses.filter (fun address => !([] : List String).contains address) = pool.addresses :=
    List.filter_eq_self.mpr fun _ _ => rfl
  rw [stripped]
  simp only [kept, Bool.and_not_self, Bool.false_eq_true, if_false]

theorem stripped_cons (address : String) (gone : List String) (pool : AddressPool) :
    stripped (address :: gone) pool = (Config.withoutAddress address pool).bind (stripped gone) := by
  have kept : pool.addresses.filter (!(address :: gone).contains ·) =
      (pool.addresses.filter (· != address)).filter (!gone.contains ·) := by
    rw [List.filter_filter]
    apply List.filter_congr
    intro other _
    rw [List.contains_cons, Bool.not_or, Bool.and_comm]
    rfl
  rw [stripped, Config.withoutAddress]
  simp only [kept]
  cases emptied : (pool.addresses.filter (· != address)).isEmpty with
  | true =>
    rw [List.isEmpty_iff.mp emptied]
    cases held : pool.addresses.isEmpty with
    | true => simp [stripped]
    | false => simp
  | false =>
    have held : pool.addresses.isEmpty = false := by
      rw [List.isEmpty_eq_false_iff] at emptied ⊢
      intro none
      rw [none] at emptied
      exact emptied rfl
    simp [stripped, emptied, held]

theorem unmapped_pools (gone : List String) : (unmapped [] config gone).pools = config.pools.filterMap (stripped gone) := by
  induction gone generalizing config with
  | nil =>
    have same : stripped [] = some := funext stripped_nil
    rw [same, List.filterMap_some]
    rfl
  | cons address rest ih =>
    -- Each pool goes through both removals, and is gone for the second if the first empties it.
    have both : stripped (address :: rest) = fun pool => (Config.withoutAddress address pool).bind (stripped rest) :=
      funext (stripped_cons address rest)
    rw [both, ← List.filterMap_filterMap]
    exact ih (config.removeAddress address).config

theorem same_pools {first second : Config} (same : SameBesidesPools first second) (pools : second.pools = first.pools) :
    second = first := by
  obtain ⟨peers, communities⟩ := same
  cases first
  cases second
  simp_all

theorem mem_unmapped_all {address : String} (gone : List String) :
    address ∈ (unmapped [] config gone).poolAddresses ↔ address ∈ config.poolAddresses ∧ address ∉ gone := by
  simp [mem_unmapped]

theorem unmapped_eq_iff {first second : List String} :
    unmapped [] config first = unmapped [] config second ↔
      ∀ address ∈ config.poolAddresses, address ∈ first ↔ address ∈ second := by
  constructor
  · intro same address member
    have left := @mem_unmapped_all config address first
    rw [same, mem_unmapped_all] at left
    simpa [member, not_iff_not] using left.symm
  · intro agree
    have pools : (unmapped [] config first).pools = (unmapped [] config second).pools := by
      rw [unmapped_pools, unmapped_pools]
      apply List.filterMap_congr
      intro pool held
      have kept : pool.addresses.filter (!first.contains ·) = pool.addresses.filter (!second.contains ·) := by
        apply List.filter_congr
        intro address inside
        have mapped : address ∈ config.poolAddresses := List.mem_flatMap.mpr ⟨pool, held, inside⟩
        rw [List.contains_eq_mem, List.contains_eq_mem, decide_eq_decide.mpr (agree address mapped)]
      rw [stripped, stripped, kept]
    obtain ⟨peers, communities⟩ := unmapped_same config [] second
    obtain ⟨samePeers, sameCommunities⟩ := unmapped_same config [] first
    exact same_pools ⟨samePeers.trans peers.symm, sameCommunities.trans communities.symm⟩ pools

/-- Where taking out addresses changes anything, one of them was mapped. -/
theorem unmapped_differs {gone : List String} (changed : config ≠ unmapped [] config gone) :
    ∃ address ∈ config.poolAddresses, address ∈ gone := by
  by_contra none
  push Not at none
  apply changed
  change unmapped [] config [] = unmapped [] config gone
  rw [unmapped_eq_iff]
  intro address mapped
  simp [none address mapped]

theorem stripped_append {gone : List String} {pool : AddressPool} (more : List String)
    (spared : ∀ address ∈ pool.addresses, address ∉ gone) (all : ∀ address ∈ more, address ∈ gone) (filled : pool.addresses = [] → more = []) :
    stripped gone { pool with addresses := pool.addresses ++ more } = some pool := by
  have stays : pool.addresses.filter (!gone.contains ·) = pool.addresses :=
    List.filter_eq_self.mpr fun address inside => by simp [spared address inside]
  have goes : more.filter (!gone.contains ·) = [] := List.filter_eq_nil_iff.mpr fun address inside => by simp [all address inside]
  have kept : (pool.addresses ++ more).filter (!gone.contains ·) = pool.addresses := by
    rw [List.filter_append, stays, goes, List.append_nil]
  rw [stripped]
  simp only [kept]
  rw [if_neg]
  simp only [Bool.and_eq_true, Bool.not_eq_true', List.isEmpty_iff, List.isEmpty_eq_false_iff, not_and, not_not]
  intro empty
  rw [empty, filled empty, List.append_nil]

theorem stripped_spared {gone : List String} {pool : AddressPool} (spared : ∀ address ∈ pool.addresses, address ∉ gone) :
    stripped gone pool = some pool := by
  have nothing := stripped_append [] spared nofun fun _ => rfl
  rwa [List.append_nil] at nothing

theorem stripped_all {gone : List String} {pool : AddressPool} (all : ∀ address ∈ pool.addresses, address ∈ gone)
    (filled : pool.addresses ≠ []) : stripped gone pool = none := by
  simpa [stripped, filled] using all

theorem stripped_apart {gone : List String} {pools : List AddressPool}
    (spared : ∀ pool ∈ pools, ∀ address ∈ pool.addresses, address ∉ gone) : pools.filterMap (stripped gone) = pools :=
  (List.filterMap_congr fun pool member => stripped_spared (spared pool member)).trans List.filterMap_some

/-- Taking out what a pool brought in undoes it. Only an empty pool of its name would be filled by it, and dropped. -/
theorem stripped_merged {pool : AddressPool} {pools merged : List AddressPool} (merges : Merged pool pools merged)
    (brings : pool.addresses ≠ []) (new : ∀ address ∈ pool.addresses, address ∉ pools.flatMap AddressPool.addresses)
    (filled : ∀ known ∈ pools, known.name = pool.name → known.addresses ≠ []) {gone : List String}
    (all : ∀ address, address ∈ gone ↔ address ∈ pool.addresses) : merged.filterMap (stripped gone) = pools := by
  have apart : ∀ known ∈ pools, ∀ address ∈ known.addresses, address ∉ gone := by
    intro known member address inside goes
    exact new address ((all address).mp goes) (List.mem_flatMap.mpr ⟨known, member, inside⟩)
  cases merges with
  | @first ahead behind known _ same =>
    obtain ⟨before, others⟩ := List.forall_mem_append.mp apart
    obtain ⟨here, after⟩ := List.forall_mem_cons.mp others
    have restored := stripped_append pool.addresses here (fun address => (all address).mpr)
      fun empty => absurd empty (filled known (by simp) same)
    rw [List.filterMap_append, List.filterMap_cons_some restored, stripped_apart before, stripped_apart after]
  | new _ =>
    have dropped := stripped_all (fun address => (all address).mpr) brings
    rw [List.filterMap_append, stripped_apart apart, List.filterMap_cons_none dropped, List.filterMap_nil, List.append_nil]

theorem unmapped_addPool {pool : AddressPool} (changed : (config.addPool pool).changed = true)
    (filled : ∀ known ∈ config.pools, known.name = pool.name → known.addresses ≠ []) {gone : List String}
    (all : ∀ address, address ∈ gone ↔ address ∈ pool.addresses) : unmapped [] (config.addPool pool).config gone = config := by
  have same := (addPool_same config pool).trans (unmapped_same (config.addPool pool).config [] gone)
  obtain ⟨brings, new⟩ := (addPool_changed config).mp changed
  apply same_pools same
  rw [unmapped_pools, addPool_config config changed]
  exact stripped_merged (mergePool_merged pool config.pools) brings new filled all

end PeerPool.Proofs.PoolRemovals
