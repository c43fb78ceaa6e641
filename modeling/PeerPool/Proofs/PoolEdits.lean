import PeerPool.Config.Edit

/-! Which addresses are mapped after an edit of the pools, however often and in however many
pools they were mapped before. -/

namespace PeerPool.Proofs.PoolEdits

/-- Everything but the pools is the same. -/
structure SameBesidesPools (before after : Config) : Prop where
  peers : after.peers = before.peers
  communities : after.communities = before.communities

theorem SameBesidesPools.refl (config : Config) : SameBesidesPools config config := ⟨rfl, rfl⟩

theorem SameBesidesPools.trans {first second third : Config} (before : SameBesidesPools first second)
    (after : SameBesidesPools second third) : SameBesidesPools first third :=
  ⟨after.peers.trans before.peers, after.communities.trans before.communities⟩

variable (config : Config)

theorem mapsAddress_iff (address : String) : config.mapsAddress address = true ↔ address ∈ config.poolAddresses := by
  simp [Config.mapsAddress, Config.poolAddresses]

theorem mem_mergePool (address : String) (pool : AddressPool) (pools : List AddressPool) :
    address ∈ (Config.mergePool pool pools).flatMap AddressPool.addresses ↔
      address ∈ pool.addresses ∨ address ∈ pools.flatMap AddressPool.addresses := by
  induction pools with
  | nil => simp [Config.mergePool]
  | cons known rest ih =>
    rw [Config.mergePool]
    split
    · simp only [List.flatMap_cons, List.mem_append]
      rw [or_comm (a := address ∈ known.addresses), or_assoc]
    · rw [List.flatMap_cons, List.flatMap_cons, List.mem_append, List.mem_append, ih]
      exact or_left_comm

/-- Where the addresses of a pool go: behind those of the first pool of its name, or else into a new one at the end. -/
inductive Merged (pool : AddressPool) : List AddressPool → List AddressPool → Prop where
  | first (ahead : List AddressPool) {behind : List AddressPool} {known : AddressPool} : (∀ other ∈ ahead, other.name ≠ pool.name) →
      known.name = pool.name → Merged pool (ahead ++ known :: behind)
        (ahead ++ { known with addresses := known.addresses ++ pool.addresses } :: behind)
  | new {pools : List AddressPool} : (∀ other ∈ pools, other.name ≠ pool.name) → Merged pool pools (pools ++ [pool])

theorem Merged.behind {pool other : AddressPool} {pools merged : List AddressPool} (differs : other.name ≠ pool.name)
    (later : Merged pool pools merged) : Merged pool (other :: pools) (other :: merged) := by
  cases later with
  | first ahead others here => exact .first (other :: ahead) (List.forall_mem_cons.mpr ⟨differs, others⟩) here
  | new others => exact .new (List.forall_mem_cons.mpr ⟨differs, others⟩)

theorem mergePool_merged (pool : AddressPool) (pools : List AddressPool) : Merged pool pools (Config.mergePool pool pools) := by
  induction pools with
  | nil => exact .new fun _ member => absurd member List.not_mem_nil
  | cons known rest ih =>
    rw [Config.mergePool]
    split
    next same => exact .first [] (fun _ member => absurd member List.not_mem_nil) same
    next differs => exact ih.behind differs

theorem addPool_same (pool : AddressPool) : SameBesidesPools config (config.addPool pool).config := by
  unfold Config.addPool
  split <;> exact ⟨rfl, rfl⟩

/-- A pool is added if it has addresses, none of which is mapped. -/
theorem addPool_changed {pool : AddressPool} : (config.addPool pool).changed = true ↔
    pool.addresses ≠ [] ∧ ∀ address ∈ pool.addresses, address ∉ config.poolAddresses := by
  unfold Config.addPool
  split
  next refused =>
    constructor
    · exact fun changed => nomatch changed
    · rintro ⟨brings, new⟩
      simp only [Bool.or_eq_true, List.isEmpty_iff, List.any_eq_true, mapsAddress_iff] at refused
      obtain ⟨address, inside, mapped⟩ := refused.resolve_left brings
      exact absurd mapped (new address inside)
  next granted => simpa [mapsAddress_iff] using granted

theorem addPool_config {pool : AddressPool} (changed : (config.addPool pool).changed = true) :
    (config.addPool pool).config = { config with pools := Config.mergePool pool config.pools } := by
  unfold Config.addPool at changed ⊢
  split at changed
  next => cases changed
  next granted => rw [if_neg granted]

theorem addPool_idle {pool : AddressPool} (idle : ¬ (config.addPool pool).changed = true) : (config.addPool pool).config = config := by
  unfold Config.addPool at idle ⊢
  split at idle
  next refused => rw [if_pos refused]
  next => exact absurd rfl idle

/-- A pool of one address ends up mapped, be it in this pool or in another. -/
theorem mem_addPool (address : String) {cidr : String} (pool : AddressPool) (alone : pool.addresses = [cidr]) :
    address ∈ (config.addPool pool).config.poolAddresses ↔ address = cidr ∨ address ∈ config.poolAddresses := by
  have known := mapsAddress_iff config cidr
  rw [Config.addPool]
  split
  next granted =>
    have mapped : cidr ∈ config.poolAddresses := by simpa [alone, known] using granted
    constructor
    · exact .inr
    · rintro (rfl | member)
      · exact mapped
      · exact member
  next =>
    have merged := mem_mergePool address pool config.pools
    rw [alone, List.mem_singleton] at merged
    exact merged

/-- An address that is mapped somewhere is not mapped again. -/
theorem addPool_mapped {cidr : String} (mapped : cidr ∈ config.poolAddresses) (pool : AddressPool)
    (alone : pool.addresses = [cidr]) : (config.addPool pool).config = config := by
  have known := (mapsAddress_iff config cidr).mpr mapped
  simp [Config.addPool, alone, known]

theorem addPool_unmapped {cidr : String} (unmapped : cidr ∉ config.poolAddresses) (pool : AddressPool)
    (alone : pool.addresses = [cidr]) : config.addPool pool = ⟨{ config with pools := Config.mergePool pool config.pools }, true⟩ := by
  have known := mt (mapsAddress_iff config cidr).mp unmapped
  simp [Config.addPool, alone, known]

theorem removeAddress_same (address : String) : SameBesidesPools config (config.removeAddress address).config := ⟨rfl, rfl⟩

theorem mem_withoutAddress {address gone : String} (pool : AddressPool) :
    (∃ left ∈ Config.withoutAddress gone pool, address ∈ left.addresses) ↔ address ∈ pool.addresses ∧ address ≠ gone := by
  have kept : address ∈ pool.addresses.filter (· != gone) ↔ address ∈ pool.addresses ∧ address ≠ gone := by
    simp [List.mem_filter]
  rw [← kept, Config.withoutAddress]
  split
  next emptied =>
    have nothing : pool.addresses.filter (· != gone) = [] := by
      simp only [Bool.and_eq_true, List.isEmpty_iff] at emptied
      exact emptied.1
    simp [nothing]
  next => simp

theorem mem_removeAddress {address gone : String} :
    address ∈ (config.removeAddress gone).config.poolAddresses ↔ address ∈ config.poolAddresses ∧ address ≠ gone := by
  simp only [Config.poolAddresses, Config.removeAddress, List.mem_flatMap, List.mem_filterMap]
  constructor
  · rintro ⟨left, ⟨pool, member, found⟩, inside⟩
    obtain ⟨known, other⟩ := (mem_withoutAddress pool).mp ⟨left, found, inside⟩
    exact ⟨⟨pool, member, known⟩, other⟩
  · rintro ⟨⟨pool, member, known⟩, other⟩
    obtain ⟨left, found, inside⟩ := (mem_withoutAddress pool).mpr ⟨known, other⟩
    exact ⟨left, ⟨pool, member, found⟩, inside⟩

/-- Takes the addresses of a list out of the pools, unless they are valid. -/
def unmapped (valid : List String) (config : Config) : List String → Config
  | [] => config
  | address :: rest =>
    if valid.contains address then unmapped valid config rest
    else unmapped valid (config.removeAddress address).config rest

theorem unmapped_same (valid addresses : List String) : SameBesidesPools config (unmapped valid config addresses) := by
  induction addresses generalizing config with
  | nil => exact .refl config
  | cons address rest ih =>
    rw [unmapped]
    split
    · exact ih config
    · exact (removeAddress_same config address).trans (ih _)

theorem unmapped_valid {valid addresses : List String} (all : ∀ address ∈ addresses, address ∈ valid) :
    unmapped valid config addresses = config := by
  induction addresses with
  | nil => rfl
  | cons address rest ih =>
    rw [unmapped, if_pos (List.contains_iff_mem.mpr (all address (List.mem_cons_self ..)))]
    exact ih fun other member => all other (List.mem_cons_of_mem _ member)

theorem mem_unmapped {address : String} (valid addresses : List String) :
    address ∈ (unmapped valid config addresses).poolAddresses ↔
      address ∈ config.poolAddresses ∧ (address ∈ valid ∨ address ∉ addresses) := by
  induction addresses generalizing config with
  | nil => simp [unmapped]
  | cons gone rest ih =>
    rw [unmapped, List.mem_cons, not_or]
    split
    next stays =>
      rw [List.contains_iff_mem] at stays
      rw [ih]
      apply and_congr_right
      intro _
      constructor
      · rintro (isValid | absent)
        · exact .inl isValid
        · by_cases same : address = gone
          · exact .inl (same ▸ stays)
          · exact .inr ⟨same, absent⟩
      · rintro (isValid | absent)
        · exact .inl isValid
        · exact .inr absent.2
    next stale =>
      rw [List.contains_iff_mem] at stale
      rw [ih, mem_removeAddress, and_assoc]
      apply and_congr_right
      intro _
      constructor
      · rintro ⟨other, isValid | absent⟩
        · exact .inl isValid
        · exact .inr ⟨other, absent⟩
      · rintro (isValid | absent)
        · exact ⟨fun same => stale (same ▸ isValid), .inl isValid⟩
        · exact ⟨absent.1, .inr absent.2⟩

end PeerPool.Proofs.PoolEdits
