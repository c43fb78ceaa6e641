import PeerPool.Proofs.PassServices
import PeerPool.Proofs.PoolEdits

/-! What passes make of the configuration, in any world: these parts of theirs ask nothing. -/

namespace PeerPool.Proofs.PassPools
open PassLogic PassServices PoolEdits Cluster

variable {σ : Type} (answer : Answers σ) (state : σ)

/-- The configuration that maps the address of a service, where there are both. -/
def mapped (identity : Identity) (cidr? : Option String) (config? : Option Config) : Option Config :=
  match cidr?, config? with
  | some cidr, some config => some (config.addPool (Pass.poolOf identity cidr)).config
  | _, _ => config?

theorem effect_mapAddress (identity : Identity) (cidr : String) (config : Config) :
    effect answer state (Pass.mapAddress identity cidr config) =
      (.ok (config.addPool (Pass.poolOf identity cidr)).config, state) := by
  unfold Pass.mapAddress
  simp only
  split <;> rfl

theorem effect_mapGiven (identity : Identity) (cidr? : Option String) (config? : Option Config) :
    effect answer state (mapGiven identity cidr? config?) = (.ok ⟨cidr?, mapped identity cidr? config?⟩, state) := by
  cases cidr? with
  | none => rfl
  | some cidr =>
    cases config? with
    | none => rfl
    | some config =>
      unfold mapGiven
      simp only
      rw [effect_bind, effect_mapAddress]
      rfl

/-- Adding a service comes to what its address comes to, which is then mapped. -/
theorem effect_addService {settings : Settings} {listed : List Provider.Reservation} {service : Service} {identity : Identity}
    (known : service.identity? = some identity) (config? : Option Config) :
    effect answer state (Pass.addService settings listed config? service) =
      match effect answer state (Pass.addressOf settings listed service identity) with
      | (.ok cidr?, after) => (.ok ⟨cidr?, mapped identity cidr? config?⟩, after)
      | (.error error, after) => (.error error, after) := by
  rw [addService_known known, effect_bind]
  obtain ⟨error | cidr?, after⟩ := effect answer state (Pass.addressOf settings listed service identity)
  · rfl
  · exact effect_mapGiven ..

theorem effect_unmapStale (valid : List String) (config : Config) (addresses : List String) :
    effect answer state (Pass.unmapStale valid config addresses) = (.ok (unmapped valid config addresses), state) := by
  induction addresses generalizing config with
  | nil => rfl
  | cons address rest ih =>
    rw [Pass.unmapStale, unmapped]
    split
    · exact ih config
    · exact ih _

theorem effect_withoutStale (valid : List String) (config? : Option Config) :
    effect answer state (withoutStale valid config?) =
      (.ok (config?.map fun config => unmapped valid config config.poolAddresses), state) := by
  cases config? with
  | none => rfl
  | some config =>
    unfold withoutStale
    simp only
    rw [map_eq_pure_bind, effect_bind, effect_unmapStale]
    rfl

/-- Maps some addresses on top of those that are mapped already. -/
structure Maps (cidrs : List String) (before after : Config) : Prop where
  same : SameBesidesPools before after
  kept : ∀ address ∈ before.poolAddresses, address ∈ after.poolAddresses
  added : ∀ address ∈ cidrs, address ∈ after.poolAddresses

theorem Maps.nil (config : Config) : Maps [] config config :=
  ⟨.refl config, fun _ member => member, fun _ member => absurd member List.not_mem_nil⟩

theorem Maps.append {first second : List String} {before between after : Config} (earlier : Maps first before between)
    (later : Maps second between after) : Maps (first ++ second) before after := by
  refine ⟨earlier.same.trans later.same, fun address member => later.kept address (earlier.kept address member), ?_⟩
  intro address member
  rcases List.mem_append.mp member with member | member
  · exact later.kept address (earlier.added address member)
  · exact later.added address member

theorem mapped_maps (identity : Identity) (cidr? : Option String) (config : Config) :
    ∃ final, mapped identity cidr? (some config) = some final ∧ Maps cidr?.toList config final := by
  cases cidr? with
  | none => exact ⟨config, rfl, .nil config⟩
  | some cidr =>
    have member (address : String) := mem_addPool config address (Pass.poolOf identity cidr) rfl
    refine ⟨_, rfl, addPool_same config _, fun address known => (member address).mpr (.inr known), ?_⟩
    intro address given
    exact (member address).mpr (.inl (List.mem_singleton.mp given))

/-- What is left when everything that is mapped beyond the valid addresses is taken out. -/
theorem mem_unmapped_maps {address : String} {valid : List String} {before after : Config} (maps : Maps valid before after) :
    address ∈ (unmapped valid after after.poolAddresses).poolAddresses ↔ address ∈ valid := by
  rw [mem_unmapped]
  constructor
  · rintro ⟨known, isValid | absent⟩
    · exact isValid
    · exact absurd known absent
  · intro isValid
    exact ⟨maps.added address isValid, .inl isValid⟩

end PeerPool.Proofs.PassPools
