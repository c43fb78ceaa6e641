import PeerPool.Proofs.Removals
import PeerPool.Proofs.UnseenDocuments

/-! What a pass that removes services leaves of the configuration where some deletions are refused.
Each service that owns a reservation has one deletion asked for, and just what those that are granted
give up is taken out of the pools, wherever it is mapped. All else stays as and where it was. -/

namespace PeerPool.Proofs.PartialRemovals
open PassLogic PassServices PassCalls PoolEdits PoolRemovals Deletions Synchronized Coverage Removals UnseenDocuments
open PeersSynchronized Sites Simulation Provider Cluster

variable {σ : Type} {answer : Answers σ} {settings : Settings} {listed : List Reservation}

/-- These addresses are all that the pool holds, and it holds some. -/
def Emptied (gone : List String) (pool : AddressPool) : Prop := pool.addresses ≠ [] ∧ ∀ address ∈ pool.addresses, address ∈ gone

instance (gone : List String) (pool : AddressPool) : Decidable (Emptied gone pool) :=
  inferInstanceAs (Decidable (pool.addresses ≠ [] ∧ ∀ address ∈ pool.addresses, address ∈ gone))

def lessened (gone : List String) (pool : AddressPool) : AddressPool :=
  { pool with addresses := pool.addresses.filter (· ∉ gone) }

/-- The addresses are taken out, and with them the pools that this empties. -/
structure Lessened (gone : List String) (loaded config : Config) : Prop where
  addresses : config.poolAddresses = loaded.poolAddresses.filter (· ∉ gone)
  pools : config.pools = (loaded.pools.filter (¬ Emptied gone ·)).map (lessened gone)
  same : SameBesidesPools loaded config

theorem stripped_eq (gone : List String) (pool : AddressPool) :
    stripped gone pool = if Emptied gone pool then none else some (lessened gone pool) := by
  have kept : pool.addresses.filter (!gone.contains ·) = pool.addresses.filter (· ∉ gone) := by
    apply List.filter_congr
    intro address _
    simp
  have empties : ((pool.addresses.filter (· ∉ gone)).isEmpty && !pool.addresses.isEmpty) = true ↔ Emptied gone pool := by
    simp [Emptied, and_comm]
  rw [stripped]
  simp only [kept, empties, lessened]

/-- What is dropped holds nothing that stays. -/
theorem addresses_stripped (gone : List String) (pool : AddressPool) :
    ((stripped gone pool).toList.flatMap AddressPool.addresses) = pool.addresses.filter (· ∉ gone) := by
  rw [stripped_eq]
  split
  next emptied =>
    symm
    rw [Option.toList_none, List.flatMap_nil, List.filter_eq_nil_iff]
    intro address inside
    simp [emptied.2 address inside]
  next => simp [lessened]

theorem lessened_unmapped (loaded : Config) (gone : List String) : Lessened gone loaded (unmapped [] loaded gone) := by
  refine ⟨?_, ?_, unmapped_same loaded [] gone⟩
  · rw [Config.poolAddresses, Config.poolAddresses, unmapped_pools, List.filter_flatMap, List.filterMap_eq_flatMap_toList,
      List.flatMap_assoc]
    simp only [addresses_stripped]
  · rw [unmapped_pools, ← List.filterMap_eq_map, List.filterMap_filter]
    apply List.filterMap_congr
    intro pool _
    rw [stripped_eq]
    by_cases emptied : Emptied gone pool <;> simp [emptied]

/-- How a pass that removes services goes if it succeeds: it lists, loads, gives up reservations and writes. -/
inductive Removes (answer : Answers σ) (settings : Settings) (services : List Service) (state : σ) (listed : List Reservation)
    (loaded? last? : Option Config) (readied removed : σ) : List (σ × Call) → σ → Prop where
  | intro {opened after : σ} : effect answer state (Pass.listReservations settings) = (.ok listed, opened) →
      effect answer opened (loadGiven settings) = (.ok loaded?, readied) →
      effect answer readied (Pass.removeServices settings listed loaded? services) = (.ok last?, removed) →
      effect answer removed (Pass.saveIfChanged settings loaded? last?) = (.ok (), after) →
      Removes answer settings services state listed loaded? last? readied removed
        (made answer state (Pass.listReservations settings) ++ (made answer opened (loadGiven settings) ++
          (made answer readied (Pass.removeServices settings listed loaded? services) ++
            made answer removed (Pass.saveIfChanged settings loaded? last?)))) after

theorem remove_goes {batch : List Service} {state after : σ}
    (ok : effect answer state (Pass.services settings .remove batch) = (.ok (), after)) : ∃ listed loaded? last? readied removed,
      Removes answer settings (batch.filter (·.isLoadBalancer)) state listed loaded? last? readied removed
        (made answer state (Pass.services settings .remove batch)) after := by
  rw [effect_services] at ok
  rw [made_services]
  generalize batch.filter (·.isLoadBalancer) = services at ok ⊢
  obtain ⟨listed, opened, listing, rest⟩ := (effect_bind_ok answer).mp ok
  obtain ⟨loaded?, readied, loading, rest⟩ := (effect_bind_ok answer).mp rest
  obtain ⟨last?, removed, removing, saving⟩ := (effect_bind_ok answer).mp rest
  refine ⟨listed, loaded?, last?, readied, removed, ?_⟩
  rw [made_bind, listing]
  simp only
  rw [made_bind, loading]
  simp only
  rw [perform, made_bind, removing]
  exact .intro listing loading removing saving

section

variable {services : List Service} {state readied removed after : σ} {loaded? last? : Option Config} {calls : List (σ × Call)}

theorem removing_deletes : Makes [.delete] (Pass.removeServices settings listed loaded? services) :=
  makes_removeServices settings (by decide) listed loaded? services

variable (removes : Removes answer settings services state listed loaded? last? readied removed calls after)
include removes

theorem Removes.lists : (answer state (.listReservations settings.projectId)).1 = .ok listed := by
  cases removes with
  | intro listing => exact (listing_listed listing).2

theorem Removes.frees : (∀ service ∈ services, service.identity?.isSome = true) ∧
    ∃ freed, last? = loaded?.map (fun config => unmapped [] config (freed.map (·.cidr))) ∧
      Frees answer settings listed readied services freed
        (made answer readied (Pass.removeServices settings listed loaded? services)) removed := by
  cases removes with
  | intro _ _ removing =>
    have named := removeServices_named removing
    obtain ⟨freed, _, ran, frees⟩ := removeServices_frees named loaded? readied
    cases removing.symm.trans ran
    exact ⟨named, freed, rfl, frees⟩

theorem Removes.deletions : ofKind .delete calls = made answer readied (Pass.removeServices settings listed loaded? services) := by
  have lists : Makes [.list] (Pass.listReservations settings) := makes_listReservations settings (by decide)
  have loads : Makes [.load] (loadGiven settings) := makes_loadGiven settings (by decide)
  have saves : Makes [.patch] (Pass.saveIfChanged settings loaded? last?) := makes_saveIfChanged settings (by decide) loaded? last?
  have all : ofKind .delete (made answer readied (Pass.removeServices settings listed loaded? services)) =
      made answer readied (Pass.removeServices settings listed loaded? services) :=
    List.filter_eq_self.mpr fun _ member => decide_eq_true (List.mem_singleton.mp (removing_deletes.only member))
  cases removes with
  | intro =>
    rw [ofKind_append, ofKind_append, ofKind_append, lists.spares (by decide), loads.spares (by decide), saves.spares (by decide), all,
      List.nil_append, List.nil_append, List.append_nil]

theorem Removes.serves : Serves answer calls := by
  cases removes with
  | intro listing loading removing saving =>
    have lists : Serves answer (made answer state (Pass.listReservations settings)) := by
      rw [(listing_listed listing).1]
      exact serves_single.mpr rfl
    have deletes : Serves answer (made answer readied (Pass.removeServices settings listed loaded? services)) := by
      rintro ⟨before, call⟩ member
      have deletes := List.mem_singleton.mp (removing_deletes.only member)
      cases call with
      | deleteReservation id => rfl
      | _ => cases deletes
    have loads := (loadGiven_served settings).mp (isOk_iff.mpr ⟨_, congrArg Prod.fst loading⟩)
    have saves := (saveIfChanged_served settings _ _).mp (isOk_iff.mpr ⟨_, congrArg Prod.fst saving⟩)
    exact List.forall_mem_append.mpr ⟨lists, List.forall_mem_append.mpr ⟨loads, List.forall_mem_append.mpr ⟨deletes, saves⟩⟩⟩

theorem Removes.stored {location : Location} {document : σ → String} (store : Store answer location.name document)
    (located : settings.location = some location) : ∃ loaded, loaded? = some loaded ∧ Config.read (document state) = .ok loaded ∧
      ∀ config, last? = some config → Config.read (document after) = .ok config := by
  cases removes with
  | @intro opened _ listing loading removing saving =>
    obtain ⟨loaded, rfl, opens⟩ := loadGiven_ok answer opened located loading
    have loads : Makes [.load] (Pass.load location.name) := makes_load (by decide) location.name
    have stored := loaded_is_stored store opens
    refine ⟨loaded, rfl, store.listing listing ▸ stored, ?_⟩
    rintro config rfl
    -- Nothing is written before the end, so what was loaded is still what is stored.
    rw [← store.frame opens loads (by decide), ← store.frame removing removing_deletes (by decide)] at stored
    exact saved_is_stored store located stored saving

end

/-- What it takes for a pass that removes services to succeed, whichever deletions are refused. -/
structure Unhindered (answer : Answers σ) (settings : Settings) (batch : List Service) (state : σ) : Prop where
  lists : (answer state (.listReservations settings.projectId)).1.isOk = true
  named : ∀ service ∈ batch.filter (·.isLoadBalancer), service.identity?.isSome = true
  serves : Serves answer (made answer state (Pass.services settings .remove batch))

theorem remove_ok_iff {batch : List Service} {state : σ} :
    (effect answer state (Pass.services settings .remove batch)).1 = .ok () ↔ Unhindered answer settings batch state := by
  constructor
  · intro ok
    obtain ⟨_, _, _, _, _, removes⟩ := remove_goes (Prod.ext ok rfl)
    exact ⟨isOk_iff.mpr ⟨_, removes.lists⟩, removes.frees.1, removes.serves⟩
  · rintro ⟨lists, named, serves⟩
    rw [made_services] at serves
    rw [effect_services]
    generalize batch.filter (·.isLoadBalancer) = services at named serves ⊢
    obtain ⟨listed, answered⟩ := isOk_iff.mp lists
    have listing : effect answer state (Pass.listReservations settings) =
        (.ok listed, (answer state (.listReservations settings.projectId)).2) := by
      rw [Pass.listReservations, effect_ask_bind, effect_check, answered]
      rfl
    rw [made_bind, listing] at serves
    obtain ⟨_, serves⟩ := List.forall_mem_append.mp serves
    obtain ⟨loaded?, loads⟩ := isOk_iff.mp ((loadGiven_served settings).mpr fun entry member => serves entry (made_first answer entry member))
    have loading : effect answer _ (loadGiven settings) = (.ok loaded?, _) := Prod.ext loads rfl
    simp only at serves
    rw [made_bind, loading] at serves
    obtain ⟨_, serves⟩ := List.forall_mem_append.mp serves
    obtain ⟨freed, removed, removing, _⟩ := removeServices_frees named loaded? _
    simp only at serves
    rw [perform, made_bind, removing] at serves
    obtain ⟨_, serves⟩ := List.forall_mem_append.mp serves
    obtain ⟨⟨⟩, ok⟩ := isOk_iff.mp ((saveIfChanged_served settings _ _).mpr serves)
    rw [effect_then answer listing, effect_then answer loading, perform, effect_then answer removing]
    exact ok

/-- What a pass that removes services has done once it has succeeded. -/
structure Removal (answer : Answers σ) (settings : Settings) (services : List Service) (listed : List Reservation)
    (deletions : List (σ × Call)) (loaded config : Config) : Prop where
  /-- Each service gives up the first listed reservation that carries both tags, if there is one. -/
  asks : deletions.map Prod.snd = (reservedFor settings listed services).map (.deleteReservation ·.id)
  unmaps : Lessened ((givenUp answer (reservedFor settings listed services) deletions).map (·.cidr)) loaded config

theorem removal_exact {location : Location} {document : σ → String} (store : Store answer location.name document)
    (located : settings.location = some location) (batch : List Service) (state : σ) :
    ((effect answer state (Pass.services settings .remove batch)).1 = .ok () ↔ Unhindered answer settings batch state) ∧
    ((effect answer state (Pass.services settings .remove batch)).1 = .ok () →
      ∃ listed loaded config, (answer state (.listReservations settings.projectId)).1 = .ok listed ∧
        Config.read (document state) = .ok loaded ∧
        Config.read (document (effect answer state (Pass.services settings .remove batch)).2) = .ok config ∧
        Removal answer settings (batch.filter (·.isLoadBalancer)) listed
          (ofKind .delete (made answer state (Pass.services settings .remove batch))) loaded config) := by
  refine ⟨remove_ok_iff, fun ok => ?_⟩
  obtain ⟨listed, loaded?, last?, readied, removed, removes⟩ := remove_goes (Prod.ext ok rfl)
  obtain ⟨loaded, rfl, read, saved⟩ := removes.stored store located
  obtain ⟨_, freed, rfl, frees⟩ := removes.frees
  refine ⟨listed, loaded, _, removes.lists, read, saved _ rfl, ?_⟩
  rw [removes.deletions]
  refine ⟨frees.asks, ?_⟩
  rw [← frees.gives]
  exact lessened_unmapped loaded _

section

/-- One pool holds an address of each service and another one, two hold one of these alone, and one holds none. -/
def crowded : Config where
  pools := [Pass.poolOf ⟨"shop", "web"⟩ "10.0.0.1/32",
    { name := "shared", protocol := "layer2", addresses := ["10.0.0.2/32", "10.0.0.1/32", "10.9.9.9/32", "10.0.0.1/32"] },
    { name := "spare", protocol := "bgp" }, Pass.poolOf ⟨"shop", "api"⟩ "10.0.0.2/32"]

def api : Service := { web with metadata := { name := some "api", ns := some "shop" } }

/-- The one service is listed twice, and between the others is one that asks for no address. -/
def leaving : List Service := [api, { web with spec := none }, web, web]

/-- Both services have a reservation, of which one cannot be deleted, and one of them has another one. -/
def stuck : Memory where
  document := some crowded.write
  reservations := [⟨"r1", .v4 10 0 0 1, 32, [plain.providerTag, Identity.tag ⟨"shop", "web"⟩]⟩,
    ⟨"r2", .v4 10 0 0 2, 32, [Identity.tag ⟨"shop", "api"⟩, plain.providerTag]⟩,
    ⟨"r3", .v4 10 9 9 9, 32, [plain.providerTag, Identity.tag ⟨"shop", "web"⟩]⟩]
  faults := { deletions := ["r2"] }

theorem removal_exact_stuck :
    (effect Memory.answer stuck (Pass.services plain .remove leaving)).1 = .ok () ∧
      ∃ listed loaded config, (Memory.answer stuck (.listReservations plain.projectId)).1 = .ok listed ∧
        Config.read (stuck.document.getD "") = .ok loaded ∧
        Config.read ((effect Memory.answer stuck (Pass.services plain .remove leaving)).2.document.getD "") = .ok config ∧
        Removal Memory.answer plain (leaving.filter (·.isLoadBalancer)) listed
          (ofKind .delete (made Memory.answer stuck (Pass.services plain .remove leaving))) loaded config := by
  have located : plain.location = some ⟨"metallb-system", "config"⟩ := rfl
  have listing : effect Memory.answer stuck (Pass.listReservations plain) = (.ok stuck.reservations, { stuck with listed := 1 }) := rfl
  have loading : effect Memory.answer { stuck with listed := 1 } (loadGiven plain) = (.ok (some crowded), { stuck with listed := 1 }) :=
    loads_written located rfl
  have performs : (effect Memory.answer { stuck with listed := 1 }
      (perform plain .remove stuck.reservations (some crowded) (leaving.filter (·.isLoadBalancer)))).1 = .ok () := by decide +kernel
  have ok : (effect Memory.answer stuck (Pass.services plain .remove leaving)).1 = .ok () := by
    rw [effect_services, effect_then _ listing, effect_then _ loading]
    exact performs
  have settled := removal_exact (store_memory "config") located leaving stuck
  exact ⟨ok, settled.2 ok⟩

end

end PeerPool.Proofs.PartialRemovals
