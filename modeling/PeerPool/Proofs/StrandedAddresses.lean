import PeerPool.Proofs.Removals
import PeerPool.Proofs.WrittenOnce

/-! Removing services again after the configuration could not be written. The pass that failed
has given up reservations by then, and the pass that follows finds the addresses to unmap by
nothing but the reservations. So what was given up and not written stays mapped for good. -/

namespace PeerPool.Proofs.StrandedAddresses
open PassLogic PassDocument PassServices PassCalls PoolEdits PoolRemovals Synchronized Drifts Coverage WrittenOnce Removals
open Sites PeersSynchronized Simulation Provider Cluster

variable {σ : Type} {answer : Answers σ} {settings : Settings}

theorem refused_save {location : Location} (located : settings.location = some location) {loaded config : Config}
    {state before : σ} {name : String} {patch : Json} {refusal : StoreError}
    (asked : (before, .patchDocument name patch) ∈ made answer state (Pass.saveIfChanged settings (some loaded) (some config)))
    (refused : (answer before (.patchDocument name patch)).1 = .error refusal) :
    loaded ≠ config ∧ before = state ∧
      effect answer state (Pass.saveIfChanged settings (some loaded) (some config)) =
        (.error (.documentStore refusal), (answer before (.patchDocument name patch)).2) := by
  simp only [Pass.saveIfChanged, located] at asked ⊢
  by_cases same : some loaded = some config
  · rw [if_pos same] at asked
    cases asked
  · -- The only call is the writing, and its refusal is the outcome.
    rw [if_neg same, made_save] at asked
    cases List.mem_singleton.mp asked
    rw [if_neg same, effect_save, refused]
    exact ⟨fun equal => same (congrArg some equal), rfl, rfl⟩

section

variable {location : Location} (located : settings.location = some location) {batch : List Service} {state before : σ} {name : String}
  {patch : Json} {refusal : StoreError}
  (asked : (before, .patchDocument name patch) ∈ made answer state (Pass.services settings .remove batch))
  (refused : (answer before (.patchDocument name patch)).1 = .error refusal)
include located asked refused

/-- A removal whose outcome could not be written had got as far as that, and failed of it. -/
theorem refused_remove :
    ∃ listed opened loaded readied config, effect answer state (Pass.listReservations settings) = (.ok listed, opened) ∧
      effect answer opened (Pass.load location.name) = (.ok loaded, readied) ∧
      effect answer readied (Pass.removeServices settings listed (some loaded) (batch.filter (·.isLoadBalancer))) =
        (.ok (some config), before) ∧
      loaded ≠ config ∧ effect answer state (Pass.services settings .remove batch) =
        (.error (.documentStore refusal), (answer before (.patchDocument name patch)).2) := by
  have lists : Makes [.list] (Pass.listReservations settings) := makes_listReservations settings (by decide)
  have loads : Makes [.load] (loadGiven settings) := makes_loadGiven settings (by decide)
  rw [made_services] at asked
  rw [effect_services]
  generalize batch.filter (·.isLoadBalancer) = services at asked ⊢
  obtain ⟨listed, opened, listing, asked⟩ := lists.behind (by simp [kind]) asked
  obtain ⟨loaded?, readied, opens, asked⟩ := loads.behind (by simp [kind]) asked
  obtain ⟨loaded, rfl, loading⟩ := loadGiven_ok answer opened located opens
  have removes : Makes [.delete] (Pass.removeServices settings listed (some loaded) services) :=
    makes_removeServices settings (by decide) listed (some loaded) services
  obtain ⟨config?, removed, removing, asked⟩ := removes.behind (by simp [kind]) asked
  obtain ⟨config, rfl⟩ := Option.isSome_iff_exists.mp (removeServices_some removing)
  obtain ⟨changed, rfl, failed⟩ := refused_save located asked refused
  refine ⟨listed, opened, loaded, readied, config, listing, loading, removing, changed, ?_⟩
  rw [effect_then _ listing, effect_then _ opens, perform, effect_then _ removing]
  exact failed

end

theorem reservedFor_listed {listed : List Reservation} {services : List Service} {reservation : Reservation}
    (member : reservation ∈ reservedFor settings listed services) : reservation ∈ listed := by
  obtain ⟨service, _, found⟩ := List.mem_filterMap.mp member
  obtain ⟨identity, _, owned⟩ := Option.bind_eq_some_iff.mp found
  exact List.mem_of_find?_eq_some owned

theorem given_up {held gone : List Reservation} (apart : (held.map (·.cidr)).Nodup) {reservation : Reservation}
    (member : reservation ∈ gone) (known : reservation ∈ held) : reservation.cidr ∉ (without held gone).map (·.cidr) := by
  intro found
  obtain ⟨other, still, same⟩ := List.mem_map.mp found
  obtain ⟨inside, kept⟩ := List.mem_filter.mp still
  have equal : other = reservation := List.inj_on_of_nodup_map apart inside known same
  subst equal
  have contained : (gone.map (·.id)).contains other.id = true := by
    rw [List.contains_iff_mem]
    exact List.mem_map_of_mem member
  rw [contained] at kept
  cases kept

/-- Where giving up reservations leaves something to write, an address is mapped of which no reservation is left. -/
theorem mapped_given_up {held gone : List Reservation} (apart : (held.map (·.cidr)).Nodup) (within : gone ⊆ held) {loaded : Config}
    (changed : loaded ≠ unmapped [] loaded (gone.map (·.cidr))) :
    ∃ reservation ∈ gone, reservation.cidr ∈ loaded.poolAddresses ∧ reservation.cidr ∉ (without held gone).map (·.cidr) := by
  obtain ⟨_, mapped, found⟩ := unmapped_differs loaded changed
  obtain ⟨reservation, member, rfl⟩ := List.mem_map.mp found
  exact ⟨reservation, member, mapped, given_up apart member (within member)⟩

/-- What a removal that could not be written leaves behind. -/
structure Halts (document : σ → String) (reservations : σ → List Reservation) (settings : Settings) (services : List Service)
    (state halted : σ) (loaded : Config) (freed : List Reservation) : Prop where
  read : Config.read (document state) = .ok loaded
  named : ∀ service ∈ services, service.identity?.isSome = true
  unwritten : document halted = document state
  within : freed.Sublist (reservedFor settings (reservations state) services)
  remains : reservations halted = without (reservations state) freed
  changed : loaded ≠ unmapped [] loaded (freed.map (·.cidr))

section

variable {document : σ → String} {reservations : σ → List Reservation} {location : Location}
  (store : Store answer location.name document) (ledger : Ledger answer reservations)
include store ledger

theorem refused_halts (guards : Guards answer document) (located : settings.location = some location) {batch : List Service}
    {state before : σ} {name : String} {patch : Json} {refusal : StoreError}
    (asked : (before, .patchDocument name patch) ∈ made answer state (Pass.services settings .remove batch))
    (refused : (answer before (.patchDocument name patch)).1 = .error refusal) :
    (effect answer state (Pass.services settings .remove batch)).1 = .error (.documentStore refusal) ∧
      ∃ loaded freed, Halts document reservations settings (batch.filter (·.isLoadBalancer)) state
        (effect answer state (Pass.services settings .remove batch)).2 loaded freed := by
  obtain ⟨listed, opened, loaded, readied, config, listing, loading, removing, changed, failed⟩ :=
    refused_remove located asked refused
  have loads : Makes [.load] (Pass.load location.name) := makes_load (by decide) location.name
  have shown : listed = reservations state := ledger.listed listing
  subst shown
  have read : Config.read (document state) = .ok loaded := by
    rw [← store.listing listing]
    exact loaded_is_stored store loading
  have named := removeServices_named removing
  obtain ⟨freed, removed, ran, frees⟩ := removeServices_frees named (some loaded) readied
  cases removing.symm.trans ran
  have removes : Makes [.delete] (Pass.removeServices settings (reservations state) (some loaded) (batch.filter (·.isLoadBalancer))) :=
    makes_removeServices settings (by decide) _ _ _
  have unwritten : document (answer before (.patchDocument name patch)).2 = document state := by
    rw [guards.refuses before name patch refusal refused, store.frame removing removes (by decide),
      store.frame loading loads (by decide), store.listing listing]
  -- The calls that come before it gives up reservations leave all of them in place, and so does the one after.
  have untouched : reservations readied = reservations state := by
    rw [ledger.frame loading loads (by decide) (by decide), ledger.listing listing]
  have remains : reservations (answer before (.patchDocument name patch)).2 = without (reservations state) freed := by
    rw [ledger.keeps before _ (by simp [kind]) (by simp [kind]), frees.remaining ledger, untouched]
  rw [failed]
  exact ⟨rfl, loaded, freed, read, named, unwritten, frees.within, remains, changed⟩

end

/-- How a removal that is made again ends, after one that could not be written, and how the first
would have ended without that. -/
structure Reruns (document : σ → String) (reservations : σ → List Reservation) (settings : Settings) (services : List Service)
    (state halted rerun uninterrupted : σ) (loaded : Config) (freed : List Reservation) : Prop where
  read : Config.read (document state) = .ok loaded
  /-- The pass that failed has written nothing, but given up some of what the services had reserved. -/
  unwritten : document halted = document state
  within : freed.Sublist (reservedFor settings (reservations state) services)
  remains : reservations halted = without (reservations state) freed
  reruns : Config.read (document rerun) =
    .ok (unmapped [] loaded ((reservedFor settings (reservations halted) services).map (·.cidr)))
  completes : Config.read (document uninterrupted) =
    .ok (unmapped [] loaded ((reservedFor settings (reservations state) services).map (·.cidr)))
  agree : Config.read (document rerun) = Config.read (document uninterrupted) ↔ ∀ address ∈ loaded.poolAddresses,
    address ∈ (reservedFor settings (reservations halted) services).map (·.cidr) ↔
      address ∈ (reservedFor settings (reservations state) services).map (·.cidr)
  /-- If no two reservations are for the same addresses, the two always differ: an address stays mapped of which no
  reservation is left. -/
  strands : ((reservations state).map (·.cidr)).Nodup → ∃ reservation ∈ freed, reservation ∉ reservations rerun ∧
    Mapped (document rerun) reservation.cidr ∧ ¬ Mapped (document uninterrupted) reservation.cidr

theorem removal_strands {document : σ → String} {reservations : σ → List Reservation} {location : Location}
    (store : Store answer location.name document) (ledger : Ledger answer reservations) (guards : Guards answer document)
    (located : settings.location = some location) {batch : List Service} {state before resumed begun : σ} {name : String}
    {patch : Json} {refusal : StoreError}
    (asked : (before, .patchDocument name patch) ∈ made answer state (Pass.services settings .remove batch))
    (refused : (answer before (.patchDocument name patch)).1 = .error refusal)
    (resumes : holdings document reservations resumed =
      holdings document reservations (effect answer state (Pass.services settings .remove batch)).2)
    (resumedGrants : Grants answer resumed (Pass.services settings .remove batch))
    (begins : holdings document reservations begun = holdings document reservations state)
    (begunGrants : Grants answer begun (Pass.services settings .remove batch)) :
    (effect answer state (Pass.services settings .remove batch)).1 = .error (.documentStore refusal) ∧
      (effect answer resumed (Pass.services settings .remove batch)).1 = .ok () ∧
      (effect answer begun (Pass.services settings .remove batch)).1 = .ok () ∧
      ∃ loaded freed, Reruns document reservations settings (batch.filter (·.isLoadBalancer)) state
        (effect answer state (Pass.services settings .remove batch)).2
        (effect answer resumed (Pass.services settings .remove batch)).2
        (effect answer begun (Pass.services settings .remove batch)).2 loaded freed := by
  obtain ⟨failed, loaded, freed, halts⟩ := refused_halts store ledger guards located asked refused
  generalize (effect answer state (Pass.services settings .remove batch)).2 = halted at halts resumes ⊢
  obtain ⟨resumedDocument, resumedReservations⟩ := Prod.mk.inj resumes
  obtain ⟨begunDocument, begunReservations⟩ := Prod.mk.inj begins
  obtain ⟨_, resumedOk, resumedReads, resumedHolds⟩ := granted_remove store ledger located halts.named
    ((congrArg Config.read (resumedDocument.trans halts.unwritten)).trans halts.read) resumedGrants
  obtain ⟨_, begunOk, begunReads, _⟩ := granted_remove store ledger located halts.named
    ((congrArg Config.read begunDocument).trans halts.read) begunGrants
  rw [resumedReservations] at resumedReads resumedHolds
  rw [begunReservations] at begunReads
  refine ⟨failed, resumedOk, begunOk, loaded, freed,
    ⟨halts.read, halts.unwritten, halts.within, halts.remains, resumedReads, begunReads, ?_, ?_⟩⟩
  · rw [resumedReads, begunReads, Except.ok.injEq]
    exact unmapped_eq_iff loaded
  · intro apart
    have within : freed ⊆ reservations state := fun _ member => reservedFor_listed (halts.within.subset member)
    obtain ⟨reservation, member, mapped, gone⟩ := mapped_given_up apart within halts.changed
    -- The rerun unmaps what is reserved by then, and this address is not among it.
    rw [← halts.remains] at gone
    refine ⟨reservation, member, ?_, ⟨_, resumedReads, ?_⟩, ?_⟩
    · intro held
      rw [resumedHolds] at held
      exact gone (List.mem_map_of_mem (List.mem_filter.mp held).1)
    · refine (mem_unmapped_all loaded _).mpr ⟨mapped, fun found => ?_⟩
      obtain ⟨other, known, same⟩ := List.mem_map.mp found
      exact gone (List.mem_map.mpr ⟨other, reservedFor_listed known, same⟩)
    · rintro ⟨_, reads, inside⟩
      cases begunReads.symm.trans reads
      exact ((mem_unmapped_all loaded _).mp inside).2 (List.mem_map_of_mem (halts.within.subset member))

section

theorem ledger_memory : Ledger Memory.answer (·.reservations) where
  lists state project listed answered := by
    simp only [Memory.answer, Memory.list] at answered
    split at answered
    · cases answered
    · exact (Except.ok.inj answered).symm
  keeps state call creates deletes := by
    cases call with
    | createReservation project request => exact absurd rfl creates
    | deleteReservation id => exact absurd rfl deletes
    | patchDocument name patch =>
      simp only [Memory.answer]
      split <;> rfl
    | updateService service =>
      simp only [Memory.answer, Memory.update]
      split <;> rfl
    | _ => rfl
  deletes state id answered := by
    simp only [Memory.answer, Memory.delete] at answered ⊢
    split at answered
    · cases answered
    next accepted => rw [if_neg accepted]
  refuses state id error answered := by
    simp only [Memory.answer, Memory.delete] at answered ⊢
    split at answered
    next refused => rw [if_pos refused]
    · cases answered

/-- A service with an address that is reserved and mapped, where nothing can be written. -/
def frozen : Memory where
  document := some ({ pools := [Pass.poolOf ⟨"shop", "web"⟩ "10.0.0.1/32"] } : Config).write
  reservations := [⟨"r1", .v4 10 0 0 1, 32, [Identity.tag ⟨"shop", "web"⟩, plain.providerTag]⟩]
  faults := { patch := true }

def removal : Pass Unit := Pass.services plain .remove [web]

def halted : Memory := (effect Memory.answer frozen removal).2

def thawed (memory : Memory) : Memory := { memory with faults := {} }

theorem frozen_refuses : ∃ before name patch refusal, (before, .patchDocument name patch) ∈ made Memory.answer frozen removal ∧
    (Memory.answer before (.patchDocument name patch)).1 = .error refusal := by
  have asked : ∃ entry ∈ made Memory.answer frozen removal, kind entry.2 = .patch ∧ entry.1.faults.patch = true := by decide +kernel
  obtain ⟨⟨before, call⟩, member, patches, refuses⟩ := asked
  cases call with
  | patchDocument name patch => exact ⟨before, name, patch, _, member, by rw [Memory.answer, if_pos refuses]⟩
  | _ => cases patches

theorem thawed_grants : Grants Memory.answer (thawed halted) removal ∧ Grants Memory.answer (thawed frozen) removal := by
  decide +kernel

theorem removal_strands_web : ∃ refusal loaded freed,
    (effect Memory.answer frozen removal).1 = .error (.documentStore refusal) ∧
      (effect Memory.answer (thawed halted) removal).1 = .ok () ∧ (effect Memory.answer (thawed frozen) removal).1 = .ok () ∧
      Reruns (·.document.getD "") (·.reservations) plain [web] frozen halted (effect Memory.answer (thawed halted) removal).2
        (effect Memory.answer (thawed frozen) removal).2 loaded freed := by
  obtain ⟨before, name, patch, refusal, asked, refused⟩ := frozen_refuses
  have located : plain.location = some ⟨"metallb-system", "config"⟩ := rfl
  obtain ⟨again, anew⟩ := thawed_grants
  have guards : Guards Memory.answer (·.document.getD "") := ⟨(store_memory "config").keeps,
    fun state name patch error answered => congrArg (·.getD "") (guards_memory.refuses state name patch error answered)⟩
  have resumes : holdings (·.document.getD "") Memory.reservations (thawed halted) =
      holdings (·.document.getD "") Memory.reservations halted := rfl
  have begins : holdings (·.document.getD "") Memory.reservations (thawed frozen) =
      holdings (·.document.getD "") Memory.reservations frozen := rfl
  obtain ⟨failed, resumed, begun, loaded, freed, reruns⟩ :=
    removal_strands (store_memory "config") ledger_memory guards located asked refused resumes again begins anew
  exact ⟨refusal, loaded, freed, failed, resumed, begun, reruns⟩

/-- Nothing unmaps the address any more when the removal is made again. -/
theorem rerun_leaves_mapped :
    (∃ before name patch refusal, (before, .patchDocument name patch) ∈ made Memory.answer frozen removal ∧
      (Memory.answer before (.patchDocument name patch)).1 = .error refusal ∧
      (effect Memory.answer frozen removal).1 = .error (.documentStore refusal)) ∧
    (Grants Memory.answer (thawed halted) removal ∧ Grants Memory.answer (thawed frozen) removal) ∧
    Mapped ((effect Memory.answer (thawed halted) removal).2.document.getD "") "10.0.0.1/32" ∧
    ¬ Mapped ((effect Memory.answer (thawed frozen) removal).2.document.getD "") "10.0.0.1/32" := by
  refine ⟨?_, thawed_grants, by decide +kernel⟩
  obtain ⟨before, name, patch, refusal, asked, refused⟩ := frozen_refuses
  have located : plain.location = some ⟨"metallb-system", "config"⟩ := rfl
  obtain ⟨_, _, _, _, _, _, _, _, _, failed⟩ := refused_remove located asked refused
  exact ⟨before, name, patch, refusal, asked, refused, congrArg Prod.fst failed⟩

end

end PeerPool.Proofs.StrandedAddresses
