import Mathlib.Data.List.Nodup
import PeerPool.Proofs.ConfigRoundTrip
import PeerPool.Proofs.Holdings
import PeerPool.Proofs.PassPools

/-! What a synchronizing pass that succeeds has brought about. It edits a configuration and
a registry that may hold anything at all, from two listings between which it reserves
addresses itself. In the end the pools hold what it found or reserved for the services and
nothing else, and of the reservations only those are gone that it made for no service. -/

namespace PeerPool.Proofs.Synchronized
open PassLogic PassDocument PassServices PassCalls PassPools PoolEdits Holdings Sites Provider Cluster

variable {σ : Type} {answer : Answers σ} {settings : Settings}

/-- How calls act on the configuration that is stored under a name. -/
structure Store (answer : Answers σ) (name : String) (document : σ → String) : Prop where
  loads : ∀ state text, (answer state (.loadDocument name)).1 = .ok text → text = document state
  patches : ∀ state text, (answer state (.patchDocument name (configPatch text))).1 = .ok () →
    document (answer state (.patchDocument name (configPatch text))).2 = text
  keeps : ∀ state call, kind call ≠ .patch → document (answer state call).2 = document state

/-- A document that was written as a configuration loads as that. -/
theorem loads_written {location : Location} (located : settings.location = some location) {config : Config} {state after : σ}
    (found : answer state (.loadDocument location.name) = (.ok config.write, after)) :
    effect answer state (loadGiven settings) = (.ok (some config), after) := by
  rw [loadGiven_eq located, effect_then answer (effect_load_ok answer state location.name config found (ConfigRoundTrip.read_write config))]
  rfl

/-- How calls act on the reservations, but for those that make new ones. -/
structure Inventory (answer : Answers σ) (reservations : σ → List Reservation) : Prop extends Holds answer reservations where
  deletes : ∀ state id, (answer state (.deleteReservation id)).1 = .ok () →
    reservations (answer state (.deleteReservation id)).2 = (reservations state).filter (·.id != id)

theorem store_site (offers : Nat → Offer) (name missing : String) :
    Store (Site.answer offers) name (·.document.getD missing) where
  loads state text answered := by
    simp only [Site.answer, Site.load] at answered
    cases stored : state.document with
    | none =>
      rw [stored] at answered
      cases answered
    | some found =>
      rw [stored] at answered
      exact (Except.ok.inj answered).symm
  patches state text answered := by
    simp only [Site.answer]
    rw [ConfigRoundTrip.patchDocument_configPatch]
    rfl
  keeps state call other := by
    cases call with
    | patchDocument name patch => exact absurd rfl other
    | updateService service =>
      simp only [Site.answer, Site.update]
      split <;> rfl
    | _ => rfl

theorem inventory_site (offers : Nat → Offer) : Inventory (Site.answer offers) Site.reservations where
  toHolds := holds_site offers
  deletes _ _ _ := rfl

/-- Every deletion among the calls succeeds. -/
def Deletes (answer : Answers σ) (calls : List (σ × Call)) : Prop :=
  ∀ before id, (before, .deleteReservation id) ∈ calls → (answer before (.deleteReservation id)).1 = .ok ()

/-- Services are added one after another, and these addresses come back for them. -/
inductive Adds (answer : Answers σ) (settings : Settings) (listed : List Reservation) :
    σ → Option Config → List Service → List String → Option Config → σ → Prop where
  | nil (state : σ) (config? : Option Config) : Adds answer settings listed state config? [] [] config? state
  | cons {state between after : σ} {config? last? : Option Config} {service : Service} {rest : List Service}
      {added : Pass.Added} {cidrs : List String} :
      effect answer state (Pass.addService settings listed config? service) = (.ok added, between) →
      Adds answer settings listed between added.config rest cidrs last? after →
      Adds answer settings listed state config? (service :: rest) (added.cidr.toList ++ cidrs) last? after

theorem addServices_adds {listed : List Reservation} {services : List Service} {config? last? : Option Config}
    {cidrs : List String} {state after : σ}
    (ok : effect answer state (Pass.addServices settings listed config? services) = (.ok (cidrs, last?), after)) :
    Adds answer settings listed state config? services cidrs last? after := by
  induction services generalizing state config? cidrs with
  | nil =>
    cases ok
    exact .nil state _
  | cons service rest ih =>
    obtain ⟨added, between, first, remaining⟩ := (effect_bind_ok answer).mp ok
    obtain ⟨⟨later, last?⟩, final, others, same⟩ := (effect_bind_ok answer).mp remaining
    rw [effect_pure] at same
    cases same
    exact .cons first (ih others)

theorem addService_maps {listed : List Reservation} {service : Service} {config : Config} {added : Pass.Added}
    {state after : σ} (ok : effect answer state (Pass.addService settings listed (some config) service) = (.ok added, after)) :
    ∃ final, added.config = some final ∧ Maps added.cidr.toList config final := by
  rw [addService_eq] at ok
  obtain ⟨identity, named, _, ok⟩ := (effect_bind_ok answer).mp ok
  obtain ⟨cidr?, found, _, ok⟩ := (effect_bind_ok answer).mp ok
  rw [effect_mapGiven] at ok
  cases ok
  exact mapped_maps identity cidr? config

theorem Adds.maps {listed : List Reservation} {services : List Service} {config? last? : Option Config}
    {cidrs : List String} {state after : σ} (adds : Adds answer settings listed state config? services cidrs last? after) :
    ∀ config, config? = some config → ∃ final, last? = some final ∧ Maps cidrs config final := by
  induction adds with
  | nil state config? =>
    intro config known
    exact ⟨config, known, .nil config⟩
  | cons first adds ih =>
    rintro config rfl
    obtain ⟨between, known, earlier⟩ := addService_maps first
    obtain ⟨final, last, later⟩ := ih between known
    exact ⟨final, last, earlier.append later⟩

/-- How a synchronizing pass went until it listed the reservations for the second time: the
configuration that it loaded, the addresses that came back for the services, and what it listed. -/
inductive Gathers (answer : Answers σ) (settings : Settings) (name : String) (state : σ) (services : List Service)
    (loaded : Config) (cidrs : List String) (current : List Reservation) : Prop where
  | intro {listed : List Reservation} {last? : Option Config} {opened readied added relisted : σ} :
      effect answer state (Pass.listReservations settings) = (.ok listed, opened) →
      effect answer opened (Pass.load name) = (.ok loaded, readied) →
      Adds answer settings listed readied (some loaded) services cidrs last? added →
      effect answer added (Pass.listReservations settings) = (.ok current, relisted) →
      Gathers answer settings name state services loaded cidrs current

/-- The reservation was made by the agent, and for none of the services of these tags. -/
def leftOver (settings : Settings) (tags : List String) (reservation : Reservation) : Bool :=
  reservation.tags.contains settings.providerTag && !tags.any reservation.tags.contains

theorem orphans_eq (tags : List String) (current : List Reservation) :
    Pass.orphans settings tags current = current.filter (leftOver settings tags) := by
  rw [Pass.orphans, filterByAnyTag, List.filter_filter]
  congr 1
  funext reservation
  simp [leftOver, Reservation.hasAnyTag, Bool.and_comm]

section

variable {location : Location} {document : σ → String} (store : Store answer location.name document)
include store

theorem Store.frame {α : Type} {pass : Pass α} {kinds : List Kind} {state after : σ} {result : Except PassError α}
    (ran : effect answer state pass = (result, after)) (makes : Makes kinds pass) (patches : .patch ∉ kinds) :
    document after = document state :=
  Makes.frame_except ran makes document patches store.keeps

theorem Store.listing {state after : σ} {result : Except PassError (List Reservation)}
    (ran : effect answer state (Pass.listReservations settings) = (result, after)) : document after = document state := by
  have lists : Makes [.list] (Pass.listReservations settings) := makes_listReservations settings (by decide)
  exact store.frame ran lists (by decide)

theorem loaded_is_stored {state after : σ} {loaded : Config}
    (ok : effect answer state (Pass.load location.name) = (.ok loaded, after)) : Config.read (document state) = .ok loaded := by
  rw [effect_load] at ok
  obtain ⟨result, _⟩ := Prod.mk.inj ok
  cases reply : (answer state (.loadDocument location.name)).1 with
  | error error =>
    rw [reply] at result
    cases result
  | ok text =>
    rw [reply] at result
    rw [← store.loads state text reply]
    exact mapError_ok.mp result

/-- Whether it had to be written or not, the configuration is the stored one afterwards. -/
theorem saved_is_stored (located : settings.location = some location) {state after : σ} {loaded config : Config} (before : Config.read (document state) = .ok loaded)
    (ok : effect answer state (Pass.saveIfChanged settings (some loaded) (some config)) = (.ok (), after)) :
    Config.read (document after) = .ok config := by
  simp only [Pass.saveIfChanged, located] at ok
  split at ok
  next same =>
    cases ok
    exact before.trans (congrArg Except.ok (Option.some.inj same))
  next =>
    rw [effect_save] at ok
    obtain ⟨result, rfl⟩ := Prod.mk.inj ok
    rw [store.patches state config.write (mapError_ok.mp result)]
    exact ConfigRoundTrip.read_write config

end

/-- Nothing is left that has the ID of an orphan, if every deletion succeeds. -/
theorem orphans_are_deleted {reservations : σ → List Reservation} (inventory : Inventory answer reservations)
    (orphans : List Reservation) {state : σ} (succeed : Deletes answer (made answer state (Pass.deleteOrphans orphans))) :
    reservations (effect answer state (Pass.deleteOrphans orphans)).2 =
      (reservations state).filter fun reservation => !(orphans.map (·.id)).contains reservation.id := by
  induction orphans generalizing state with
  | nil => simp [Pass.deleteOrphans]
  | cons orphan rest ih =>
    have made_cons : made answer state (Pass.deleteOrphans (orphan :: rest)) = (state, .deleteReservation orphan.id) ::
        made answer (answer state (.deleteReservation orphan.id)).2 (Pass.deleteOrphans rest) := by
      rw [Pass.deleteOrphans, made_ask_bind]
      split <;> rfl
    have effect_cons : effect answer state (Pass.deleteOrphans (orphan :: rest)) =
        effect answer (answer state (.deleteReservation orphan.id)).2 (Pass.deleteOrphans rest) := by
      rw [Pass.deleteOrphans, effect_ask_bind]
      split <;> rfl
    rw [made_cons] at succeed
    have gone := inventory.deletes state orphan.id (succeed state orphan.id (List.mem_cons_self ..))
    rw [effect_cons, ih fun before id member => succeed before id (List.mem_cons_of_mem _ member), gone, List.filter_filter]
    congr 1
    funext reservation
    rw [List.map_cons, List.contains_cons, Bool.not_or, Bool.and_comm]
    rfl

/-- Of reservations with different IDs, taking out the IDs of some takes out no others. -/
theorem filter_ids {current : List Reservation} (distinct : (current.map (·.id)).Nodup) (gone : Reservation → Bool) :
    (current.filter fun reservation => !((current.filter gone).map (·.id)).contains reservation.id) =
      current.filter (!gone ·) := by
  apply List.filter_congr
  intro reservation member
  have same : ((current.filter gone).map (·.id)).contains reservation.id = gone reservation := by
    rw [Bool.eq_iff_iff, List.contains_iff_mem, List.mem_map]
    constructor
    · rintro ⟨other, found, id⟩
      obtain ⟨known, isGone⟩ := List.mem_filter.mp found
      exact List.inj_on_of_nodup_map distinct known member id ▸ isGone
    · intro isGone
      exact ⟨reservation, List.mem_filter.mpr ⟨member, isGone⟩, rfl⟩
  rw [same]

/-- Of what is held, exactly the left-overs are gone, if every deletion succeeds. -/
theorem leftOvers_are_deleted {reservations : σ → List Reservation} (inventory : Inventory answer reservations)
    (tags : List String) {state : σ} (distinct : ((reservations state).map (·.id)).Nodup)
    (succeed : Deletes answer (made answer state (Pass.deleteOrphans (Pass.orphans settings tags (reservations state))))) :
    reservations (effect answer state (Pass.deleteOrphans (Pass.orphans settings tags (reservations state)))).2 =
      (reservations state).filter (!leftOver settings tags ·) := by
  rw [orphans_are_deleted inventory _ succeed, orphans_eq]
  exact filter_ids distinct (leftOver settings tags)

/-- Cleaning up takes out what is left over of the listing, if every deletion succeeds. -/
theorem cleanUp_deletes {reservations : σ → List Reservation} (inventory : Inventory answer reservations) {state after : σ}
    {loaded? config? : Option Config} {services : List Service} {cidrs : List String}
    (ok : effect answer state (cleanUp settings loaded? services (cidrs, config?)) = (.ok (), after)) :
    ∃ current relisted, effect answer state (Pass.listReservations settings) = (.ok current, relisted) ∧
      (Deletes answer (made answer state (cleanUp settings loaded? services (cidrs, config?))) →
        (current.map (·.id)).Nodup → reservations after = current.filter (!leftOver settings (tagsOf services) ·)) := by
  obtain ⟨current, relisted, lists, rest⟩ := (effect_bind_ok answer).mp ok
  unfold Pass.debug at rest
  rw [effect_say_bind, effect_say_bind] at rest
  obtain ⟨_, _, removes, rest⟩ := (effect_bind_ok answer).mp rest
  rw [effect_withoutStale] at removes
  cases removes
  obtain ⟨_, saved, saves, deletes⟩ := (effect_bind_ok answer).mp rest
  have saving (config? : Option Config) : Makes [.patch] (Pass.saveIfChanged settings loaded? config?) :=
    makes_saveIfChanged settings (by decide) loaded? config?
  refine ⟨current, relisted, lists, ?_⟩
  intro succeed distinct
  have kept : reservations saved = current := by
    rw [inventory.frame saves (saving _) (by decide) (by decide), inventory.listing lists]
    exact (inventory.listed lists).symm
  subst kept
  have deleted : Deletes answer (made answer saved (Pass.deleteOrphans (Pass.orphans settings (tagsOf services) (reservations saved)))) := by
    intro before id member
    apply succeed before id
    apply mem_made_bind answer lists
    unfold Pass.debug
    rw [made_say_bind, made_say_bind]
    apply mem_made_bind answer (effect_withoutStale answer relisted cidrs config?)
    exact mem_made_bind answer saves member
  have gone := leftOvers_are_deleted inventory (tagsOf services) distinct deleted
  rw [deletes] at gone
  exact gone

/-- Cleaning up leaves the valid addresses mapped. -/
theorem cleanUp_saves {location : Location} {document : σ → String} (store : Store answer location.name document)
    (located : settings.location = some location) {state after : σ} {services : List Service} {loaded final : Config}
    {cidrs : List String} (before : Config.read (document state) = .ok loaded)
    (ok : effect answer state (cleanUp settings (some loaded) services (cidrs, some final)) = (.ok (), after)) :
    Config.read (document after) = .ok (unmapped cidrs final final.poolAddresses) := by
  obtain ⟨current, relisted, lists, rest⟩ := (effect_bind_ok answer).mp ok
  unfold Pass.debug at rest
  rw [effect_say_bind, effect_say_bind] at rest
  obtain ⟨_, _, removes, rest⟩ := (effect_bind_ok answer).mp rest
  rw [effect_withoutStale] at removes
  cases removes
  obtain ⟨_, saved, saves, deletes⟩ := (effect_bind_ok answer).mp rest
  have deleting (orphans : List Reservation) : Makes [.delete] (Pass.deleteOrphans orphans) :=
    makes_deleteOrphans (by decide) orphans
  rw [store.frame deletes (deleting _) (by decide)]
  rw [← store.listing lists] at before
  exact saved_is_stored store located before saves

/-- The pools hold the addresses that came back for the services, each wherever it was put,
and the rest of the configuration is as it was loaded. If every deletion succeeds, the
reservations are those of the second listing without the ones that are left over. -/
theorem synchronized {location : Location} {document : σ → String} {reservations : σ → List Reservation}
    (store : Store answer location.name document) (inventory : Inventory answer reservations)
    (located : settings.location = some location) (batch : List Service) (state after : σ)
    (ok : effect answer state (Pass.services settings .sync batch) = (.ok (), after)) :
    ∃ loaded cidrs current,
      Gathers answer settings location.name state (batch.filter (·.isLoadBalancer)) loaded cidrs current ∧
      Config.read (document state) = .ok loaded ∧
      (∃ config, Config.read (document after) = .ok config ∧ (∀ address, address ∈ config.poolAddresses ↔ address ∈ cidrs) ∧
        config.peers = loaded.peers ∧ config.communities = loaded.communities) ∧
      (Deletes answer (made answer state (Pass.services settings .sync batch)) → (current.map (·.id)).Nodup →
        reservations after = current.filter (!leftOver settings (tagsOf (batch.filter (·.isLoadBalancer))) ·)) := by
  rw [effect_services] at ok
  rw [made_services]
  generalize batch.filter (·.isLoadBalancer) = services at ok ⊢
  obtain ⟨listed, opened, lists, rest⟩ := (effect_bind_ok answer).mp ok
  obtain ⟨loaded?, readied, loads, rest⟩ := (effect_bind_ok answer).mp rest
  obtain ⟨loaded, rfl, opens⟩ := loadGiven_ok answer opened located loads
  rw [perform, syncServices_eq] at rest
  obtain ⟨⟨cidrs, last?⟩, added, adds, cleans⟩ := (effect_bind_ok answer).mp rest
  have adding := addServices_adds adds
  obtain ⟨final, known, maps⟩ := adding.maps loaded rfl
  cases known
  -- Up to the second listing nothing is written, so what was loaded is still what is stored.
  have unopened : document opened = document state := store.listing lists
  have unread : document readied = document opened := by
    have loading : Makes [.load] (Pass.load location.name) := makes_load (by decide) location.name
    exact store.frame opens loading (by decide)
  have unadded : document added = document readied := by
    have calls : Makes [.create, .get, .update] (Pass.addServices settings listed (some loaded) services) :=
      makes_addServices settings (by decide) (by decide) (by decide) listed (some loaded) services
    exact store.frame adds calls (by decide)
  have stored := loaded_is_stored store opens
  have still : Config.read (document added) = .ok loaded := by rw [unadded, unread, stored]
  obtain ⟨current, relisted, relists, deleted⟩ := cleanUp_deletes inventory cleans
  have saved := cleanUp_saves store located still cleans
  refine ⟨loaded, cidrs, current, .intro lists opens adding relists, unopened ▸ stored, ?_, ?_⟩
  · have same := unmapped_same final cidrs final.poolAddresses
    refine ⟨_, saved, fun address => mem_unmapped_maps maps, ?_, ?_⟩
    · exact same.peers.trans maps.same.peers
    · exact same.communities.trans maps.same.communities
  · intro succeed distinct
    apply deleted _ distinct
    intro before id member
    apply succeed before id
    apply mem_made_bind answer lists
    apply mem_made_bind answer loads
    rw [perform, syncServices_eq]
    exact mem_made_bind answer adds member

section

def staleConfig : Config := { pools := [{ name := "shop/old", protocol := "bgp", addresses := ["10.0.0.1/32"] }] }

/-- A service that has its address, the pool of another service that is gone, a reservation
that was made for none, and one that is not the agent's. -/
def staleSite : Site where
  document := some staleConfig.write
  services := [web.assign "10.0.0.7"]
  reservations := [⟨"old", .v4 10 0 0 1, 32, [plain.providerTag]⟩, ⟨"foreign", .v4 10 0 0 2, 32, []⟩]

theorem synchronized_web :
    ∃ after, effect (Site.answer counted) staleSite (Pass.services plain .sync staleSite.services) = (.ok (), after) ∧
    ∃ loaded cidrs current,
      Gathers (Site.answer counted) plain "config" staleSite (staleSite.services.filter (·.isLoadBalancer))
        loaded cidrs current ∧
      Config.read (staleSite.document.getD "") = .ok loaded ∧
      (∃ config, Config.read (after.document.getD "") = .ok config ∧
        (∀ address, address ∈ config.poolAddresses ↔ address ∈ cidrs) ∧
        config.peers = loaded.peers ∧ config.communities = loaded.communities) ∧
      (Deletes (Site.answer counted) (made (Site.answer counted) staleSite (Pass.services plain .sync staleSite.services)) →
        (current.map (·.id)).Nodup →
        after.reservations = current.filter (!leftOver plain (tagsOf (staleSite.services.filter (·.isLoadBalancer))) ·)) := by
  have ok : (effect (Site.answer counted) staleSite (Pass.services plain .sync staleSite.services)).1 = .ok () := by
    decide +kernel
  have located : plain.location = some ⟨"metallb-system", "config"⟩ := rfl
  have store : Store (Site.answer counted) "config" (·.document.getD "") := store_site counted "config" ""
  generalize ran : effect (Site.answer counted) staleSite (Pass.services plain .sync staleSite.services) = result at ok
  obtain ⟨reply, after⟩ := result
  cases ok
  have settled := synchronized store (inventory_site counted) located staleSite.services staleSite after ran
  exact ⟨after, rfl, settled⟩

end

end PeerPool.Proofs.Synchronized
