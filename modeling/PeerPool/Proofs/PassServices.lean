import PeerPool.Pass.Services
import PeerPool.Proofs.PassDocument

/-! Passes over services as sequences of parts, each of which has properties of its own.
The parts are where a pass does one thing or another and goes on in the same way. -/

namespace PeerPool.Proofs.PassServices
open PassLogic Cluster Provider

variable (settings : Settings)

/-- The reservation that a service goes by: its own, or else a new one. -/
def reservationFor (listed : List Reservation) (identity : Identity) : Pass (Option Reservation) :=
  match Pass.owned? settings identity listed with
  | some reservation => do
    Pass.debug s!"Reusing reservation {reservation.write} for '{identity.write}'"
    return some reservation
  | none => Pass.reserve settings identity

/-- Tells a service the address of its reservation, if it has one. -/
def tellAddress (identity : Identity) : Option Reservation → Pass (Option String)
  | none => pure none
  | some reservation => do
    Pass.assign identity reservation.address
    return some reservation.cidr

/-- The address of a service that has one already. -/
def knownCidr (owned : Option Reservation) (address : String) : String :=
  address ++ "/" ++ String.ofList (Text.decimal
    (((Pass.matching? address owned).map (·.prefixLength)).getD Pass.hostPrefixLength).toNat)

theorem addressOf_eq (listed : List Reservation) (service : Service) (identity : Identity) :
    Pass.addressOf settings listed service identity =
      match service.assignedAddress? with
      | some address => do
        Pass.debug s!"Service '{identity.write}' already has address {address}"
        return some (knownCidr (Pass.owned? settings identity listed) address)
      | none => reservationFor settings listed identity >>= tellAddress identity := by
  unfold Pass.addressOf reservationFor
  cases service.assignedAddress? with
  | some address => rfl
  | none =>
    have told : (fun reservation? : Option Reservation => match reservation? with
        | none => pure none
        | some reservation => do
          Pass.assign identity reservation.address
          return some reservation.cidr) = tellAddress identity := by
      funext reservation?
      cases reservation? <;> rfl
    rw [← told]
    cases Pass.owned? settings identity listed with
    | some reservation => simp only [bind_assoc, pure_bind]
    | none => rfl

/-- A service that owns none of the reservations owns a new one that has its tags. -/
theorem owned_append {settings : Settings} {identity : Identity} {held : List Reservation} {created : Reservation}
    (unowned : Pass.owned? settings identity held = none) (tagged : created.hasAllTags [identity.tag, settings.providerTag] = true) :
    Pass.owned? settings identity (held ++ [created]) = some created := by
  rw [Pass.owned?, findByAllTags?] at unowned ⊢
  rw [List.find?_append, unowned]
  simp [tagged]

/-- Maps the address of a service, where there are both an address and a configuration. -/
def mapGiven (identity : Identity) (cidr? : Option String) (config : Option Config) : Pass Pass.Added :=
  match cidr?, config with
  | some cidr, some config => do
    let mapped ← Pass.mapAddress identity cidr config
    return ⟨some cidr, some mapped⟩
  | _, _ => pure ⟨cidr?, config⟩

theorem addService_eq (listed : List Reservation) (config : Option Config) (service : Service) :
    Pass.addService settings listed config service =
      Pass.identityOf service >>= fun identity =>
        Pass.addressOf settings listed service identity >>= fun cidr? => mapGiven identity cidr? config := by
  unfold Pass.addService
  congr 1
  funext identity
  congr 1
  funext cidr?
  cases cidr? <;> cases config <;> rfl

theorem identityOf_known {service : Service} {identity : Identity} (known : service.identity? = some identity) :
    Pass.identityOf service = pure identity := by rw [Pass.identityOf, known]

theorem addService_known {settings : Settings} {listed : List Reservation} {config? : Option Config} {service : Service}
    {identity : Identity} (known : service.identity? = some identity) : Pass.addService settings listed config? service =
      Pass.addressOf settings listed service identity >>= fun cidr? => mapGiven identity cidr? config? := by
  rw [addService_eq, identityOf_known known, pure_bind]

/-- The batch of a service that asks for an address. -/
theorem filter_asking {service : Service} (asks : service.isLoadBalancer = true) :
    [service].filter (·.isLoadBalancer) = [service] := by simp [asks]

/-- The tags of the services that have a name. -/
def tagsOf (services : List Service) : List String := (services.filterMap Service.identity?).map Identity.tag

theorem tagsOf_cons {service : Service} {identity : Identity} (known : service.identity? = some identity) (rest : List Service) :
    tagsOf (service :: rest) = identity.tag :: tagsOf rest := by
  simp [tagsOf, known]

theorem mem_tagsOf {services : List Service} {service : Service} (member : service ∈ services) {identity : Identity}
    (known : service.identity? = some identity) : identity.tag ∈ tagsOf services :=
  List.mem_map_of_mem (List.mem_filterMap.mpr ⟨service, member, known⟩)

/-- No two services of the batch that ask for an address have the same tag. -/
def Distinct (batch : List Service) : Prop := (tagsOf (batch.filter (·.isLoadBalancer))).Nodup

instance (batch : List Service) : Decidable (Distinct batch) :=
  inferInstanceAs (Decidable (tagsOf (batch.filter (·.isLoadBalancer))).Nodup)

theorem distinct_single (service : Service) : Distinct [service] := by
  unfold Distinct tagsOf
  rw [List.filter_cons, List.filter_nil]
  cases service.isLoadBalancer with
  | false => exact List.nodup_nil
  | true =>
    rw [if_pos rfl, List.filterMap_cons, List.filterMap_nil]
    cases service.identity? <;> simp

/-- What does not start like the tag of a service is the tag of none. -/
theorem tag_ne {text : String} (foreign : ¬ Identity.tagStart.toList <+: text.toList) (identity : Identity) :
    identity.tag ≠ text := by
  rintro rfl
  apply foreign
  rw [Identity.tag, Identity.tagOfDigest, String.toList_append]
  exact List.prefix_append _ _

/-- Takes out the addresses that are not among the valid ones, if there is a configuration. -/
def withoutStale (valid : List String) : Option Config → Pass (Option Config)
  | none => pure none
  | some config => some <$> Pass.unmapStale valid config config.poolAddresses

/-- What a synchronizing pass does once the services are added. -/
def cleanUp (loaded : Option Config) (services : List Service) (added : List String × Option Config) : Pass Unit := do
  let current ← Pass.listReservations settings
  Pass.debug s!"Valid service tags: {Text.literals (tagsOf services)}"
  Pass.debug s!"Valid addresses: {Text.literals added.1}"
  let config ← withoutStale added.1 added.2
  Pass.saveIfChanged settings loaded config
  Pass.deleteOrphans (Pass.orphans settings (tagsOf services) current)

theorem syncServices_eq (listed : List Reservation) (loaded : Option Config) (services : List Service) :
    Pass.syncServices settings listed loaded services =
      Pass.addServices settings listed loaded services >>= cleanUp settings loaded services := by
  unfold Pass.syncServices
  congr 1
  funext ⟨cidrs, config⟩
  unfold cleanUp withoutStale
  cases config with
  | none => rfl
  | some config => simp only [map_eq_pure_bind]; rfl

/-- Loads the configuration, if there is to be one. -/
def loadGiven : Pass (Option Config) :=
  match settings.location with
  | none => pure none
  | some location => some <$> Pass.load location.name

theorem loadGiven_eq {settings : Settings} {location : Location} (located : settings.location = some location) :
    loadGiven settings = Pass.load location.name >>= fun loaded => pure (some loaded) := by
  rw [loadGiven, located]
  exact map_eq_pure_bind ..

/-- What a pass does once it knows the reservations and the configuration. -/
def perform (mode : Mode) (listed : List Reservation) (loaded : Option Config) (services : List Service) : Pass Unit :=
  match mode with
  | .add => do
    let added ← Pass.addServices settings listed loaded services
    Pass.saveIfChanged settings loaded added.2
  | .remove => Pass.removeServices settings listed loaded services >>= Pass.saveIfChanged settings loaded
  | .sync => Pass.syncServices settings listed loaded services

theorem services_eq (mode : Mode) (batch : List Service) :
    Pass.services settings mode batch = (do
      Pass.info s!"Reconciling {(batch.filter (·.isLoadBalancer)).length} load balancer service(s) ({mode.write})..."
      let listed ← Pass.listReservations settings
      let loaded ← loadGiven settings
      perform settings mode listed loaded (batch.filter (·.isLoadBalancer))) := by
  unfold Pass.services loadGiven
  simp only
  congr 1
  funext _
  congr 1
  funext listed
  cases settings.location with
  | none => cases mode <;> rfl
  | some location => cases mode <;> rfl

section

variable {σ : Type} (answer : Answers σ) (state : σ) (mode : Mode) (batch : List Service)

theorem effect_services :
    effect answer state (Pass.services settings mode batch) =
      effect answer state (Pass.listReservations settings >>= fun listed => loadGiven settings >>= fun loaded =>
        perform settings mode listed loaded (batch.filter (·.isLoadBalancer))) := by
  rw [services_eq]
  rfl

theorem made_services :
    made answer state (Pass.services settings mode batch) =
      made answer state (Pass.listReservations settings >>= fun listed => loadGiven settings >>= fun loaded =>
        perform settings mode listed loaded (batch.filter (·.isLoadBalancer))) := by
  rw [services_eq]
  rfl

theorem loadGiven_ok {settings : Settings} {location : Location} (located : settings.location = some location)
    {loaded? : Option Config} {after : σ} (ok : effect answer state (loadGiven settings) = (.ok loaded?, after)) :
    ∃ loaded, loaded? = some loaded ∧ effect answer state (Pass.load location.name) = (.ok loaded, after) := by
  rw [loadGiven_eq located] at ok
  obtain ⟨loaded, between, opens, same⟩ := (effect_bind_ok answer).mp ok
  cases same
  exact ⟨loaded, rfl, opens⟩

end

end PeerPool.Proofs.PassServices
