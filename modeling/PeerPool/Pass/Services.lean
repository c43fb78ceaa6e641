import PeerPool.Cluster.Identity
import PeerPool.Config.Edit
import PeerPool.Pass.Document
import PeerPool.Settings.Basic
import PeerPool.Text.Literal

/-! Passes over services: each one that asks for a load balancer has an address reserved
for it, is told the address, and has it in a pool of its own. -/

namespace PeerPool.Pass

open Cluster (Service Identity)
open Provider (Reservation Request)

/-- The prefix length of a single address. -/
def hostPrefixLength : UInt8 := 32

def poolProtocol : String := "bgp"

def poolOf (identity : Identity) (cidr : String) : AddressPool where
  name := identity.write
  protocol := poolProtocol
  addresses := [cidr]
  autoAssign := some false

def identityOf (service : Service) : Pass Identity :=
  match service.identity? with
  | some identity => pure identity
  | none => throw .missingMetadata

/-- The reservation that was made for a service. -/
def owned? (settings : Settings) (identity : Identity) (reservations : List Reservation) : Option Reservation :=
  Provider.findByAllTags? [identity.tag, settings.providerTag] reservations

/-- Asks for an address. If there is none to be had, the service is left for a later pass. -/
def reserve (settings : Settings) (identity : Identity) : Pass (Option Reservation) := do
  let request := Request.single settings.facility [settings.providerTag, identity.tag]
  info s!"Requesting an address for '{identity.write}'..."
  match ← ask (.createReservation settings.projectId request) with
  | .ok reservation =>
    info s!"Reserved {reservation.write} for '{identity.write}'"
    return some reservation
  | .error error =>
    warn s!"Couldn't reserve an address for '{identity.write}', will retry on the next pass! Reason: {error.message}"
    return none

/-- Tells the latest version of a service its address. -/
def assign (identity : Identity) (address : Address) : Pass Unit := do
  let latest ← check .serviceStore (← ask (.getService identity.ns identity.name))
  check .serviceStore (← ask (.updateService (latest.assign address.write)))
  info s!"Assigned {address.write} to '{identity.write}'"

/-- The reservation that stands behind an address which a service has already. -/
def matching? (address : String) (owned : Option Reservation) : Option Reservation :=
  owned.filter fun reservation => Address.read? address == some reservation.address

/-- The address of a service with its prefix length, reserved and assigned where that was
not done before. -/
def addressOf (settings : Settings) (reservations : List Reservation) (service : Service)
    (identity : Identity) : Pass (Option String) := do
  let owned := owned? settings identity reservations
  match service.assignedAddress? with
  | some address =>
    debug s!"Service '{identity.write}' already has address {address}"
    let length := ((matching? address owned).map (·.prefixLength)).getD hostPrefixLength
    return some (address ++ "/" ++ String.ofList (Text.decimal length.toNat))
  | none =>
    let reservation ← match owned with
      | some reservation => do
        debug s!"Reusing reservation {reservation.write} for '{identity.write}'"
        pure (some reservation)
      | none => reserve settings identity
    match reservation with
    | none => return none
    | some reservation =>
      assign identity reservation.address
      return some reservation.cidr

/-- Maps an address into the pool of a service. -/
def mapAddress (identity : Identity) (cidr : String) (config : Config) : Pass Config := do
  let edited := config.addPool (poolOf identity cidr)
  if edited.changed then info s!"Mapped {cidr} into pool '{identity.write}'"
  else debug s!"{cidr} is already mapped"
  return edited.config

/-- What has become of a service: its address, if it has one by now, and the configuration. -/
structure Added where
  cidr : Option String
  config : Option Config
deriving DecidableEq, Repr

def addService (settings : Settings) (reservations : List Reservation) (config : Option Config)
    (service : Service) : Pass Added := do
  let identity ← identityOf service
  match ← addressOf settings reservations service identity with
  | none => return ⟨none, config⟩
  | some cidr =>
    match config with
    | none => return ⟨some cidr, none⟩
    | some config => return ⟨some cidr, some (← mapAddress identity cidr config)⟩

/-- The addresses of a batch of services, and the configuration that maps them. -/
def addServices (settings : Settings) (reservations : List Reservation) (config : Option Config) :
    List Service → Pass (List String × Option Config)
  | [] => pure ([], config)
  | service :: rest => do
    let added ← addService settings reservations config service
    let (cidrs, config) ← addServices settings reservations added.config rest
    return (added.cidr.toList ++ cidrs, config)

/-- Gives back what was reserved for the services of a batch, and unmaps it. -/
def removeServices (settings : Settings) (reservations : List Reservation) (config : Option Config) :
    List Service → Pass (Option Config)
  | [] => pure config
  | service :: rest => do
    let identity ← identityOf service
    match owned? settings identity reservations with
    | none =>
      debug s!"No reservation found for '{identity.write}', nothing to clean up"
      removeServices settings reservations config rest
    | some reservation =>
      match ← ask (.deleteReservation reservation.id) with
      | .error error =>
        warn s!"Couldn't delete reservation {reservation.write}! Reason: {error.message}"
        removeServices settings reservations config rest
      | .ok _ =>
        info s!"Deleted reservation {reservation.write} of '{identity.write}'"
        removeServices settings reservations (config.map fun config => (config.removeAddress reservation.cidr).config) rest

/-- Takes the addresses out of the configuration that are not among the valid ones. -/
def unmapStale (valid : List String) (config : Config) : List String → Pass Config
  | [] => pure config
  | address :: rest => do
    if valid.contains address then unmapStale valid config rest
    else
      info s!"Unmapping stale address {address}"
      unmapStale valid (config.removeAddress address).config rest

/-- Deletes reservations. One that cannot be deleted is left for a later pass. -/
def deleteOrphans : List Reservation → Pass Unit
  | [] => pure ()
  | reservation :: rest => do
    match ← ask (.deleteReservation reservation.id) with
    | .ok _ => info s!"Deleted orphaned reservation {reservation.write}"
    | .error error => warn s!"Couldn't delete orphaned reservation {reservation.write}! Reason: {error.message}"
    deleteOrphans rest

/-- Writes the configuration back if it differs from the one that was loaded. -/
def saveIfChanged (settings : Settings) (loaded config : Option Config) : Pass Unit := do
  match settings.location, config with
  | some location, some config =>
    if loaded = some config then debug "Address pools unchanged, skipping the update..."
    else save location.name config
  | _, _ => pure ()

def listReservations (settings : Settings) : Pass (List Reservation) := do
  check .registry (← ask (.listReservations settings.projectId))

/-- The reservations that the agent made for none of the services. -/
def orphans (settings : Settings) (tags : List String) (reservations : List Reservation) : List Reservation :=
  (Provider.filterByAnyTag [settings.providerTag] reservations).filter (!·.hasAnyTag tags)

/-- Adds the services first, so that what is left over can be told from what they use. The
configuration is written before anything is deleted. -/
def syncServices (settings : Settings) (reservations : List Reservation) (loaded : Option Config)
    (services : List Service) : Pass Unit := do
  let (cidrs, config) ← addServices settings reservations loaded services
  let reservations ← listReservations settings
  let tags := (services.filterMap Service.identity?).map Identity.tag
  debug s!"Valid service tags: {Text.literals tags}"
  debug s!"Valid addresses: {Text.literals cidrs}"
  let config ← match config with
    | none => pure none
    | some config => some <$> unmapStale cidrs config config.poolAddresses
  saveIfChanged settings loaded config
  deleteOrphans (orphans settings tags reservations)

def services (settings : Settings) (mode : Mode) (batch : List Service) : Pass Unit := do
  let batch := batch.filter (·.isLoadBalancer)
  info s!"Reconciling {batch.length} load balancer service(s) ({mode.write})..."
  let reservations ← listReservations settings
  let loaded ← match settings.location with
    | none => pure none
    | some location => some <$> load location.name
  match mode with
  | .add => do
    let (_, config) ← addServices settings reservations loaded batch
    saveIfChanged settings loaded config
  | .remove => do saveIfChanged settings loaded (← removeServices settings reservations loaded batch)
  | .sync => syncServices settings reservations loaded batch

end PeerPool.Pass
