import Mathlib.Data.List.Nodup
import PeerPool.Proofs.AddressRoundTrip
import PeerPool.Proofs.PassCalls
import PeerPool.Proofs.PassPools
import PeerPool.Proofs.Sites

/-! What adding a service comes to where every call goes well. A service that was told its
address by an earlier pass comes out with the same text, since the address is read back
from it and leads to the prefix length of the reservation. -/

namespace PeerPool.Proofs.SiteEffects
open PassLogic PassServices PassPools Sites Simulation Provider Cluster

variable {settings : Settings} {offers : Nat → Offer}

/-- The text that an address is written in is none of no text. -/
theorem assignedAddress_written {service : Service} {address : Address}
    (text : service.spec.bind ServiceSpec.loadBalancerAddress = some address.write) : service.assignedAddress? = some address.write := by
  simp [Service.assignedAddress?, text, AddressRoundTrip.write_not_empty]

theorem assignedAddress_assign (service : Service) (address : Address) :
    (service.assign address.write).assignedAddress? = some address.write := assignedAddress_written rfl

/-- A service that was told the address of its reservation is known by the reservation's own text. -/
theorem knownCidr_written (reservation : Reservation) : knownCidr (some reservation) reservation.address.write = reservation.cidr := by
  simp [knownCidr, Pass.matching?, AddressRoundTrip.read_write, Reservation.cidr, Option.filter]

theorem storedAs_identity {service : Service} {identity : Identity} (known : service.identity? = some identity) :
    storedAs service = identity := by
  obtain ⟨⟨name, ns, _, _, _⟩, _⟩ := service
  cases ns with
  | none => cases known
  | some ns =>
    cases name with
    | none => cases known
    | some name =>
      cases known
      rfl

theorem find_stored {services : List Service} (keys : (services.map storedAs).Nodup) {service : Service}
    (member : service ∈ services) : services.find? (storedAs · = storedAs service) = some service := by
  have found : (services.find? (storedAs · = storedAs service)).isSome := by
    rw [List.find?_isSome]
    exact ⟨service, member, decide_eq_true rfl⟩
  obtain ⟨other, found⟩ := Option.isSome_iff_exists.mp found
  have same : storedAs other = storedAs service := by simpa using List.find?_some found
  rw [found, List.inj_on_of_nodup_map keys (List.mem_of_find?_eq_some found) member same]

/-- What a service looks like once one of an identity was told its address. -/
def telling (identity : Identity) (address : Address) (service : Service) : Service :=
  if storedAs service = identity then service.assign address.write else service

theorem telling_other {identity : Identity} {service : Service} (other : storedAs service ≠ identity) (address : Address) :
    telling identity address service = service := if_neg other

theorem storedAs_telling (identity : Identity) (address : Address) (service : Service) :
    storedAs (telling identity address service) = storedAs service := by
  unfold telling
  split <;> rfl

def told (identity : Identity) (address : Address) (site : Site) : Site :=
  { site with
    services := site.services.map (telling identity address)
    keys := keys_map site.keys (storedAs_telling identity address) }

theorem effect_assign (offers : Nat → Offer) (site : Site) {service : Service}
    (member : service ∈ site.services) {identity : Identity} (known : storedAs service = identity) (address : Address) :
    effect (Site.answer offers) site (Pass.assign identity address) = (.ok (), told identity address site) := by
  subst known
  have stored : site.service (storedAs service) = .ok service := by rw [Site.service, find_stored site.keys member]
  have updated : site.update (service.assign address.write) = (.ok (), told (storedAs service) address site) := by
    have key : storedAs (service.assign address.write) = storedAs service := rfl
    have replaced : site.services.map (replacing (service.assign address.write)) =
        site.services.map (telling (storedAs service) address) := by
      apply List.map_congr_left
      intro other present
      rw [replacing, key, telling]
      split
      next same => rw [List.inj_on_of_nodup_map site.keys present member same]
      next => rfl
    rw [Site.update, key, if_pos (List.any_eq_true.mpr ⟨service, member, decide_eq_true rfl⟩)]
    simp only [replaced, told]
  unfold Pass.assign Pass.info
  rw [effect_ask_bind]
  simp only [Site.answer]
  rw [stored]
  change effect (Site.answer offers) site (Pass.ask (.updateService (service.assign address.write)) >>= _) = _
  rw [effect_ask_bind]
  simp only [Site.answer, updated]
  rfl

theorem effect_reserve (site : Site) (identity : Identity) :
    effect (Site.answer offers) site (Pass.reserve settings identity) =
      (.ok (some ((offers site.created).reservation [settings.providerTag, identity.tag])),
        site.create offers [settings.providerTag, identity.tag]) := rfl

/-- A new reservation is nothing to a service whose tag it lacks. -/
theorem owned_append_other {identity : Identity} {created : Reservation} (foreign : identity.tag ∉ created.tags)
    (held : List Reservation) : Pass.owned? settings identity (held ++ [created]) = Pass.owned? settings identity held := by
  have untagged : created.hasAllTags [identity.tag, settings.providerTag] = false := by simp [Reservation.hasAllTags, foreign]
  simp [Pass.owned?, findByAllTags?, List.find?_append, untagged]

/-- A reservation that is made for one service is nothing to another. -/
theorem owned_create_other {identity other : Identity} (free : other.tag ≠ settings.providerTag)
    (differs : other.tag ≠ identity.tag) (site : Site) :
    Pass.owned? settings other (site.create offers [settings.providerTag, identity.tag]).reservations =
      Pass.owned? settings other site.reservations :=
  owned_append_other (by simp [Offer.reservation, free, differs]) site.reservations

theorem owned_create_self (offers : Nat → Offer) {identity : Identity} {site : Site} (unowned : Pass.owned? settings identity site.reservations = none) :
    Pass.owned? settings identity (site.create offers [settings.providerTag, identity.tag]).reservations =
      some ((offers site.created).reservation [settings.providerTag, identity.tag]) := by
  exact owned_append unowned (by simp [Reservation.hasAllTags, Offer.reservation])

/-- A change of services that leaves what they are known by and what they ask for. -/
structure Faithful (change : Service → Service) : Prop where
  key : ∀ service, storedAs (change service) = storedAs service
  identity : ∀ service, (change service).identity? = service.identity?
  kind : ∀ service, (change service).isLoadBalancer = service.isLoadBalancer

theorem Faithful.same : Faithful id := ⟨fun _ => rfl, fun _ => rfl, fun _ => rfl⟩

theorem Faithful.comp {first second : Service → Service} (earlier : Faithful first) (later : Faithful second) :
    Faithful (second ∘ first) := by
  constructor
  · intro service
    exact (later.key _).trans (earlier.key service)
  · intro service
    exact (later.identity _).trans (earlier.identity service)
  · intro service
    exact (later.kind _).trans (earlier.kind service)

theorem Faithful.telling (identity : Identity) (address : Address) : Faithful (telling identity address) := by
  have kind (service : Service) : (service.assign address.write).isLoadBalancer = service.isLoadBalancer := by
    obtain ⟨_, spec⟩ := service
    cases spec <;> rfl
  refine ⟨storedAs_telling identity address, ?_, ?_⟩
  · intro service
    unfold SiteEffects.telling
    split <;> rfl
  · intro service
    unfold SiteEffects.telling
    split
    · exact kind service
    · rfl

section

variable {change : Service → Service} (faithful : Faithful change) (services : List Service)
include faithful

theorem Faithful.tags : tagsOf (services.map change) = tagsOf services := by
  rw [tagsOf, List.filterMap_map]
  congr 1
  apply List.filterMap_congr
  intro service _
  exact faithful.identity service

theorem Faithful.balancers :
    (services.map change).filter (·.isLoadBalancer) = (services.filter (·.isLoadBalancer)).map change := by
  rw [List.filter_map]
  congr 1
  apply List.filter_congr
  intro service _
  exact faithful.kind service

end

/-- How a service gets its address: the text that comes back, what becomes of the stored
services, and the site in the end. -/
inductive Covers (settings : Settings) (offers : Nat → Offer) (listed : List Reservation) (identity : Identity)
    (service : Service) (site : Site) : String → (Service → Service) → Site → Prop where
  | known {address : String} : service.assignedAddress? = some address →
      Covers settings offers listed identity service site (knownCidr (Pass.owned? settings identity listed) address) id site
  | reused {reservation : Reservation} : service.assignedAddress? = none →
      Pass.owned? settings identity listed = some reservation →
      Covers settings offers listed identity service site reservation.cidr (telling identity reservation.address)
        (told identity reservation.address site)
  | reserved {reservation : Reservation} : service.assignedAddress? = none →
      Pass.owned? settings identity listed = none →
      reservation = (offers site.created).reservation [settings.providerTag, identity.tag] →
      Covers settings offers listed identity service site reservation.cidr (telling identity reservation.address)
        (told identity reservation.address (site.create offers [settings.providerTag, identity.tag]))

section

variable {listed : List Reservation} {identity : Identity} {service : Service} {site after : Site} {cidr : String}
  {change : Service → Service}

theorem covers_addressOf (settings : Settings) (offers : Nat → Offer) (listed : List Reservation) (site : Site)
    (member : service ∈ site.services) (known : storedAs service = identity) :
    ∃ cidr change after, Covers settings offers listed identity service site cidr change after ∧
      effect (Site.answer offers) site (Pass.addressOf settings listed service identity) = (.ok (some cidr), after) := by
  have tells (between : Site) (same : between.services = site.services) (reservation : Reservation) :
      effect (Site.answer offers) between (tellAddress identity (some reservation)) =
        (.ok (some reservation.cidr), told identity reservation.address between) := by
    have assigned := effect_assign offers between (same ▸ member) known reservation.address
    unfold tellAddress
    rw [effect_bind, assigned]
    rfl
  rw [addressOf_eq]
  cases assigned : service.assignedAddress? with
  | some address => exact ⟨_, _, _, .known assigned, rfl⟩
  | none =>
    simp only
    cases owned : Pass.owned? settings identity listed with
    | some reservation =>
      refine ⟨_, _, _, .reused assigned owned, ?_⟩
      rw [reservationFor, owned]
      exact tells site rfl reservation
    | none =>
      refine ⟨_, _, _, .reserved assigned owned rfl, ?_⟩
      rw [reservationFor, owned, effect_bind]
      simp only [effect_reserve]
      exact tells (site.create offers _) rfl _

theorem covers_addService (settings : Settings) (offers : Nat → Offer) (listed : List Reservation) (site : Site)
    (config? : Option Config) (member : service ∈ site.services) (known : service.identity? = some identity) :
    ∃ cidr change after, Covers settings offers listed identity service site cidr change after ∧
      effect (Site.answer offers) site (Pass.addService settings listed config? service) =
        (.ok ⟨some cidr, mapped identity (some cidr) config?⟩, after) := by
  obtain ⟨cidr, change, after, covers, found⟩ := covers_addressOf settings offers listed site member (storedAs_identity known)
  refine ⟨cidr, change, after, covers, ?_⟩
  rw [effect_addService _ _ known, found]

variable (covers : Covers settings offers listed identity service site cidr change after)
include covers

theorem Covers.faithful : Faithful change := by
  cases covers with
  | known => exact .same
  | reused => exact .telling _ _
  | reserved => exact .telling _ _

theorem Covers.services : after.services = site.services.map change := by
  cases covers with
  | known => exact (List.map_id _).symm
  | reused => rfl
  | reserved => rfl

theorem Covers.document : after.document = site.document := by
  cases covers <;> rfl

theorem Covers.others {other : Service} (differs : storedAs other ≠ identity) : change other = other := by
  cases covers with
  | known => rfl
  | reused => exact telling_other differs _
  | reserved => exact telling_other differs _

theorem Covers.owned_other {other : Identity} (free : other.tag ≠ settings.providerTag) (differs : other.tag ≠ identity.tag) :
    Pass.owned? settings other after.reservations = Pass.owned? settings other site.reservations := by
  cases covers with
  | known => rfl
  | reused => rfl
  | reserved => exact owned_create_other free differs site

/-- The service has its address now, and the address has its prefix length from the
reservation that the service goes by. -/
theorem Covers.assigned (agree : Pass.owned? settings identity site.reservations = Pass.owned? settings identity listed)
    (known : service.identity? = some identity) :
    ∃ address, (change service).assignedAddress? = some address ∧
      knownCidr (Pass.owned? settings identity after.reservations) address = cidr := by
  have assigned (reservation : Reservation) :
      (telling identity reservation.address service).assignedAddress? = some reservation.address.write := by
    rw [telling, if_pos (storedAs_identity known), assignedAddress_assign]
  cases covers with
  | known assigned => exact ⟨_, assigned, by rw [agree]⟩
  | reused unassigned owned =>
    refine ⟨_, assigned _, ?_⟩
    rw [told, agree, owned]
    exact knownCidr_written _
  | reserved unassigned unowned made =>
    refine ⟨_, assigned _, ?_⟩
    rw [told, owned_create_self offers (agree.trans unowned), ← made]
    exact knownCidr_written _

/-- Adding the service once more comes out with the same address, and does nothing. -/
theorem Covers.again (agree : Pass.owned? settings identity site.reservations = Pass.owned? settings identity listed)
    (known : service.identity? = some identity) {relisted : List Reservation}
    (later : Pass.owned? settings identity relisted = Pass.owned? settings identity after.reservations)
    (config? : Option Config) (halted : Site) :
    effect (Site.answer offers) halted (Pass.addService settings relisted config? (change service)) =
      (.ok ⟨some cidr, mapped identity (some cidr) config?⟩, halted) := by
  obtain ⟨address, holds, same⟩ := covers.assigned agree known
  rw [← later] at same
  rw [addService_known ((covers.faithful.identity service).trans known), addressOf_eq, holds]
  simp only [Pass.debug, bind_assoc, pure_bind, same]
  exact effect_mapGiven ..

end

end PeerPool.Proofs.SiteEffects
