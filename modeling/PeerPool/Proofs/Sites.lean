import PeerPool.Proofs.PassLogic
import PeerPool.Settings.Basic
import PeerPool.Simulation.Memory

/-! A cluster with its provider that does what it is asked. The next reservation depends on
nothing but the tags asked for and how many were made before. -/

namespace PeerPool.Proofs.Sites
open Cluster Provider Simulation PassLogic

/-- What the provider makes a reservation of, apart from its tags. -/
structure Offer where
  id : String
  address : Address
  prefixLength : UInt8
deriving DecidableEq, Repr

def Offer.reservation (offer : Offer) (tags : List String) : Reservation where
  id := offer.id
  address := offer.address
  prefixLength := offer.prefixLength
  tags := tags

structure Site where
  document : Option String := none
  reservations : List Reservation := []
  /-- The stored services, each under an identity of its own. -/
  services : List Service := []
  /-- How many reservations were made so far. -/
  created : Nat := 0
  keys : (services.map storedAs).Nodup := by simp

theorem keys_single (service : Service) : ([service].map storedAs).Nodup := List.pairwise_singleton _ _

/-- A change that leaves what services are stored under leaves all of them apart. -/
theorem keys_map {services : List Service} (keys : (services.map storedAs).Nodup) {change : Service → Service}
    (same : ∀ service, storedAs (change service) = storedAs service) : ((services.map change).map storedAs).Nodup := by
  have kept : (services.map change).map storedAs = services.map storedAs := by
    rw [List.map_map]
    exact List.map_congr_left fun service _ => same service
  rw [kept]
  exact keys

/-- Puts a service in the place of another that is stored under the same identity. -/
def replacing (service other : Service) : Service := if storedAs other = storedAs service then service else other

theorem storedAs_replacing (service other : Service) : storedAs (replacing service other) = storedAs other := by
  unfold replacing
  split
  next same => exact same.symm
  next => rfl

namespace Site

def load (site : Site) (name : String) : Except StoreError String :=
  match site.document with
  | some text => .ok text
  | none => .error (.notFound name)

def service (site : Site) (identity : Identity) : Except StoreError Service :=
  match site.services.find? (storedAs · = identity) with
  | some service => .ok service
  | none => .error (.notFound identity.name)

def update (site : Site) (service : Service) : Except StoreError Unit × Site :=
  if site.services.any (storedAs · = storedAs service) then
    (.ok (), { site with
      services := site.services.map (replacing service)
      keys := keys_map site.keys (storedAs_replacing service) })
  else (.error (.notFound (storedAs service).name), site)

def create (offers : Nat → Offer) (site : Site) (tags : List String) : Site :=
  { site with
    reservations := site.reservations ++ [(offers site.created).reservation tags]
    created := site.created + 1 }

def answer (offers : Nat → Offer) : Answers Site
  | site, .loadDocument name => (site.load name, site)
  | site, .patchDocument _ patch => (.ok (), { site with document := patchDocument site.document patch })
  | site, .resolvePeers _ => (.ok [], site)
  | site, .listReservations _ => (.ok site.reservations, site)
  | site, .createReservation _ request =>
    (.ok ((offers site.created).reservation request.tags), site.create offers request.tags)
  | site, .deleteReservation id => (.ok (), { site with reservations := site.reservations.filter (·.id != id) })
  | site, .getService ns name => (site.service ⟨ns, name⟩, site)
  | site, .updateService service => site.update service

end Site

section

/-- A service that asks for an address. -/
def web : Service where
  metadata := { name := some "web", ns := some "shop" }
  spec := some { type := some Service.loadBalancerType }

/-- Addresses that count up. -/
def counted (number : Nat) : Offer := ⟨Nat.repr number, .v4 10 0 0 (UInt8.ofNat number), 32⟩

def plain : Settings := { apiKey := "", projectId := "" }

end

end PeerPool.Proofs.Sites
