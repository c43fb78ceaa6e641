import PeerPool.Cluster.Identity
import PeerPool.Json.MergePatch
import PeerPool.Pass.Document

/-! A cluster and a provider held in memory. They answer calls at once, and fail where
they are told to. A call that fails changes nothing that is stored. -/

namespace PeerPool.Simulation

open Cluster (Identity Service StoreError)
open Provider (Reservation Request)

/-- The calls that are to fail. -/
structure Faults where
  load : Bool := false
  patch : Bool := false
  update : Bool := false
  /-- The listings of reservations that fail, counted from one. -/
  listings : List Nat := []
  /-- The tags for which no address is to be had. -/
  tags : List String := []
  /-- The reservations that cannot be deleted. -/
  deletions : List String := []
deriving DecidableEq, Repr, Inhabited

structure Memory where
  /-- The text of the configuration, if there is one. -/
  document : Option String := none
  /-- The addresses of each machine's routers, or none where they cannot be found out. -/
  routers : List (String × Option (List String)) := []
  reservations : List Reservation := []
  /-- The services in the order of their identities. -/
  services : List Service := []
  /-- What the next reservations are to look like, over what they look like by default. -/
  offers : List Json := []
  /-- How many addresses were reserved so far, and how often reservations were listed. -/
  created : Nat := 0
  listed : Nat := 0
  faults : Faults := {}
deriving Repr, Inhabited

/-- What a service is stored under. A missing name counts as one of no text. -/
def storedAs (service : Service) : Identity := ⟨service.metadata.ns.getD "", service.metadata.name.getD ""⟩

def precedes (left right : Identity) : Bool :=
  left.ns < right.ns || (left.ns = right.ns && left.name < right.name)

/-- Puts a service at its place, over one with the same identity. -/
def insertService (service : Service) : List Service → List Service
  | [] => [service]
  | other :: rest =>
    if precedes (storedAs service) (storedAs other) then service :: other :: rest
    else if storedAs service = storedAs other then service :: rest
    else other :: insertService service rest

/-- The stored object that holds the configuration. -/
def documentObject (document : Option String) : Json :=
  .obj [("data", .obj (Json.present [(configField, document.map .str)]))]

def patchDocument (document : Option String) (patch : Json) : Option String :=
  (((Json.mergePatch (documentObject document) patch).get? "data").bind (·.get? configField)).bind Json.str?

/-- What a reservation looks like where nothing else is wanted: the addresses count up. -/
def plainOffer (number : Nat) : Json :=
  .obj [("address", .str s!"147.75.{100 + number / 256}.{number % 256}"), ("cidr", .ofNat 32)]

def overlay (members : List (String × Json)) : Json → Json
  | .obj changes => .obj (members.filter (fun member => !(changes.map Prod.fst).contains member.1) ++ changes)
  | _ => .obj members

/-- The reservation that an offer makes for a request, the `number`th of all. -/
def reservationOf? (number : Nat) (request : Request) (offer : Json) : Option Reservation :=
  Reservation.decode? (overlay [("id", .str s!"created-{number}"), ("tags", Json.strings request.tags)] offer)

namespace Memory

/-- Keeps services under their identities, the later of two that share one. -/
def withServices (memory : Memory) (services : List Service) : Memory :=
  { memory with services := services.foldl (fun stored service => insertService service stored) [] }

def load (memory : Memory) (name : String) : Except StoreError String :=
  if memory.faults.load then .error (.missingField name configField)
  else
    match memory.document with
    | some text => .ok text
    | none => .error (.notFound name)

def resolve (memory : Memory) (providerId : String) : Except Provider.Error (List String) :=
  match memory.routers.lookup providerId with
  | none => .ok []
  | some (some addresses) => .ok addresses
  | some none => .error (.refused 500 "resolver unavailable")

def create (memory : Memory) (request : Request) : Except Provider.Error Reservation × Memory :=
  if request.tags.any memory.faults.tags.contains then (.error (.refused 422 "no capacity"), memory)
  else
    let number := memory.created + 1
    let later := { memory with created := number, offers := memory.offers.tail }
    match reservationOf? number request (memory.offers.head?.getD (plainOffer number)) with
    | some reservation => (.ok reservation, { later with reservations := later.reservations ++ [reservation] })
    | none => (.error (.refused 500 "bad scripted reservation"), later)

def delete (memory : Memory) (id : String) : Except Provider.Error Unit × Memory :=
  if memory.faults.deletions.contains id then (.error (.refused 500 "delete failed"), memory)
  else (.ok (), { memory with reservations := memory.reservations.filter (·.id != id) })

def service (memory : Memory) (identity : Identity) : Except StoreError Service :=
  match memory.services.find? (storedAs · = identity) with
  | some service => .ok service
  | none => .error (.notFound identity.name)

def update (memory : Memory) (service : Service) : Except StoreError Unit × Memory :=
  if memory.faults.update then (.error (.rejected (storedAs service).name "stale resource version"), memory)
  else (.ok (), { memory with services := insertService service memory.services })

def list (memory : Memory) : Except Provider.Error (List Reservation) × Memory :=
  let number := memory.listed + 1
  (if memory.faults.listings.contains number then .error (.refused 503 "registry unavailable")
   else .ok memory.reservations, { memory with listed := number })

/-- The answer to a call, and the memory after it. -/
def answer (memory : Memory) : (call : Call) → call.Answer × Memory
  | .loadDocument name => (memory.load name, memory)
  | .patchDocument name patch =>
    if memory.faults.patch then (.error (.rejected name "conflict"), memory)
    else (.ok (), { memory with document := patchDocument memory.document patch })
  | .resolvePeers providerId => (memory.resolve providerId, memory)
  | .listReservations _ => memory.list
  | .createReservation _ request => memory.create request
  | .deleteReservation id => memory.delete id
  | .getService ns name => (memory.service ⟨ns, name⟩, memory)
  | .updateService service => memory.update service

end Memory

end PeerPool.Simulation
