import PeerPool.Address.Read
import PeerPool.Address.Write
import PeerPool.Json.Raw

/-! Addresses that the provider reserves for a project, and requests for them. A
reservation is found again only by its tags. -/

namespace PeerPool.Provider

structure Reservation where
  id : String
  address : Address
  prefixLength : UInt8
  tags : List String := []
deriving DecidableEq, Repr

namespace Reservation

/-- The address with its prefix length, as pools hold it. -/
def cidr (reservation : Reservation) : String :=
  reservation.address.write ++ "/" ++ String.ofList (Text.decimal reservation.prefixLength.toNat)

def write (reservation : Reservation) : String := reservation.cidr ++ " (" ++ reservation.id ++ ")"

def hasAllTags (reservation : Reservation) (tags : List String) : Bool := tags.all reservation.tags.contains

def hasAnyTag (reservation : Reservation) (tags : List String) : Bool := tags.any reservation.tags.contains

def encode (reservation : Reservation) : Json :=
  .obj [
    ("id", .str reservation.id),
    ("address", .str reservation.address.write),
    ("cidr", .ofNat reservation.prefixLength.toNat),
    ("tags", Json.strings reservation.tags)]

def ofFields? (id address prefixLength : Json) (tags : Option Json) : Option Reservation := do
  return {
    id := ← id.str?
    address := ← Address.read? (← address.str?)
    prefixLength := UInt8.ofNat (← prefixLength.nat? 256)
    tags := ← (← (tags.getD (.arr [])).items?).mapM Json.str? }

/-- A reservation as an object, or as the list of its fields. Only the tags may be left out. -/
def decode? : Json → Option Reservation
  | .arr [id, address, prefixLength] => ofFields? id address prefixLength none
  | .arr [id, address, prefixLength, tags] => ofFields? id address prefixLength (some tags)
  | .obj members => do
    ofFields? (← Json.member? members "id") (← Json.member? members "address")
      (← Json.member? members "cidr") (Json.member? members "tags")
  | _ => none

def keys : List String := ["id", "address", "cidr", "tags"]

/-- A reservation as it stands in a text, where no field may be given twice. -/
def ofRaw? (raw : RawJson) : Option Reservation := do
  let fields ← raw.fields? keys
  decode? (.obj (← fields.mapM fun (name, value) => (value.value? Json.depthLimit).map (name, ·)))

end Reservation

/-- The first reservation that has all the tags. -/
def findByAllTags? (tags : List String) (reservations : List Reservation) : Option Reservation :=
  reservations.find? (·.hasAllTags tags)

def filterByAnyTag (tags : List String) (reservations : List Reservation) : List Reservation :=
  reservations.filter (·.hasAnyTag tags)

/-- What is asked of the provider when an address is to be reserved. -/
structure Request where
  type : String
  quantity : UInt32
  description : String
  facility : Option String
  tags : List String
  failOnApprovalRequired : Bool
deriving DecidableEq, Repr

namespace Request

def defaultType : String := "public_ipv4"

def defaultDescription : String := "Equinix Metal Kubernetes CCM auto-generated for Load Balancer"

/-- A request of which only some parts are settled. -/
structure Draft where
  type : Option String := none
  quantity : Option UInt32 := none
  description : Option String := none
  facility : Option String := none
  tags : Option (List String) := none
  failOnApprovalRequired : Option Bool := none
deriving DecidableEq, Repr

/-- A draft as a request, unless it has no tags, without which nothing would be found again. -/
def Draft.request? (draft : Draft) : Option Request :=
  draft.tags.map fun tags => {
    type := draft.type.getD defaultType
    quantity := draft.quantity.getD 1
    description := draft.description.getD defaultDescription
    facility := draft.facility
    tags := tags
    failOnApprovalRequired := draft.failOnApprovalRequired.getD true }

/-- What is said of a draft that is no request yet. -/
def Draft.incompleteMessage : String := "\x60tags\x60 must be initialized"

/-- The usual request for a single address. -/
def single (facility : Option String) (tags : List String) : Request where
  type := defaultType
  quantity := 1
  description := defaultDescription
  facility := facility
  tags := tags
  failOnApprovalRequired := true

def encode (request : Request) : Json :=
  .obj (Json.present [
    ("type", some (.str request.type)),
    ("quantity", some (.ofNat request.quantity.toNat)),
    ("description", some (.str request.description)),
    ("facility", request.facility.map .str),
    ("tags", some (Json.strings request.tags)),
    ("fail_on_approval_required", some (.bool request.failOnApprovalRequired))])

end Request

end PeerPool.Provider
