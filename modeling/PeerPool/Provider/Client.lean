import PeerPool.Http.Basic
import PeerPool.Json.Raw
import PeerPool.Provider.Device
import PeerPool.Provider.Reservation
import PeerPool.Url.Read

/-! The provider as its API shows it. -/

namespace PeerPool.Provider

open Http (Exchange Method Body)

/-- Where the API is, and the token that gives access to it. -/
structure Client where
  base : Url
  token : String
deriving DecidableEq, Repr

/-- The base as a directory, so that paths are appended to it and do not replace its last name. -/
def directory (base : String) : String := if base.toList.getLast? = some '/' then base else base ++ "/"

def Client.of (base token : String) : Except Error Client :=
  match Url.read? (directory base) with
  | some url => .ok ⟨url, token⟩
  | none => .error (.invalidUrl (directory base))

/-- Sends a request to a path below the base, for the text that answers it. -/
def Client.send (client : Client) (method : Method) (path : String) (body : Option Json) :
    Exchange (Except Error String) := do
  match Url.follow? client.base path with
  | none => return .error (.invalidUrl path)
  | some url =>
    Program.log .debug s!"{method.write} {url.write}"
    let body := body.map (Body.mk "application/json")
    match ← Program.request ⟨method, .provider url client.token, body⟩ with
    | none => return .error .unreachable
    | some response =>
      if 200 ≤ response.status ∧ response.status < 300 then return .ok response.body
      else return .error (.refused response.status response.body)

/-- Reads an answer that has come. -/
def readAnswer {α : Type} (decode : RawJson → Option α) : Except Error String → Except Error α
  | .error error => .error error
  | .ok text =>
    match (RawJson.ofText? text.toList).bind decode with
    | some value => .ok value
    | none => .error .unreadable

/-- A record whose only field is a list, which may be left out. -/
def listed? {α : Type} (decode : RawJson → Option α) (name : String) (raw : RawJson) : Option (List α) := do
  match (← raw.fields? [name]).lookup name with
  | none => some []
  | some (.array items) => items.mapM decode
  | some _ => none

/-- The addresses of the routers that each neighbour of a machine lists. -/
def neighbors? (raw : RawJson) : Option (List (List String)) :=
  listed? (listed? RawJson.str? "peer_ips") "bgp_neighbors" raw

/-- Each address once, where it is first found. -/
def peerAddresses (neighbors : List (List String)) : List String := neighbors.flatten.eraseDups

def reservations? (raw : RawJson) : Option (List Reservation) :=
  listed? Reservation.ofRaw? "ip_addresses" raw

namespace Client

/-- The addresses of the routers that a machine peers with. -/
def peers (client : Client) (id : String) : Exchange (Except Error (List String)) := do
  match deviceOf id with
  | .error error => return .error error
  | .ok device =>
    let answer ← client.send .get s!"devices/{device}/bgp/neighbors" none
    return (readAnswer neighbors? answer).map peerAddresses

def list (client : Client) (project : String) : Exchange (Except Error (List Reservation)) := do
  return readAnswer reservations? (← client.send .get s!"projects/{project}/ips" none)

def create (client : Client) (project : String) (request : Request) : Exchange (Except Error Reservation) := do
  return readAnswer Reservation.ofRaw? (← client.send .post s!"projects/{project}/ips" (some request.encode))

def delete (client : Client) (id : String) : Exchange (Except Error Unit) := do
  return (← client.send .delete s!"ips/{id}" none).map fun _ => ()

end Client

end PeerPool.Provider
