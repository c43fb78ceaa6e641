import PeerPool.Cluster.Encoding
import PeerPool.Cluster.Error
import PeerPool.Http.Basic
import PeerPool.Json.Raw
import PeerPool.Text.Literal

/-! The cluster's objects as its API server gives and takes them. -/

namespace PeerPool.Cluster

open Http (Exchange Method Body Response)

/-- How the API server words a refusal. -/
structure Status where
  message : String
  reason : String
  code : Nat
deriving DecidableEq, Repr

/-- A text that may be left out, but may not be null. -/
def textOr (fallback : String) : Option Json → Option String
  | none => some fallback
  | some json => json.str?

def Status.ofFields? (status : Json) (message reason : Option Json) (code : Json) : Option Status := do
  let _ ← status.str?
  return ⟨← textOr "" message, ← textOr "" reason, ← code.nat? UInt16.size⟩

/-- A refusal as an object, or as the list of its fields. -/
def Status.decode? : Json → Option Status
  | .arr [status, message, reason, code] => ofFields? status (some message) (some reason) code
  | .obj members => do
    ofFields? (← Json.member? members "status") (Json.member? members "message")
      (Json.member? members "reason") (← Json.member? members "code")
  | _ => none

/-- Why a request to the API server has no use. -/
inductive Failure where
  | refused (status : Status)
  | unanswered
  | unreadable
deriving DecidableEq, Repr

/-- A refusal keeps its own words, also where they have another form than usual. -/
def refusal (response : Response) : Status :=
  ((Json.read? response.body).bind Status.decode?).getD
    ⟨Text.literal response.body, "Failed to parse error data", response.status⟩

def isRefusal (response : Response) : Bool := 400 ≤ response.status && response.status < 600

def outcome {α : Type} (decode : Json → Option α) : Option Response → Except Failure α
  | none => .error .unanswered
  | some response =>
    if isRefusal response then .error (.refused (refusal response))
    else
      match (Json.read? response.body).bind decode with
      | some value => .ok value
      | none => .error .unreadable

def Failure.toStoreError (name : String) : Failure → StoreError
  | .refused status =>
    if status.code = 404 then .notFound name
    else if status.code = 409 then .rejected name status.message
    else .failed (some status.code)
  | .unanswered => .failed none
  | .unreadable => .failed none

/-- The characters that may stand in the path of a request. -/
def isPathChar (c : Char) : Bool := '!' ≤ c && c ≤ '~' && !(['<', '>', '\x60', '?', '#'].contains c)

/-- Sends a request, unless its path cannot be one. -/
def send {α : Type} (decode : Json → Option α) (method : Method) (path : String) (query : List String)
    (body : Option Body) : Exchange (Except Failure α) :=
  if path.toList.all isPathChar then do
    return outcome decode (← Program.request ⟨method, .cluster path query, body⟩)
  else return .error .unanswered

/-- Who is said to have changed an object. -/
def fieldManager : String := "lbsync"

def managedQuery : List String := ["fieldManager=" ++ fieldManager]

def objectPath (ns kind name : String) : String := s!"/api/v1/namespaces/{ns}/{kind}/{name}"

/-- The texts of a map of configuration. -/
structure ConfigMap where
  data : Option (Dict String) := none

def ConfigMap.decode? (json : Json) : Option ConfigMap := do
  let _ ← json.members?
  if !isOfKind "ConfigMap" json then none
  else
    let _ ← json.optional? "metadata" Metadata.decode?
    return { data := ← json.optional? "data" Json.dict? }

/-- The text of one field of a stored configuration map. -/
def getConfigField (ns name field : String) : Exchange (Except StoreError String) := do
  match ← send ConfigMap.decode? .get (objectPath ns "configmaps" name) [] none with
  | .ok map => return (map.data.bind (·.get? field)).elim (.error (.missingField name field)) .ok
  | .error (.refused status) =>
    if status.reason = "NotFound" then return .error (.notFound name)
    else return .error (Failure.toStoreError name (.refused status))
  | .error failure => return .error (failure.toStoreError name)

/-- Patches a configuration map, and looks at nothing of the result but whether it is one. -/
def patchConfigMap (ns name : String) (patch : Json) : Exchange (Except StoreError Unit) := do
  let body : Body := ⟨"application/merge-patch+json", patch⟩
  match ← send ConfigMap.decode? .patch (objectPath ns "configmaps" name) managedQuery (some body) with
  | .ok _ => return .ok ()
  | .error failure => return .error (failure.toStoreError name)

def getService (ns name : String) : Exchange (Except StoreError Service) := do
  match ← send Service.decode? .get (objectPath ns "services" name) [] none with
  | .ok service => return .ok service
  | .error failure => return .error (failure.toStoreError name)

/-- Replaces a service. Its version goes with it, so that it is refused if it is out of date. -/
def putService (service : Service) : Exchange (Except StoreError Unit) := do
  match service.metadata.name, service.metadata.ns with
  | some name, some ns =>
    let body : Body := ⟨"application/json", service.encode⟩
    match ← send Service.decode? .put (objectPath ns "services" name) managedQuery (some body) with
    | .ok _ => return .ok ()
    | .error failure => return .error (failure.toStoreError name)
  | _, _ => return .error (.missingField "Service" "metadata")

end PeerPool.Cluster
