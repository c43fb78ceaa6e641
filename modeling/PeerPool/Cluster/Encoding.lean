import PeerPool.Cluster.Object

/-! The JSON form of the cluster's objects. A field that has the wrong type is refused;
one that means nothing here is dropped. -/

namespace PeerPool

/-- A field that may be left out, or be null, and must otherwise decode. -/
def Json.optional? {α : Type} (json : Json) (name : String) (decode : Json → Option α) : Option (Option α) :=
  match json.field? name with
  | none => some none
  | some value => (decode value).map some

/-- An object whose members are all texts. -/
def Json.dict? (json : Json) : Option (Dict String) := do
  let entries ← (← json.members?).mapM fun (name, value) => value.str?.map (name, ·)
  return .ofList entries

def Json.ofDict (dict : Dict String) : Json := .obj (dict.entries.map fun (name, value) => (name, .str value))

namespace Cluster

def Metadata.decode? (json : Json) : Option Metadata := do
  let _ ← json.members?
  return {
    name := ← json.optional? "name" Json.str?
    ns := ← json.optional? "namespace" Json.str?
    resourceVersion := ← json.optional? "resourceVersion" Json.str?
    labels := ← json.optional? "labels" Json.dict?
    annotations := ← json.optional? "annotations" Json.dict? }

def Metadata.encode (metadata : Metadata) : Json :=
  .obj (Json.present [
    ("annotations", metadata.annotations.map Json.ofDict),
    ("labels", metadata.labels.map Json.ofDict),
    ("name", metadata.name.map .str),
    ("namespace", metadata.ns.map .str),
    ("resourceVersion", metadata.resourceVersion.map .str)])

/-- An object that states its kind must be of the kind that is wanted. -/
def isOfKind (kind : String) (json : Json) : Bool :=
  (json.get? "apiVersion").all (·.str? == some "v1") && (json.get? "kind").all (·.str? == some kind)

def Node.decode? (json : Json) : Option Node := do
  let _ ← json.members?
  if !isOfKind "Node" json then none
  else
    let spec := (json.field? "spec").getD (.obj [])
    let _ ← spec.members?
    return {
      metadata := (← json.optional? "metadata" Metadata.decode?).getD {}
      providerId := ← spec.optional? "providerID" Json.str? }

def ServiceSpec.decode? (json : Json) : Option ServiceSpec := do
  let _ ← json.members?
  return {
    type := ← json.optional? "type" Json.str?
    loadBalancerAddress := ← json.optional? "loadBalancerIP" Json.str?
    clusterAddress := ← json.optional? "clusterIP" Json.str?
    ports := ← json.optional? "ports" fun ports => ports.items?.map .arr
    selector := ← json.optional? "selector" Json.dict? }

def ServiceSpec.encode (spec : ServiceSpec) : Json :=
  .obj (Json.present [
    ("clusterIP", spec.clusterAddress.map .str),
    ("loadBalancerIP", spec.loadBalancerAddress.map .str),
    ("ports", spec.ports),
    ("selector", spec.selector.map Json.ofDict),
    ("type", spec.type.map .str)])

def Service.decode? (json : Json) : Option Service := do
  let _ ← json.members?
  if !isOfKind "Service" json then none
  else
    return {
      metadata := (← json.optional? "metadata" Metadata.decode?).getD {}
      spec := ← json.optional? "spec" ServiceSpec.decode? }

/-- A service whole, with its kind stated. -/
def Service.encode (service : Service) : Json :=
  .obj (Json.present [
    ("apiVersion", some (.str "v1")),
    ("kind", some (.str "Service")),
    ("metadata", some service.metadata.encode),
    ("spec", service.spec.map ServiceSpec.encode)])

end Cluster

end PeerPool
