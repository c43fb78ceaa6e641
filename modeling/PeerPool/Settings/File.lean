import PeerPool.Json.Raw

/-! The settings file: a JSON object, or a list of its ten values. What it has no use
for is not looked at any further than its syntax. -/

namespace PeerPool

/-- The settings as a file gives them. -/
structure FileSettings where
  apiKey : Option String := none
  projectId : Option String := none
  baseUrl : Option String := none
  loadBalancer : Option String := none
  facility : Option String := none
  localAsn : Option UInt32 := none
  peerAsn : Option UInt32 := none
  bgpPassword : Option String := none
  nodeSelector : Option String := none
  providerTag : Option String := none
deriving DecidableEq, Repr, Inhabited

namespace FileSettings

def keys : List String :=
  ["apiKey", "projectId", "base-url", "loadbalancer", "facility", "localASN", "peerASN", "bgpPass",
   "bgpNodeSelector", "providerTag"]

/-- A value that is null stands for none. -/
def text? : RawJson → Option (Option String)
  | .null => some none
  | .string body => (RawJson.text? body).map some
  | _ => none

def word? : RawJson → Option (Option UInt32)
  | .null => some none
  | .number lexeme => ((RawJson.number? lexeme).bind (Json.nat? UInt32.size)).map fun value => some (UInt32.ofNat value)
  | _ => none

/-- The values in the order of their keys. -/
def ofValues? : List RawJson → Option FileSettings
  | [apiKey, projectId, baseUrl, loadBalancer, facility, localAsn, peerAsn, bgpPassword, nodeSelector, providerTag] => do
    return {
      apiKey := ← text? apiKey
      projectId := ← text? projectId
      baseUrl := ← text? baseUrl
      loadBalancer := ← text? loadBalancer
      facility := ← text? facility
      localAsn := ← word? localAsn
      peerAsn := ← word? peerAsn
      bgpPassword := ← text? bgpPassword
      nodeSelector := ← text? nodeSelector
      providerTag := ← text? providerTag }
  | _ => none

/-- The values of the known keys among the members. None of those may be given twice. -/
def values? (members : List (List Char × RawJson)) : Option (List RawJson) :=
  (RawJson.known? keys members).map fun known => keys.map fun key => (known.lookup key).getD .null

def read? (text : String) : Option FileSettings :=
  match RawJson.ofText? text.toList with
  | some (.object members) => (values? members).bind ofValues?
  | some (.array items) => ofValues? items
  | _ => none

end FileSettings

end PeerPool
