import PeerPool.Config.Basic
import PeerPool.Yaml.Decode

/-! Reading a configuration. Whatever the configuration has no place for is refused, so
nothing that a user wrote is lost when it is written back. -/

namespace PeerPool

open Yaml (Node Decoder Document)

/-- Why a stored configuration cannot be used. -/
inductive ConfigError where
  | unreadable
deriving DecidableEq, Repr

def ConfigError.message : ConfigError → String
  | .unreadable => "Couldn't parse the load balancer configuration! Reason: not a configuration"

def MatchExpression.fieldNames : List String := ["key", "operator", "values"]

def MatchExpression.decode (node : Node Nat) : Decoder MatchExpression := do
  let fields ← Decoder.fields fieldNames node
  return {
    key := ← Decoder.required fields "key" Decoder.text
    operator := ← Decoder.required fields "operator" Decoder.text
    values := ← Decoder.defaulted fields "values" [] (Decoder.list Decoder.text) }

def NodeSelector.fieldNames : List String := ["match-labels", "match-expressions"]

def NodeSelector.decode (node : Node Nat) : Decoder NodeSelector := do
  let fields ← Decoder.fields fieldNames node
  return {
    labels := .ofList (← Decoder.defaulted fields "match-labels" [] (Decoder.dict Decoder.text))
    expressions := ← Decoder.defaulted fields "match-expressions" [] (Decoder.list MatchExpression.decode) }

def Peer.fieldNames : List String :=
  ["my-asn", "peer-asn", "peer-address", "peer-port", "source-address", "hold-time", "router-id",
   "password", "node-selectors"]

def Peer.decode (node : Node Nat) : Decoder Peer := do
  let fields ← Decoder.fields fieldNames node
  let optionalText (name : String) := Decoder.defaulted fields name none (Decoder.optional Decoder.text)
  return {
    localAsn := .ofNat (← Decoder.required fields "my-asn" (Decoder.natural UInt32.size))
    peerAsn := .ofNat (← Decoder.required fields "peer-asn" (Decoder.natural UInt32.size))
    address := ← Decoder.required fields "peer-address" Decoder.text
    port := (← Decoder.defaulted fields "peer-port" none
      (Decoder.optional (Decoder.natural UInt16.size))).map UInt16.ofNat
    sourceAddress := ← optionalText "source-address"
    holdTime := ← optionalText "hold-time"
    routerId := ← optionalText "router-id"
    password := ← optionalText "password"
    selectors := ← Decoder.defaulted fields "node-selectors" [] (Decoder.list NodeSelector.decode) }

def AddressPool.fieldNames : List String := ["name", "protocol", "addresses", "auto-assign", "avoid-buggy-ips"]

def AddressPool.decode (node : Node Nat) : Decoder AddressPool := do
  let fields ← Decoder.fields fieldNames node
  let optionalBool (name : String) := Decoder.defaulted fields name none (Decoder.optional Decoder.bool)
  return {
    name := ← Decoder.required fields "name" Decoder.text
    protocol := ← Decoder.required fields "protocol" Decoder.text
    addresses := ← Decoder.defaulted fields "addresses" [] (Decoder.list Decoder.text)
    autoAssign := ← optionalBool "auto-assign"
    avoidBuggyIps := ← optionalBool "avoid-buggy-ips" }

namespace Config

def fieldNames : List String := ["peers", "bgp-communities", "address-pools"]

def decode (node : Node Nat) : Decoder Config := do
  let fields ← Decoder.fields fieldNames node
  return {
    peers := ← Decoder.defaulted fields "peers" [] (Decoder.list Peer.decode)
    communities := .ofList (← Decoder.defaulted fields "bgp-communities" [] (Decoder.dict Decoder.text))
    pools := ← Decoder.defaulted fields "address-pools" [] (Decoder.list AddressPool.decode) }

def ofDocument? (document : Document) : Option Config :=
  match document.root with
  | none => some {}
  | some root => (decode root).run document

/-- White space that a fresh installation may hold in place of a configuration. -/
def isFiller (c : Char) : Bool := c = ' ' || c = '\t' || c = '\n' || c = '\x0c' || c = '\r'

/-- Reads a configuration. An empty text is an empty configuration. -/
def read (text : String) : Except ConfigError Config :=
  if text.toList.all isFiller then .ok {}
  else
    match (Document.read? text).bind ofDocument? with
    | some config => .ok config
    | none => .error .unreadable

/-- Reads a configuration from its bytes, which must be UTF-8. -/
def readBytes (bytes : ByteArray) : Except ConfigError Config :=
  match String.fromUTF8? bytes with
  | some text => read text
  | none => .error .unreadable

end Config

end PeerPool
