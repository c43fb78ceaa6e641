import PeerPool.Config.Decode
import PeerPool.Yaml.Block

/-! Writing a configuration. What is empty or not given is left out, save the list of a
pool's addresses. -/

namespace PeerPool

open Yaml (Block)

/-- Entries with a value, left out when there is none. -/
def presentEntries (entries : List (String × Option Block)) : Block :=
  .record (entries.filterMap fun (name, value) => value.map (name, ·))

/-- A list that is left out when it is empty. -/
def encodeSome {α : Type} (encode : α → Block) (values : List α) : Option Block :=
  if values.isEmpty then none else some (.list (values.map encode))

def encodeNat (value : Nat) : Block := .word (String.ofList (Text.decimal value))

def encodeBool (value : Bool) : Block := .word (if value then "true" else "false")

def encodeDict (dict : Dict String) : Option Block :=
  if dict.isEmpty then none else some (.record (dict.entries.map fun (name, value) => (name, .text value)))

def MatchExpression.encode (expression : MatchExpression) : Block :=
  presentEntries [
    ("key", some (.text expression.key)),
    ("operator", some (.text expression.operator)),
    ("values", encodeSome .text expression.values)]

def NodeSelector.encode (selector : NodeSelector) : Block :=
  presentEntries [
    ("match-labels", encodeDict selector.labels),
    ("match-expressions", encodeSome MatchExpression.encode selector.expressions)]

def Peer.encode (peer : Peer) : Block :=
  presentEntries [
    ("my-asn", some (encodeNat peer.localAsn.toNat)),
    ("peer-asn", some (encodeNat peer.peerAsn.toNat)),
    ("peer-address", some (.text peer.address)),
    ("peer-port", peer.port.map fun port => encodeNat port.toNat),
    ("source-address", peer.sourceAddress.map .text),
    ("hold-time", peer.holdTime.map .text),
    ("router-id", peer.routerId.map .text),
    ("password", peer.password.map .text),
    ("node-selectors", encodeSome NodeSelector.encode peer.selectors)]

def AddressPool.encode (pool : AddressPool) : Block :=
  presentEntries [
    ("name", some (.text pool.name)),
    ("protocol", some (.text pool.protocol)),
    ("addresses", some (.list (pool.addresses.map .text))),
    ("auto-assign", pool.autoAssign.map encodeBool),
    ("avoid-buggy-ips", pool.avoidBuggyIps.map encodeBool)]

namespace Config

def encode (config : Config) : Block :=
  presentEntries [
    ("peers", encodeSome Peer.encode config.peers),
    ("bgp-communities", encodeDict config.communities),
    ("address-pools", encodeSome AddressPool.encode config.pools)]

def write (config : Config) : String := config.encode.write

end Config

end PeerPool
