import PeerPool.Cluster.Object
import PeerPool.Hash.Sha256
import PeerPool.Text.Base64

/-! What a service is known by, and the tag that links it to the reservations made for it. -/

namespace PeerPool.Cluster

structure Identity where
  ns : String
  name : String
deriving DecidableEq, Repr, Inhabited

namespace Identity

/-- The text of an identity, under which the addresses of the service are pooled. -/
def write (identity : Identity) : String := identity.ns ++ "/" ++ identity.name

def tagStart : String := "service="

def tagOfDigest (digest : List UInt8) : String := tagStart ++ String.ofList (Base64.encode digest)

/-- The tag tells services apart and says nothing about them. -/
def tag (identity : Identity) : String := tagOfDigest (Sha256.digest identity.write.toUTF8.data.toList)

end Identity

def Service.identity? (service : Service) : Option Identity := do
  return ⟨← service.metadata.ns, ← service.metadata.name⟩

end PeerPool.Cluster
