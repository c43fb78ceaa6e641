import PeerPool.Program.Trace
import PeerPool.Proofs.LocatorPaths

/-! Where a request about a machine goes. The path below the base holds the name of the machine as it
was given, and following that path does to it what it does to any text: a question mark or a hash sign
ends the path, backslashes separate like slashes, and dots lead up. A name that has none of these
stays one segment. -/

namespace PeerPool.Proofs.RequestPaths
open LocatorPaths Url Provider

/-- What a machine is called in a path, as far as it is followed. -/
def asked (device : String) : List Char := unbroken device.toList

/-- A locator of the neighbours of one machine, below a path. -/
structure Reaches (names : List String) (segment : String) (url : Url) : Prop where
  named : segment ≠ ""
  path : url.path = .segments (names ++ ["devices", segment, "bgp", "neighbors"])
  query : url.query = none
  fragment : url.fragment = none

section

variable {base : Url} {names : List String} (path : base.path = .segments (names ++ [""])) (special : isSpecial base.scheme = true)
include path special

end

section

def metal : Client where
  base := { scheme := "https", authority := some { host := "api.equinix.com" }, path := .segments ["metal", "v1", ""] }
  token := "token"

end

end PeerPool.Proofs.RequestPaths
