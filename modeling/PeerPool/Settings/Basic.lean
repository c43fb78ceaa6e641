import PeerPool.Selector.Basic
import PeerPool.Settings.Location
import PeerPool.Text.Number

/-! What the agent runs with. -/

namespace PeerPool

structure Settings where
  apiKey : String
  projectId : String
  baseUrl : String := "https://api.equinix.com/metal/v1/"
  /-- Where the configuration is; if nowhere, it is left alone. -/
  location : Option Location := some ⟨"metallb-system", "config"⟩
  facility : Option String := none
  localAsn : UInt32 := 65000
  peerAsn : UInt32 := 65530
  bgpPassword : Option String := none
  /-- The nodes that peer. -/
  nodeSelector : Selector := []
  /-- Marks the reservations that the agent made. -/
  providerTag : String := "usage=cloud-provider-equinix-metal-auto"
deriving DecidableEq, Repr, Inhabited

namespace Settings

/-- Shows that there is a secret, and nothing else of it. -/
def masked (given : Bool) : String := if given then "<masked>" else ""

def writeFacility (facility : Option String) : String := facility.getD ""

def writeLocation : Option Location → String
  | some location => s!"load balancer config: '{location.write}'"
  | none => "load balancer config: disabled"

/-- The settings for the log, without their secrets. -/
def write (settings : Settings) : String :=
  "\n".intercalate [
    s!"api key: '{masked (!settings.apiKey.isEmpty)}'",
    s!"project id: '{settings.projectId}'",
    s!"api url: '{settings.baseUrl}'",
    writeLocation settings.location,
    s!"facility: '{writeFacility settings.facility}'",
    s!"local ASN: '{settings.localAsn}'",
    s!"peer ASN: '{settings.peerAsn}'",
    s!"BGP password: '{masked settings.bgpPassword.isSome}'",
    s!"BGP node selector: '{Selector.write settings.nodeSelector}'",
    s!"provider tag: '{settings.providerTag}'"]

end Settings

end PeerPool
