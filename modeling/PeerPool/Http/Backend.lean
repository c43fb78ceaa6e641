import PeerPool.Cluster.Client
import PeerPool.Pass.Call
import PeerPool.Pass.Document
import PeerPool.Provider.Client
import PeerPool.Settings.Basic

/-! The calls of the passes, made over HTTP. -/

namespace PeerPool.Http

/-- Who the calls go to: the provider, and one namespace of the cluster for the configuration. -/
structure Backend where
  provider : Provider.Client
  ns : String
deriving DecidableEq, Repr

/-- The namespace that the configuration is looked for in if none is named. -/
def defaultNamespace : String := "default"

def Backend.of (settings : Settings) : Except Provider.Error Backend := do
  return ⟨← Provider.Client.of settings.baseUrl settings.apiKey, (settings.location.map (·.ns)).getD defaultNamespace⟩

/-- The exchange that answers a call. -/
def Backend.answer (backend : Backend) : (call : Call) → Exchange call.Answer
  | .loadDocument name => Cluster.getConfigField backend.ns name configField
  | .patchDocument name patch => Cluster.patchConfigMap backend.ns name patch
  | .resolvePeers id => backend.provider.peers id
  | .listReservations project => backend.provider.list project
  | .createReservation project request => backend.provider.create project request
  | .deleteReservation id => backend.provider.delete id
  | .getService ns name => Cluster.getService ns name
  | .updateService service => Cluster.putService service

end PeerPool.Http
