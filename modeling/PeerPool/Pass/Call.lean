import PeerPool.Cluster.Error
import PeerPool.Cluster.Object
import PeerPool.Program
import PeerPool.Provider.Error
import PeerPool.Provider.Reservation

/-! The calls on the cluster and on the provider, and what they are answered with. -/

namespace PeerPool

inductive Call where
  | loadDocument (name : String)
  | patchDocument (name : String) (patch : Json)
  | resolvePeers (providerId : String)
  | listReservations (project : String)
  | createReservation (project : String) (request : Provider.Request)
  | deleteReservation (id : String)
  | getService (ns name : String)
  | updateService (service : Cluster.Service)
deriving Repr

abbrev Call.Answer : Call → Type
  | .loadDocument _ => Except Cluster.StoreError String
  | .patchDocument _ _ => Except Cluster.StoreError Unit
  | .resolvePeers _ => Except Provider.Error (List String)
  | .listReservations _ => Except Provider.Error (List Provider.Reservation)
  | .createReservation _ _ => Except Provider.Error Provider.Reservation
  | .deleteReservation _ => Except Provider.Error Unit
  | .getService _ _ => Except Cluster.StoreError Cluster.Service
  | .updateService _ => Except Cluster.StoreError Unit

end PeerPool
