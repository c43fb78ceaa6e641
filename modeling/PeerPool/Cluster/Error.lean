/-! Why the cluster does not give or take an object. -/

namespace PeerPool.Cluster

inductive StoreError where
  | notFound (name : String)
  | missingField (name field : String)
  /-- Someone else changed the object meanwhile, or it may not be changed so. -/
  | rejected (name reason : String)
  /-- Any other failure, with the status code if there was an answer at all. -/
  | failed (code : Option Nat)
deriving DecidableEq, Repr

def StoreError.message : StoreError → String
  | .notFound name => s!"'{name}' wasn't found!"
  | .missingField name field => s!"'{name}' has no '{field}' field!"
  | .rejected name reason => s!"'{name}' rejected the update! Reason: {reason}"
  | .failed (some code) => s!"Kubernetes API call failed! Reason: status {code}"
  | .failed none => "Kubernetes API call failed! Reason: no usable answer"

end PeerPool.Cluster
