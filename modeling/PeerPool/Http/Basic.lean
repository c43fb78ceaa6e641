import PeerPool.Json.Write
import PeerPool.Program
import PeerPool.Url.Basic

/-! Exchanges over HTTP, with the API server of the cluster and with the provider. -/

namespace PeerPool.Http

inductive Method where
  | get
  | post
  | put
  | patch
  | delete
deriving DecidableEq, Repr

def Method.write : Method → String
  | .get => "GET"
  | .post => "POST"
  | .put => "PUT"
  | .patch => "PATCH"
  | .delete => "DELETE"

/-- What a request goes to. -/
inductive Target where
  /-- A path and a query at the API server of the cluster. -/
  | cluster (path : String) (query : List String)
  /-- A place at the provider, with the token that gives access to it. -/
  | provider (url : Url) (token : String)
deriving DecidableEq, Repr

/-- A body in JSON, and the media type it is sent under. -/
structure Body where
  mediaType : String
  json : Json
deriving Repr

structure Request where
  method : Method
  target : Target
  body : Option Body := none
deriving Repr

structure Response where
  status : Nat
  body : String
deriving DecidableEq, Repr

/-- There may be no answer at all. -/
abbrev Reply (_ : Request) : Type := Option Response

abbrev Exchange (α : Type) := Program Reply α

end PeerPool.Http
