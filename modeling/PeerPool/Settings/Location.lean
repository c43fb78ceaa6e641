import PeerPool.Text.Split

/-! Where the load balancer's configuration is stored. -/

namespace PeerPool

/-- The namespace and the name of the object that holds the configuration. -/
structure Location where
  ns : String
  name : String
deriving DecidableEq, Repr, Inhabited

namespace Location

/-- The text before the first colon and the text behind it, neither of them empty. -/
def read? (text : String) : Option Location :=
  match Text.splitOnce [':'] text.toList with
  | some (ns, name) =>
    if ns.isEmpty || name.isEmpty then none else some ⟨String.ofList ns, String.ofList name⟩
  | none => none

def write (location : Location) : String := location.ns ++ ":" ++ location.name

end Location

end PeerPool
