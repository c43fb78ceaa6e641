import PeerPool.Provider.Error
import PeerPool.Text.Split

/-! What the provider calls a machine, taken from the ID that the cluster has for it. -/

namespace PeerPool.Provider

open Text

/-- The schemes that an ID may begin with. -/
def idSchemes : List String := ["equinixmetal://", "packet://"]

/-- The ID without its scheme. -/
def withoutScheme (id : List Char) : List Char :=
  (idSchemes.findSome? fun scheme => scheme.toList.isPrefixOf? id).getD id

/-- The name of a machine, from an ID with a known scheme or with none. -/
def deviceOf (id : String) : Except Error String :=
  let device := withoutScheme id.toList
  if device.isEmpty || device.contains '/' then .error (.invalidId id) else .ok (String.ofList device)

end PeerPool.Provider
