import PeerPool.Dict

/-! Selectors of nodes: what a selector asks of a node's labels, and how it is written. -/

namespace PeerPool

/-- One thing that a selector asks of the labels. -/
inductive Requirement where
  | equals (key value : String)
  | notEquals (key value : String)
  | oneOf (key : String) (values : List String)
  | noneOf (key : String) (values : List String)
  | present (key : String)
  | absent (key : String)
deriving DecidableEq, Repr, Inhabited

/-- A selector asks for all of its requirements, so the empty one accepts every node. -/
abbrev Selector := List Requirement

namespace Requirement

/-- A requirement that rules values out is met by a node without the label. -/
def accepts (labels : Dict String) : Requirement → Bool
  | .equals key value => labels.get? key == some value
  | .notEquals key value => labels.get? key != some value
  | .oneOf key values => (labels.get? key).any values.contains
  | .noneOf key values => !(labels.get? key).any values.contains
  | .present key => labels.contains key
  | .absent key => !labels.contains key

def write : Requirement → String
  | .equals key value => key ++ "=" ++ value
  | .notEquals key value => key ++ "!=" ++ value
  | .oneOf key values => key ++ " in (" ++ ",".intercalate values ++ ")"
  | .noneOf key values => key ++ " notin (" ++ ",".intercalate values ++ ")"
  | .present key => key
  | .absent key => "!" ++ key

end Requirement

namespace Selector

def accepts (selector : Selector) (labels : Dict String) : Bool :=
  selector.all (·.accepts labels)

def write (selector : Selector) : String := ",".intercalate (selector.map Requirement.write)

end Selector

end PeerPool
