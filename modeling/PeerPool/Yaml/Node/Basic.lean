import PeerPool.Yaml.Scalar

/-! The tree of a document. Nodes may be anchored and stand again where an alias names
them; `Name` is what anchors are known by. -/

namespace PeerPool.Yaml

/-- A node of a document. The tags of collections mean nothing here and are not kept. -/
inductive Node (Name : Type) where
  | alias (name : Name)
  | scalar (anchor : Option Name) (scalar : Scalar)
  | sequence (anchor : Option Name) (items : List (Node Name))
  | mapping (anchor : Option Name) (entries : List (Node Name × Node Name))
deriving Repr, Inhabited

namespace Node

variable {Name : Type}

/-- A place where a node was left out. -/
def absent : Node Name := .scalar none ⟨.plain, none, ""⟩

def anchor? : Node Name → Option Name
  | .alias _ => none
  | .scalar anchor _ => anchor
  | .sequence anchor _ => anchor
  | .mapping anchor _ => anchor

mutual

/-- The number of nodes, where a collection counts twice, for its start and its end. -/
def size : Node Name → Nat
  | .alias _ => 1
  | .scalar _ _ => 1
  | .sequence _ items => sizeItems items + 2
  | .mapping _ entries => sizeEntries entries + 2

def sizeItems : List (Node Name) → Nat
  | [] => 0
  | item :: rest => size item + sizeItems rest

def sizeEntries : List (Node Name × Node Name) → Nat
  | [] => 0
  | (key, value) :: rest => size key + size value + sizeEntries rest

end

mutual

/-- The anchored nodes in the order in which they begin, each under its anchor. -/
def anchored (node : Node Name) : List (Name × Node Name) :=
  (node.anchor?.map fun name => (name, node)).toList ++
  match node with
  | .alias _ => []
  | .scalar _ _ => []
  | .sequence _ items => anchoredItems items
  | .mapping _ entries => anchoredEntries entries

def anchoredItems : List (Node Name) → List (Name × Node Name)
  | [] => []
  | item :: rest => anchored item ++ anchoredItems rest

def anchoredEntries : List (Node Name × Node Name) → List (Name × Node Name)
  | [] => []
  | (key, value) :: rest => anchored key ++ anchored value ++ anchoredEntries rest

end

end Node

end PeerPool.Yaml
