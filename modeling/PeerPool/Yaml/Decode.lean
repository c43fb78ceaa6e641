import PeerPool.Yaml.Document

/-! Reading values off a document's tree. An alias may stand wherever a node may, and
the number of those that are followed is bounded. -/

namespace PeerPool.Yaml

/-- What reading a document goes by. -/
structure Reading where
  /-- The nodes that aliases stand for. -/
  targets : List (Nat × Node Nat)

/-- A value read off a document, with the number of aliases that may still be followed. -/
abbrev Decoder (α : Type) := ReaderT Reading (StateT Nat Option) α

namespace Decoder

def fail {α : Type} : Decoder α := fun _ _ => none

def ofOption {α : Type} (value : Option α) : Decoder α := fun _ budget => value.map (·, budget)

/-- The node that an alias stands for, or the node itself. -/
def resolve : Node Nat → Decoder (Node Nat)
  | .alias name => fun reading budget =>
    match budget with
    | 0 => none
    | budget + 1 => (reading.targets.lookup name).map (·, budget)
  | node => pure node

def scalar (node : Node Nat) : Decoder Scalar := do
  match ← resolve node with
  | .scalar _ scalar => pure scalar
  | _ => fail

/-- Any scalar is a text where one is wanted. -/
def text (node : Node Nat) : Decoder String := do return (← scalar node).text

/-- A word stands for what it says when it is plain, or a literal with the tag of its type. -/
def word (type : String) (node : Node Nat) : Decoder String := do
  let scalar ← scalar node
  if scalar.style = .plain || (scalar.style = .literal && scalar.tag = some (coreTag type)) then
    return scalar.text
  else fail

def natural (bound : Nat) (node : Node Nat) : Decoder Nat := do
  ofOption ((natural? (← word "int" node)).filter (· < bound))

def bool (node : Node Nat) : Decoder Bool := do ofOption (bool? (← word "bool" node))

/-- A plain scalar of no text, which stands for a collection of nothing. -/
def isEmptyPlain (scalar : Scalar) : Bool := scalar.style = .plain && scalar.text.isEmpty

/-- The scalar says that nothing is there. None if it claims so and does not. -/
def saysNothing? (scalar : Scalar) : Option Bool :=
  if scalar.style ≠ .plain then some false
  else
    match scalar.tag with
    | none => some (scalar.text.isEmpty || isNull scalar.text)
    | some tag =>
      if tag ≠ coreTag "null" then some false
      else if isNull scalar.text then some true else none

def optional {α : Type} (decode : Node Nat → Decoder α) (node : Node Nat) : Decoder (Option α) := do
  match ← resolve node with
  | .scalar anchor scalar =>
    if ← ofOption (saysNothing? scalar) then return none
    else return some (← decode (.scalar anchor scalar))
  | node => return some (← decode node)

def items (node : Node Nat) : Decoder (List (Node Nat)) := do
  match ← resolve node with
  | .sequence _ items => pure items
  | .scalar _ scalar => if isEmptyPlain scalar then pure [] else fail
  | _ => fail

def list {α : Type} (decode : Node Nat → Decoder α) (node : Node Nat) : Decoder (List α) := do
  (← items node).mapM decode

def entries (node : Node Nat) : Decoder (List (Node Nat × Node Nat)) := do
  match ← resolve node with
  | .mapping _ entries => pure entries
  | .scalar _ scalar => if isEmptyPlain scalar then pure [] else fail
  | _ => fail

/-- A mapping from names, where the last entry of a name counts. -/
def dict {α : Type} (decode : Node Nat → Decoder α) (node : Node Nat) : Decoder (List (String × α)) := do
  (← entries node).mapM fun (key, value) => do return (← text key, ← decode value)

/-- The entries of a mapping whose keys are known, none of which may be given twice. -/
def fields (known : List String) (node : Node Nat) : Decoder (List (String × Node Nat)) := do
  let fields ← (← entries node).mapM fun (key, value) => do return (← text key, value)
  let names := fields.map Prod.fst
  if names.all known.contains && names.eraseDups.length = names.length then return fields else fail

/-- A field that has to be there. -/
def required {α : Type} (fields : List (String × Node Nat)) (name : String)
    (decode : Node Nat → Decoder α) : Decoder α :=
  match fields.lookup name with
  | some node => decode node
  | none => fail

/-- A field that may be left out. -/
def defaulted {α : Type} (fields : List (String × Node Nat)) (name : String) (default : α)
    (decode : Node Nat → Decoder α) : Decoder α :=
  match fields.lookup name with
  | some node => decode node
  | none => pure default

/-- Reads a value off a document. -/
def run {α : Type} (decoder : Decoder α) (document : Document) : Option α :=
  (decoder ⟨document.targets⟩ document.aliasLimit).map Prod.fst

end Decoder

end PeerPool.Yaml
