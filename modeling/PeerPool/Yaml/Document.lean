import PeerPool.Yaml.Node.Parser
import PeerPool.Yaml.Token.Lexer

/-! A document as a whole: the directives in front of its tree, and the nodes that its
aliases stand for. A text holds one document, or none at all. -/

namespace PeerPool.Yaml

/-- A document whose anchors are numbers. Without a root the text held no document. -/
structure Document where
  root : Option (Node Nat)
deriving Repr, Inhabited

/-- The names that are bound at some point of a document. -/
structure AnchorNames where
  /-- Latest first. -/
  bound : List (String × Nat) := []
  /-- How many different names there are. -/
  count : Nat := 0
deriving Repr

/-- Binds a name to the number of the different names before it. A name that was bound
already counts among them. -/
def AnchorNames.bind (names : AnchorNames) (name : String) : Nat × AnchorNames :=
  let known := (names.bound.lookup name).isSome
  (names.count, ⟨(name, names.count) :: names.bound, if known then names.count else names.count + 1⟩)

def AnchorNames.bind? (names : AnchorNames) : Option String → Option Nat × AnchorNames
  | none => (none, names)
  | some name =>
    let (number, names) := names.bind name
    (some number, names)

namespace Node

mutual

/-- Gives each anchor its number, in the order in which the nodes begin. An alias must
name an anchor in front of it. -/
def number (names : AnchorNames) : Node String → Option (Node Nat × AnchorNames)
  | .alias name => (names.bound.lookup name).map fun number => (.alias number, names)
  | .scalar anchor content =>
    let (anchor, names) := names.bind? anchor
    some (.scalar anchor content, names)
  | .sequence anchor items =>
    let (anchor, names) := names.bind? anchor
    (numberItems names items).map fun (items, names) => (.sequence anchor items, names)
  | .mapping anchor entries =>
    let (anchor, names) := names.bind? anchor
    (numberEntries names entries).map fun (entries, names) => (.mapping anchor entries, names)

def numberItems (names : AnchorNames) : List (Node String) → Option (List (Node Nat) × AnchorNames)
  | [] => some ([], names)
  | item :: rest => do
    let (item, names) ← number names item
    let (rest, names) ← numberItems names rest
    return (item :: rest, names)

def numberEntries (names : AnchorNames) :
    List (Node String × Node String) → Option (List (Node Nat × Node Nat) × AnchorNames)
  | [] => some ([], names)
  | (key, value) :: rest => do
    let (key, names) ← number names key
    let (value, names) ← number names value
    let (rest, names) ← numberEntries names rest
    return ((key, value) :: rest, names)

end

end Node

namespace Document

/-- The directives in front of a document. At most one tells the version, which must be
1.1 or 1.2, and no handle is given twice. -/
def directives (versioned : Bool) (handles : TagHandles) : List Token → Option (TagHandles × List Token)
  | .version major minor :: rest =>
    if versioned || major ≠ 1 || (minor ≠ 1 && minor ≠ 2) then none else directives true handles rest
  | .tagHandle handle replacement :: rest =>
    if (handles.lookup handle).isSome then none
    else directives versioned (handles ++ [(handle, replacement)]) rest
  | tokens => some (handles ++ defaultHandles, tokens)

/-- Nothing follows the document but marks of its end. -/
def isOver (tokens : List Token) : Bool := tokens.all (· = .documentEnd)

/-- A document behind its opening mark, where its root may be left out. -/
def content (handles : TagHandles) (tokens : List Token) : Option (Node String) :=
  let left := match tokens with
    | [] | .documentEnd :: _ | .documentStart :: _ | .version _ _ :: _ | .tagHandle _ _ :: _ => true
    | _ => false
  let parsed := if left then some (.absent, tokens) else Node.parse handles (4 * tokens.length + 4) true false tokens
  match parsed with
  | some (root, rest) => if isOver rest then some root else none
  | none => none

/-- The tree of the one document that the tokens make up. A document without directives
may go without its opening mark. -/
def tree (tokens : List Token) : Option (Node String) := do
  let (handles, rest) ← directives false [] tokens
  match rest with
  | .documentStart :: rest => content handles rest
  | _ =>
    if rest.length < tokens.length then none
    else
      let (root, rest) ← Node.parse handles (4 * tokens.length + 4) true false tokens
      if isOver rest then return root else none

/-- The one document of a text, if there is one. -/
def read? (text : String) : Option Document := do
  let tokens ← Token.scan text.toList
  if tokens.isEmpty then return ⟨none⟩
  else
    let (root, _) ← Node.number {} (← tree tokens)
    return ⟨some root⟩

/-- How many aliases may be followed while the document is read. -/
def aliasLimit (document : Document) : Nat := 100 * (document.root.map Node.size).getD 1

/-- The nodes that aliases stand for. Of anchors with the same number the last counts. -/
def targets (document : Document) : List (Nat × Node Nat) :=
  ((document.root.map Node.anchored).getD []).reverse

end Document

end PeerPool.Yaml
