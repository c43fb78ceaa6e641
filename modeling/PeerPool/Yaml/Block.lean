import PeerPool.Yaml.Node.Basic
import PeerPool.Yaml.Text

/-! Trees of texts and words, and their written form: one line for each entry and item,
with the entries of a mapping indented by two columns and the items of a sequence as
far left as the key they belong to. -/

namespace PeerPool.Yaml

inductive Block where
  /-- A number or a truth value, which stands for itself. -/
  | word (text : String)
  | text (text : String)
  | list (items : List Block)
  | record (entries : List (String × Block))
deriving Repr, Inhabited

namespace Block

/-- Ends the line, if it is not ended yet. -/
def endLine (text : List Char) : List Char := if text.getLast?.any isBreak then text else text ++ ['\n']

/-- The longest key, in bytes, that stands without a question mark. -/
def keyLimit : Nat := 128

/-- The key may stand in front of its colon without a question mark. -/
def isSimpleKey (key : String) : Bool := key.utf8ByteSize ≤ keyLimit && !key.toList.any isBreak

/-- What a node is written behind: the colon of a key without a question mark, or else a
dash, or the colon below a question mark. -/
inductive Place where
  | key
  | mark
deriving DecidableEq, Repr

mutual

/-- A node behind a key or mark that stands in column `indent`. -/
def writeAt (place : Place) (indent : Nat) : Block → List Char
  | .word value => ' ' :: value.toList ++ ['\n']
  | .text value => ' ' :: endLine (writeText (indent + 2) value)
  | .list items =>
    if items.isEmpty then [' ', '[', ']', '\n']
    else
      match place with
      | .key => '\n' :: spaces indent ++ writeItems indent items
      | .mark => ' ' :: writeItems (indent + 2) items
  | .record entries =>
    if entries.isEmpty then [' ', '\x7b', '\x7d', '\n']
    else
      match place with
      | .key => '\n' :: spaces (indent + 2) ++ writeEntries (indent + 2) entries
      | .mark => ' ' :: writeEntries (indent + 2) entries

/-- Items in column `indent`, the first of which is already indented. -/
def writeItems (indent : Nat) : List Block → List Char
  | [] => []
  | item :: rest =>
    '-' :: writeAt .mark indent item ++
    (if rest.isEmpty then [] else spaces indent ++ writeItems indent rest)

/-- Entries in column `indent`, the first of which is already indented. -/
def writeEntries (indent : Nat) : List (String × Block) → List Char
  | [] => []
  | (key, value) :: rest =>
    (if isSimpleKey key then writeText (indent + 2) key ++ ':' :: writeAt .key indent value
    else
      ['?', ' '] ++ endLine (writeText (indent + 2) key) ++ spaces indent ++
      ':' :: writeAt .mark indent value) ++
    (if rest.isEmpty then [] else spaces indent ++ writeEntries indent rest)

end

/-- The block as a document of its own. -/
def write : Block → String
  | .list items => if items.isEmpty then "[]\n" else String.ofList (writeItems 0 items)
  | .record entries => if entries.isEmpty then "\x7b\x7d\n" else String.ofList (writeEntries 0 entries)
  | .word value => value ++ "\n"
  | .text value => String.ofList (endLine (writeText 2 value))

mutual

/-- The tree that the written form reads back as. -/
def toNode {Name : Type} : Block → Node Name
  | .word value => .scalar none ⟨.plain, none, value⟩
  | .text value => .scalar none ⟨.ofText value, none, value⟩
  | .list items => .sequence none (toNodes items)
  | .record entries => .mapping none (toEntries entries)

def toNodes {Name : Type} : List Block → List (Node Name)
  | [] => []
  | item :: rest => toNode item :: toNodes rest

def toEntries {Name : Type} : List (String × Block) → List (Node Name × Node Name)
  | [] => []
  | (key, value) :: rest => (.scalar none ⟨.ofText key, none, key⟩, toNode value) :: toEntries rest

end

end Block

end PeerPool.Yaml
