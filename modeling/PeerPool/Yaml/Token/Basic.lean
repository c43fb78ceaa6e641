import PeerPool.Yaml.Scalar

/-! The tokens of a document. Indentation is made explicit: a block collection has a
start and an end, although neither is written. -/

namespace PeerPool.Yaml

inductive Token where
  | documentStart
  | documentEnd
  | version (major minor : Nat)
  | tagHandle (handle replacement : String)
  | blockSequenceStart
  | blockMappingStart
  | blockEnd
  | flowSequenceStart
  | flowSequenceEnd
  | flowMappingStart
  | flowMappingEnd
  /-- The dash before an item of a block sequence. -/
  | item
  /-- The comma between the parts of a collection in brackets or braces. -/
  | comma
  | key
  | value
  | alias (name : String)
  | anchor (name : String)
  | tag (handle suffix : String)
  | scalar (style : Style) (text : String)
deriving DecidableEq, Repr, Inhabited

/-- A piece of text that has been read, and where reading goes on. -/
structure Scanned (α : Type) where
  value : α
  /-- A line ended while it was read. -/
  multiline : Bool
  /-- Since then there were only blanks. -/
  startsLine : Bool
  column : Nat
  rest : List Char
deriving Repr

/-- Puts characters in front of a text that has been read. -/
def Scanned.prepend (front : List Char) (scanned : Scanned (List Char)) : Scanned (List Char) :=
  { scanned with value := front ++ scanned.value }

end PeerPool.Yaml
