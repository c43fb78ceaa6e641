import PeerPool.Yaml.Node.Basic
import PeerPool.Yaml.Token.Basic

/-! The tree that a document's tokens spell out. -/

namespace PeerPool.Yaml

/-- What the handles of a document's tags stand for. -/
abbrev TagHandles := List (String × String)

/-- The handles that need no directive. -/
def defaultHandles : TagHandles := [("!", "!"), ("!!", coreTag "")]

/-- The full text of a tag, unless its handle is unknown. -/
def TagHandles.resolve? (handles : TagHandles) (handle suffix : String) : Option String :=
  if handle.isEmpty then some suffix else (handles.lookup handle).map (· ++ suffix)

/-- What may stand in front of a node, in either order. -/
structure Properties where
  anchor : Option String := none
  tag : Option String := none
deriving DecidableEq, Repr

namespace Node

def properties (handles : TagHandles) : List Token → Option (Properties × List Token)
  | .anchor name :: .tag handle suffix :: rest => do
    return (⟨some name, some (← handles.resolve? handle suffix)⟩, rest)
  | .tag handle suffix :: .anchor name :: rest => do
    return (⟨some name, some (← handles.resolve? handle suffix)⟩, rest)
  | .anchor name :: rest => some (⟨some name, none⟩, rest)
  | .tag handle suffix :: rest => do return (⟨none, some (← handles.resolve? handle suffix)⟩, rest)
  | tokens => some (⟨none, none⟩, tokens)

/-- A scalar's tag. The tag `!` says only that the scalar is not to be guessed at. -/
def scalarTag : Option String → Option String
  | some "!" => none
  | tag => tag

/-- Nothing stands here where a node of a block collection could stand. -/
def endsBlock : List Token → Bool
  | .key :: _ => true
  | .value :: _ => true
  | .blockEnd :: _ => true
  | _ => false

/-- Nothing stands here where a node between brackets or braces could stand. -/
def endsFlow : List Token → Bool
  | .comma :: _ => true
  | .flowSequenceEnd :: _ => true
  | .flowMappingEnd :: _ => true
  | _ => false

def startsItem : List Token → Bool
  | .item :: _ => true
  | _ => false

mutual

/-- A node. In a block it may be a block collection, and as the value of a key a sequence
that is not indented (`dashes`). Every step uses up fuel, of which the number of
tokens is enough several times over. -/
def parse (handles : TagHandles) (fuel : Nat) (block dashes : Bool) (tokens : List Token) :
    Option (Node String × List Token) :=
  match fuel with
  | 0 => none
  | fuel + 1 =>
    match tokens with
    | .alias name :: rest => some (.alias name, rest)
    | _ => do
      let (properties, tokens) ← properties handles tokens
      match tokens with
      | .scalar style text :: rest =>
        return (.scalar properties.anchor ⟨style, scalarTag properties.tag, text⟩, rest)
      | .flowSequenceStart :: .flowSequenceEnd :: rest => return (.sequence properties.anchor [], rest)
      | .flowSequenceStart :: rest =>
        let (items, rest) ← flowItems handles fuel rest
        return (.sequence properties.anchor items, rest)
      | .flowMappingStart :: .flowMappingEnd :: rest => return (.mapping properties.anchor [], rest)
      | .flowMappingStart :: rest =>
        let (entries, rest) ← flowEntries handles fuel rest
        return (.mapping properties.anchor entries, rest)
      | .blockSequenceStart :: rest =>
        if !block then none
        else
          let (items, rest) ← blockItems handles fuel rest
          return (.sequence properties.anchor items, rest)
      | .blockMappingStart :: rest =>
        if !block then none
        else
          let (entries, rest) ← blockEntries handles fuel rest
          return (.mapping properties.anchor entries, rest)
      | _ =>
        if dashes && startsItem tokens then
          let (items, rest) ← flatItems handles fuel tokens
          return (.sequence properties.anchor items, rest)
        else if properties = ⟨none, none⟩ then none
        else return (.scalar properties.anchor ⟨.plain, properties.tag, ""⟩, tokens)

/-- The items of a block sequence, with its end. -/
def blockItems (handles : TagHandles) (fuel : Nat) (tokens : List Token) :
    Option (List (Node String) × List Token) :=
  match fuel with
  | 0 => none
  | fuel + 1 =>
    match tokens with
    | .blockEnd :: rest => some ([], rest)
    | .item :: rest => do
      let (item, rest) ←
        if startsItem rest || rest.head? = some .blockEnd then some (absent, rest)
        else parse handles fuel true false rest
      let (items, rest) ← blockItems handles fuel rest
      return (item :: items, rest)
    | _ => none

/-- The items of a sequence that stands as far left as the key it belongs to. It ends
where no further item follows. -/
def flatItems (handles : TagHandles) (fuel : Nat) (tokens : List Token) :
    Option (List (Node String) × List Token) :=
  match fuel with
  | 0 => none
  | fuel + 1 =>
    match tokens with
    | .item :: rest => do
      let (item, rest) ←
        if startsItem rest || endsBlock rest then some (absent, rest)
        else parse handles fuel true false rest
      let (items, rest) ← flatItems handles fuel rest
      return (item :: items, rest)
    | _ => some ([], tokens)

/-- The entries of a block mapping, with its end. -/
def blockEntries (handles : TagHandles) (fuel : Nat) (tokens : List Token) :
    Option (List (Node String × Node String) × List Token) :=
  match fuel with
  | 0 => none
  | fuel + 1 =>
    match tokens with
    | .blockEnd :: rest => some ([], rest)
    | .key :: rest => do
      let (key, rest) ←
        if endsBlock rest then some (absent, rest) else parse handles fuel true true rest
      let (value, rest) ← blockValue handles fuel rest
      let (entries, rest) ← blockEntries handles fuel rest
      return ((key, value) :: entries, rest)
    | _ => none

/-- The value behind a key of a block mapping, which may be left out. -/
def blockValue (handles : TagHandles) (fuel : Nat) (tokens : List Token) :
    Option (Node String × List Token) :=
  match fuel with
  | 0 => none
  | fuel + 1 =>
    match tokens with
    | .value :: rest => if endsBlock rest then some (absent, rest) else parse handles fuel true true rest
    | _ => some (absent, tokens)

/-- The value behind a key between brackets or braces, which may be left out. -/
def flowValue (handles : TagHandles) (fuel : Nat) (tokens : List Token) :
    Option (Node String × List Token) :=
  match fuel with
  | 0 => none
  | fuel + 1 =>
    match tokens with
    | .value :: rest => if endsFlow rest then some (absent, rest) else parse handles fuel false false rest
    | _ => some (absent, tokens)

/-- An item between brackets. It may be a mapping of one entry without braces. -/
def flowItem (handles : TagHandles) (fuel : Nat) (tokens : List Token) :
    Option (Node String × List Token) :=
  match fuel with
  | 0 => none
  | fuel + 1 =>
    match tokens with
    | .key :: rest => do
      let (key, rest) ← parse handles fuel false false rest
      let (value, rest) ← flowValue handles fuel rest
      return (.mapping none [(key, value)], rest)
    | _ => parse handles fuel false false tokens

/-- The items between brackets, of which there are some, with the closing bracket. -/
def flowItems (handles : TagHandles) (fuel : Nat) (tokens : List Token) :
    Option (List (Node String) × List Token) :=
  match fuel with
  | 0 => none
  | fuel + 1 => do
    let (item, rest) ← flowItem handles fuel tokens
    match rest with
    | .flowSequenceEnd :: rest => return ([item], rest)
    | .comma :: .flowSequenceEnd :: rest => return ([item], rest)
    | .comma :: rest =>
      let (items, rest) ← flowItems handles fuel rest
      return (item :: items, rest)
    | _ => none

/-- An entry between braces. A node without a value is a key. -/
def flowEntry (handles : TagHandles) (fuel : Nat) (tokens : List Token) :
    Option ((Node String × Node String) × List Token) :=
  match fuel with
  | 0 => none
  | fuel + 1 =>
    match tokens with
    | .key :: rest => do
      let (key, rest) ←
        if endsFlow rest || rest.head? = some .value then some (absent, rest)
        else parse handles fuel false false rest
      let (value, rest) ← flowValue handles fuel rest
      return ((key, value), rest)
    | _ => do
      let (key, rest) ← parse handles fuel false false tokens
      return ((key, absent), rest)

/-- The entries between braces, of which there are some, with the closing brace. -/
def flowEntries (handles : TagHandles) (fuel : Nat) (tokens : List Token) :
    Option (List (Node String × Node String) × List Token) :=
  match fuel with
  | 0 => none
  | fuel + 1 => do
    let (entry, rest) ← flowEntry handles fuel tokens
    match rest with
    | .flowMappingEnd :: rest => return ([entry], rest)
    | .comma :: .flowMappingEnd :: rest => return ([entry], rest)
    | .comma :: rest =>
      let (entries, rest) ← flowEntries handles fuel rest
      return (entry :: entries, rest)
    | _ => none

end

end Node

end PeerPool.Yaml
