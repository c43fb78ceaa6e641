import PeerPool.Yaml.Character
import PeerPool.Yaml.Token.Basic

/-! Scalars that take up the lines below their header. The header tells whether line
breaks are kept or folded, what becomes of those at the end, and, where the first
line would mislead, how far the text is indented. -/

namespace PeerPool.Yaml

/-- What becomes of the line breaks at the end of a block scalar: none stays, one, or all. -/
inductive Chomping where
  | strip
  | clip
  | keep
deriving DecidableEq, Repr

structure BlockHeader where
  chomping : Chomping := .clip
  /-- How far the text is indented beyond what it stands in, if that is stated. -/
  indentation : Option Nat := none
deriving DecidableEq, Repr

def chompingOf? (c : Char) : Option Chomping :=
  if c = '-' then some .strip else if c = '+' then some .keep else none

def indentationOf? (c : Char) : Option Nat :=
  if '1' ≤ c && c ≤ '9' then Text.digitValue? c else none

/-- The marks of a header, which may come in either order. -/
def BlockHeader.scan (text : List Char) : BlockHeader × List Char :=
  match text with
  | [] => (⟨.clip, none⟩, [])
  | c :: rest =>
    match chompingOf? c, indentationOf? c with
    | some chomping, _ =>
      match rest.head?.bind indentationOf? with
      | some indentation => (⟨chomping, some indentation⟩, rest.tail)
      | none => (⟨chomping, none⟩, rest)
    | none, some indentation =>
      match rest.head?.bind chompingOf? with
      | some chomping => (⟨chomping, some indentation⟩, rest.tail)
      | none => (⟨.clip, some indentation⟩, rest)
    | none, none => (⟨.clip, none⟩, text)

/-- The line behind a header or a directive: blanks, perhaps a comment, and its break. -/
def skipLineEnd (text : List Char) : Option (List Char) :=
  let rest := text.dropWhile isBlank
  let rest := if rest.head? = some '#' then rest.dropWhile (!isBreak ·) else rest
  match rest with
  | [] => some []
  | c :: after => if isBreak c then some after else none

/-- A line of a block scalar without its indentation. An empty one has a break only. -/
structure Line where
  text : List Char
  /-- The break that ends it; the last line of a document may have none. -/
  ending : Option Char
deriving DecidableEq, Repr

/-- Takes up to `width` spaces off a line and counts them. -/
def dropIndentation (width : Nat) (text : List Char) : Nat × List Char :=
  let spaces := (text.takeWhile (· = ' ')).length
  (min width spaces, text.drop (min width spaces))

/-- The lines that belong to a block scalar of the given indentation. They end where a
line that is not empty begins further left. A tab may not stand for indentation. -/
def scanLines (indentation : Nat) (text : List Char) : Option (List Line × List Char) :=
  let (width, body) := dropIndentation indentation text
  match body with
  | [] => some ([], text)
  | c :: after =>
    if isBreak c then
      if after.length < text.length then
        (scanLines indentation after).map fun (lines, rest) => (⟨[], some c⟩ :: lines, rest)
      else none
    else if width < indentation then
      if c = '\t' then none else some ([], text)
    else
      let line := body.takeWhile (!isBreak ·)
      match body.dropWhile (!isBreak ·) with
      | [] => some ([⟨line, none⟩], [])
      | ending :: after =>
        if after.length < text.length then
          (scanLines indentation after).map fun (lines, rest) => (⟨line, some ending⟩ :: lines, rest)
        else none
termination_by text.length

/-- The indentation that the first lines show: that of the first line which is not
empty, or of a longer one of spaces before it. -/
def shownIndentation (text : List Char) : Option Nat :=
  let spaces := (text.takeWhile (· = ' ')).length
  match text.drop spaces with
  | [] => some spaces
  | c :: after =>
    if isBreak c then
      if after.length < text.length then (shownIndentation after).map (max spaces) else none
    else if c = '\t' then none else some spaces
termination_by text.length

/-- The break between two lines of text, and the breaks of the empty lines that follow it,
as they are folded. A line that begins with a blank is never folded. -/
def foldBreaks (before : Line) (empty : List Char) (after : Line) : List Char :=
  if before.ending = some '\n' && !before.text.head?.any isBlank && !after.text.head?.any isBlank then
    if empty.isEmpty then [' '] else empty
  else before.ending.toList ++ empty

/-- The lines from one line of text on, with the breaks of the empty lines since. -/
def joinLines (fold : Bool) (chomping : Chomping) (last : Line) (empty : List Char) : List Line → List Char
  | [] =>
    match chomping with
    | .strip => last.text
    | .clip => last.text ++ last.ending.toList
    | .keep => last.text ++ last.ending.toList ++ empty
  | line :: rest =>
    if line.text.isEmpty then joinLines fold chomping last (empty ++ line.ending.toList) rest
    else
      let between := if fold then foldBreaks last empty line else last.ending.toList ++ empty
      last.text ++ between ++ joinLines fold chomping line [] rest

/-- The text that the lines of a block scalar come to. -/
def blockText (fold : Bool) (chomping : Chomping) (lines : List Line) : List Char :=
  joinLines fold chomping ⟨[], none⟩ [] lines

/-- A block scalar after its indicator. `least` is the smallest column that it may begin at. -/
def scanBlock (fold : Bool) (least : Nat) (text : List Char) : Option (Scanned (List Char)) := do
  let (header, rest) := BlockHeader.scan text
  let body ← skipLineEnd rest
  let indentation ← match header.indentation with
    | some stated => some (least - 1 + stated)
    | none => (shownIndentation body).map fun shown => max (max shown least) 1
  let (lines, rest) ← scanLines indentation body
  return ⟨blockText fold header.chomping lines, true, true, 0, rest⟩

end PeerPool.Yaml
