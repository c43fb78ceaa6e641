import PeerPool.Yaml.Character
import PeerPool.Yaml.Token.Basic

/-! Scalars that may go on over several lines: plain and quoted ones. Between two words
a single line break counts as a space, and of several the first is dropped. -/

namespace PeerPool.Yaml

/-- White space between two words, of which it is not yet known whether it will count. -/
inductive Gap where
  | blanks (text : List Char)
  /-- Line breaks; the first is none when it was escaped. -/
  | breaks (first : Option Char) (later : List Char)
deriving DecidableEq, Repr

namespace Gap

def none : Gap := .blanks []

/-- Extends a gap. Blanks at either end of a line do not count. -/
def push (c : Char) : Gap → Gap
  | .blanks text => if isBreak c then .breaks (some c) [] else .blanks (text ++ [c])
  | .breaks first later => if isBreak c then .breaks first (later ++ [c]) else .breaks first later

/-- What a gap between two words comes to. -/
def fold : Gap → List Char
  | .blanks text => text
  | .breaks (some '\n') [] => [' ']
  | .breaks (some '\n') later => later
  | .breaks first later => first.toList ++ later

def isBroken : Gap → Bool
  | .blanks _ => false
  | .breaks _ _ => true

end Gap

/-- The context in which a plain scalar stands. -/
structure PlainContext where
  /-- Inside brackets or braces. -/
  inFlow : Bool
  /-- The least column that the lines of the scalar may begin at. -/
  indent : Nat
deriving Repr

/-- The scalar is over before a word that begins like this. -/
def PlainContext.endsBefore (context : PlainContext) (gap : Gap) (column : Nat) (text : List Char) : Bool :=
  (gap.isBroken && !context.inFlow && column < context.indent) ||
  (column = 0 && isDocumentMarker text) ||
  (gap != .none && text.head? = some '#')

/-- The scalar is over before this, even in the middle of a word. -/
def PlainContext.endsAt (context : PlainContext) (c : Char) (rest : List Char) : Bool :=
  (c = ':' && atGap rest) || (context.inFlow && isFlowIndicator c)

/-- A colon that is neither part of a word nor clearly the end of a key. -/
def PlainContext.refuses (context : PlainContext) (c : Char) (rest : List Char) : Bool :=
  context.inFlow && c = ':' && rest.head?.any fun next => isFlowIndicator next || next = '?'

/-- The words of a plain scalar, after a gap. The gap in front of its end does not count. -/
def scanPlain (context : PlainContext) (gap : Gap) (multiline : Bool) (column : Nat) :
    List Char → Option (Scanned (List Char))
  | [] => some ⟨[], multiline, gap.isBroken, column, []⟩
  | c :: rest =>
    if isGap c then
      if gap.isBroken && c = '\t' && column < context.indent then none
      else scanPlain context (gap.push c) (multiline || isBreak c) (columnAfter column c) rest
    else if context.endsBefore gap column (c :: rest) then some ⟨[], multiline, gap.isBroken, column, c :: rest⟩
    else if context.refuses c rest then none
    else if context.endsAt c rest then some ⟨[], multiline, gap.isBroken, column, c :: rest⟩
    else (scanPlain context .none multiline (column + 1) rest).map (.prepend (gap.fold ++ [c]))

/-- The words of a scalar in single quotes, after a gap. -/
def scanSingle (gap : Gap) (multiline : Bool) (column : Nat) : List Char → Option (Scanned (List Char))
  | [] => none
  | '\'' :: '\'' :: rest =>
    (scanSingle .none multiline (column + 2) rest).map (.prepend (gap.fold ++ ['\'']))
  | '\'' :: rest => some ⟨gap.fold, multiline, false, column + 1, rest⟩
  | c :: rest =>
    if isGap c then scanSingle (gap.push c) (multiline || isBreak c) (columnAfter column c) rest
    else if column = 0 && isDocumentMarker (c :: rest) then none
    else (scanSingle .none multiline (column + 1) rest).map (.prepend (gap.fold ++ [c]))

/-- The escapes of a backslash and one more character. -/
def shortEscapes : List (Char × Char) :=
  [('0', '\x00'), ('a', '\x07'), ('b', '\x08'), ('t', '\t'), ('\t', '\t'), ('n', '\n'), ('v', '\x0b'),
   ('f', '\x0c'), ('r', '\r'), ('e', '\x1b'), (' ', ' '), ('"', '"'), ('/', '/'), ('\\', '\\'),
   ('N', '\u0085'), ('_', '\u00a0'), ('L', lineSeparator), ('P', paragraphSeparator)]

/-- The character that hexadecimal digits denote. -/
def charOfDigits? (digits : List Char) : Option Char := do
  let code ← Text.digitsFrom? 16 0 digits
  if code.isValidChar then return Char.ofNat code else none

/-- The words of a scalar in double quotes, after a gap. -/
def scanDouble (gap : Gap) (multiline : Bool) (column : Nat) : List Char → Option (Scanned (List Char))
  | [] => none
  | '"' :: rest => some ⟨gap.fold, multiline, false, column + 1, rest⟩
  | '\\' :: 'x' :: a :: b :: rest => do
    let c ← charOfDigits? [a, b]
    (scanDouble .none multiline (column + 4) rest).map (.prepend (gap.fold ++ [c]))
  | '\\' :: 'u' :: a :: b :: c :: d :: rest => do
    let c ← charOfDigits? [a, b, c, d]
    (scanDouble .none multiline (column + 6) rest).map (.prepend (gap.fold ++ [c]))
  | '\\' :: 'U' :: a :: b :: c :: d :: e :: f :: g :: h :: rest => do
    let c ← charOfDigits? [a, b, c, d, e, f, g, h]
    (scanDouble .none multiline (column + 10) rest).map (.prepend (gap.fold ++ [c]))
  | '\\' :: c :: rest =>
    if isBreak c then (scanDouble (.breaks .none []) true 0 rest).map (.prepend gap.fold)
    else do
      let plain ← shortEscapes.lookup c
      (scanDouble .none multiline (column + 2) rest).map (.prepend (gap.fold ++ [plain]))
  | c :: rest =>
    if isGap c then scanDouble (gap.push c) (multiline || isBreak c) (columnAfter column c) rest
    else if column = 0 && isDocumentMarker (c :: rest) then none
    else (scanDouble .none multiline (column + 1) rest).map (.prepend (gap.fold ++ [c]))

end PeerPool.Yaml
