import PeerPool.Text.Number

/-! The character classes of YAML, and the line breaks of a text made alike. -/

namespace PeerPool.Yaml

/-- A character that a document may hold unescaped. -/
def isReadable (c : Char) : Bool :=
  c = '\t' || c = '\n' || c = '\r' || (0x20 ≤ c.toNat && c.toNat ≤ 0x7E) || c.toNat = 0x85 ||
  (0xA0 ≤ c.toNat && c.toNat ≤ 0xD7FF) || (0xE000 ≤ c.toNat && c.toNat ≤ 0xFFFD) || 0x10000 ≤ c.toNat

/-- The mark that may stand at the start of a line to tell the encoding. -/
def byteOrderMark : Char := '\ufeff'

/-- A space between words on a line. -/
def isBlank (c : Char) : Bool := c = ' ' || c = '\t'

def lineSeparator : Char := '\u2028'

def paragraphSeparator : Char := '\u2029'

/-- An end of a line, in a text whose breaks are made alike. -/
def isBreak (c : Char) : Bool := c = '\n' || c = lineSeparator || c = paragraphSeparator

def isGap (c : Char) : Bool := isBlank c || isBreak c

/-- The text is over, or goes on with a blank or a break. -/
def atGap (text : List Char) : Bool := text.head?.all isGap

/-- A character of anchors, of tag handles and of directive names. -/
def isWordChar (c : Char) : Bool :=
  ('0' ≤ c && c ≤ '9') || ('A' ≤ c && c ≤ 'Z') || ('a' ≤ c && c ≤ 'z') || c = '_' || c = '-'

/-- A character that separates the parts of a collection in brackets or braces. -/
def isFlowIndicator (c : Char) : Bool :=
  c = ',' || c = '[' || c = ']' || c = '\x7b' || c = '\x7d'

/-- A line that begins with this, and then a gap, begins or ends a document. -/
def isMarker (mark : Char) : List Char → Bool
  | a :: b :: c :: rest => a = mark && b = mark && c = mark && atGap rest
  | _ => false

def isDocumentMarker (text : List Char) : Bool := isMarker '-' text || isMarker '.' text

/-- Makes a line feed of every line break but the two that a scalar keeps. -/
def unifyBreaks : List Char → List Char
  | '\r' :: '\n' :: rest => '\n' :: unifyBreaks rest
  | c :: rest => (if c = '\r' || c = '\u0085' then '\n' else c) :: unifyBreaks rest
  | [] => []

/-- The column behind a character. -/
def columnAfter (column : Nat) (c : Char) : Nat := if isBreak c then 0 else column + 1

end PeerPool.Yaml
