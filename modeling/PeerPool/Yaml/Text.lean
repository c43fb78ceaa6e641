import PeerPool.Yaml.Character
import PeerPool.Yaml.Scalar

/-! How a text is written as a scalar. It is plain where that is possible and cannot be
taken for anything but a text; a text of several lines is a literal. What neither they
nor single quotes can hold is escaped in double quotes. -/

namespace PeerPool.Yaml

/-- A character that is written as it is. -/
def isPrintable (c : Char) : Bool :=
  c = '\n' || (0x20 ≤ c.toNat && c.toNat ≤ 0x7E) || (0xA0 ≤ c.toNat && c.toNat ≤ 0xD7FF) ||
  (0xE000 ≤ c.toNat && c.toNat ≤ 0xFFFD && c != byteOrderMark) || 0x10000 ≤ c.toNat

/-- Some character of the first kind is directly followed by one of the second. -/
def hasPair (first second : Char → Bool) : List Char → Bool
  | a :: b :: rest => (first a && second b) || hasPair first second (b :: rest)
  | _ => false

/-- A text that begins like this would be taken for something other than a plain scalar. -/
def opensOtherwise : List Char → Bool
  | [] => true
  | c :: rest =>
    isFlowIndicator c || ['#', '&', '*', '!', '|', '>', '\'', '"', '%', '@', '\x60'].contains c ||
    ((c = '-' || c = '?' || c = ':') && atGap rest) ||
    ['-', '-', '-'].isPrefixOf (c :: rest) || ['.', '.', '.'].isPrefixOf (c :: rest)

/-- A plain scalar would end before this text does. -/
def breaksOff (text : List Char) : Bool :=
  text.getLast? = some ':' || hasPair (· = ':') isGap text || hasPair isGap (· = '#') text

/-- The text reads back from a plain scalar. -/
def fitsPlain (text : List Char) : Bool :=
  !opensOtherwise text && !breaksOff text && text.all (fun c => isPrintable c && !isBreak c) &&
  !text.head?.any isGap && !text.getLast?.any isGap

/-- The text reads back from single quotes, where blanks at either end of a line are lost. -/
def fitsSingle (text : List Char) : Bool :=
  text.all isPrintable && !hasPair isBreak isBlank text && !hasPair isBlank isBreak text

/-- The text reads back from a literal. -/
def fitsLiteral (text : List Char) : Bool :=
  text.all isPrintable && !hasPair isBlank isBreak text && !text.getLast?.any isBlank

def Style.ofText (text : String) : Style :=
  let chars := text.toList
  if chars.contains '\n' then
    if fitsLiteral chars then .literal else .doubleQuoted
  else if !isAmbiguous text && fitsPlain chars then .plain
  else if fitsSingle chars then .singleQuoted
  else .doubleQuoted

def spaces (count : Nat) : List Char := List.replicate count ' '

/-- The digits of a number in base 16, in capitals and with leading zeros. -/
def hexDigits : Nat → Nat → List Char
  | 0, _ => []
  | width + 1, value =>
    let digit := value % 16
    hexDigits width (value / 16) ++ [Char.ofNat (if digit < 10 then 48 + digit else 55 + digit)]

/-- The characters with an escape of their own. -/
def namedEscapes : List (Char × Char) :=
  [('\x00', '0'), ('\x07', 'a'), ('\x08', 'b'), ('\t', 't'), ('\n', 'n'), ('\x0b', 'v'), ('\x0c', 'f'),
   ('\r', 'r'), ('\x1b', 'e'), ('"', '"'), ('\\', '\\'), ('\u0085', 'N'), ('\u00a0', '_'),
   (lineSeparator, 'L'), (paragraphSeparator, 'P')]

/-- A character as it stands in double quotes. -/
def escape (c : Char) : List Char :=
  if isPrintable c && !isBreak c && c != '"' && c != '\\' then [c]
  else
    match namedEscapes.lookup c with
    | some name => ['\\', name]
    | none =>
      if c.toNat ≤ 0xFF then '\\' :: 'x' :: hexDigits 2 c.toNat
      else if c.toNat ≤ 0xFFFF then '\\' :: 'u' :: hexDigits 4 c.toNat
      else '\\' :: 'U' :: hexDigits 8 c.toNat

def writeDouble (text : List Char) : List Char := '"' :: text.flatMap escape ++ ['"']

/-- The text between single quotes from some character on, with the closing quote. A new
line is indented before its first character. -/
def writeSingleFrom (indent : Nat) (fresh : Bool) : List Char → List Char
  | [] => (if fresh then spaces indent else []) ++ ['\'']
  | c :: rest =>
    if isBreak c then c :: writeSingleFrom indent true rest
    else
      (if fresh then spaces indent else []) ++ (if c = '\'' then ['\'', '\''] else [c]) ++
      writeSingleFrom indent false rest

/-- The lines of a literal from some character on. Empty lines are not indented. -/
def writeLiteralFrom (indent : Nat) (fresh : Bool) : List Char → List Char
  | [] => []
  | c :: rest =>
    if isBreak c then c :: writeLiteralFrom indent true rest
    else (if fresh then spaces indent else []) ++ c :: writeLiteralFrom indent false rest

/-- The header of a literal: its indentation where the first line would not show it, and
a mark where the text does not end in exactly one line break. -/
def literalHeader (text : List Char) : List Char :=
  let indentation := if text.head?.any fun c => c = ' ' || isBreak c then ['2'] else []
  let chomping := match text.reverse with
    | [] => ['-']
    | [last] => if isBreak last then ['+'] else ['-']
    | last :: other :: _ => if isBreak last then if isBreak other then ['+'] else [] else ['-']
  '|' :: indentation ++ chomping ++ ['\n']

/-- A text as a scalar whose further lines are indented so far. -/
def writeText (indent : Nat) (text : String) : List Char :=
  let chars := text.toList
  match Style.ofText text with
  | .plain => chars
  | .singleQuoted => '\'' :: writeSingleFrom indent false chars
  | .literal => literalHeader chars ++ writeLiteralFrom indent true chars
  | _ => writeDouble chars

end PeerPool.Yaml
