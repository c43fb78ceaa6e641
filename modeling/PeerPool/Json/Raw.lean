import PeerPool.Json.Basic
import PeerPool.Text.Decimal

/-! The syntax of JSON texts, before numbers and escapes are given a meaning. A reader
that skips over a member it has no use for looks only at this, so a number out of
range or half of a surrogate pair does no harm there. -/

namespace PeerPool

/-- A JSON text taken apart. Numbers and strings are as written, the latter without their quotes. -/
inductive RawJson where
  | null
  | bool (value : Bool)
  | number (lexeme : List Char)
  | string (body : List Char)
  | array (items : List RawJson)
  | object (members : List (List Char × RawJson))
deriving Repr, Inhabited

namespace RawJson

open Text

def isSpace (c : Char) : Bool := c = ' ' || c = '\t' || c = '\n' || c = '\r'

def skipSpace (text : List Char) : List Char := text.dropWhile isSpace

/-- The body of a string up to its closing quote, and the text after that. -/
def scanString : List Char → Option (List Char × List Char)
  | '"' :: rest => some ([], rest)
  | '\\' :: 'u' :: a :: b :: c :: d :: rest =>
    if [a, b, c, d].all fun digit => (digitIn? 16 digit).isSome then
      (scanString rest).map fun (body, after) => ('\\' :: 'u' :: a :: b :: c :: d :: body, after)
    else none
  | '\\' :: c :: rest =>
    if ['"', '\\', '/', 'b', 'f', 'n', 'r', 't'].contains c then
      (scanString rest).map fun (body, after) => ('\\' :: c :: body, after)
    else none
  | c :: rest =>
    if c = '\\' || c.toNat < 0x20 then none
    else (scanString rest).map fun (body, after) => (c :: body, after)
  | [] => none

/-- One or more digits. -/
def scanDigits (text : List Char) : Option (List Char × List Char) :=
  let digits := text.takeWhile isDigit
  if digits.isEmpty then none else some (digits, text.dropWhile isDigit)

def scanWhole : List Char → Option (List Char × List Char)
  | '0' :: rest => if rest.head?.any isDigit then none else some (['0'], rest)
  | text => scanDigits text

def scanFraction : List Char → Option (List Char × List Char)
  | '.' :: rest => (scanDigits rest).map fun (digits, after) => ('.' :: digits, after)
  | text => some ([], text)

def scanExponent : List Char → Option (List Char × List Char)
  | c :: rest =>
    if c = 'e' || c = 'E' then
      match rest with
      | '+' :: digits => (scanDigits digits).map fun (digits, after) => (c :: '+' :: digits, after)
      | '-' :: digits => (scanDigits digits).map fun (digits, after) => (c :: '-' :: digits, after)
      | digits => (scanDigits digits).map fun (digits, after) => (c :: digits, after)
    else some ([], c :: rest)
  | [] => some ([], [])

/-- A number without its sign. -/
def scanUnsigned (text : List Char) : Option (List Char × List Char) := do
  let (whole, text) ← scanWhole text
  let (fraction, text) ← scanFraction text
  let (exponent, text) ← scanExponent text
  return (whole ++ fraction ++ exponent, text)

def scanNumber : List Char → Option (List Char × List Char)
  | '-' :: rest => (scanUnsigned rest).map fun (lexeme, after) => ('-' :: lexeme, after)
  | text => scanUnsigned text

/-- The name of a member, its colon, and the space around both. -/
def scanName (text : List Char) : Option (List Char × List Char) :=
  match skipSpace text with
  | '"' :: rest =>
    match scanString rest with
    | some (name, after) =>
      match skipSpace after with
      | ':' :: value => some (name, value)
      | _ => none
    | none => none
  | _ => none

mutual

/-- A value, after any space, and the text behind it. Each step down uses up fuel, of
which the length of the text is enough. -/
def scanValue (fuel : Nat) (text : List Char) : Option (RawJson × List Char) :=
  match fuel with
  | 0 => none
  | fuel + 1 =>
    match skipSpace text with
    | 'n' :: 'u' :: 'l' :: 'l' :: rest => some (.null, rest)
    | 't' :: 'r' :: 'u' :: 'e' :: rest => some (.bool true, rest)
    | 'f' :: 'a' :: 'l' :: 's' :: 'e' :: rest => some (.bool false, rest)
    | '"' :: rest => (scanString rest).map fun (body, after) => (.string body, after)
    | '[' :: rest =>
      match skipSpace rest with
      | ']' :: after => some (.array [], after)
      | _ => (scanItems fuel rest).map fun (items, after) => (.array items, after)
    | '\x7b' :: rest =>
      match skipSpace rest with
      | '\x7d' :: after => some (.object [], after)
      | _ => (scanMembers fuel rest).map fun (members, after) => (.object members, after)
    | other => (scanNumber other).map fun (lexeme, after) => (.number lexeme, after)

/-- The items of an array that has some, with its closing bracket. -/
def scanItems (fuel : Nat) (text : List Char) : Option (List RawJson × List Char) :=
  match fuel with
  | 0 => none
  | fuel + 1 =>
    match scanValue fuel text with
    | none => none
    | some (item, rest) =>
      match skipSpace rest with
      | ',' :: rest => (scanItems fuel rest).map fun (items, after) => (item :: items, after)
      | ']' :: after => some ([item], after)
      | _ => none

/-- The members of an object that has some, with its closing brace. -/
def scanMembers (fuel : Nat) (text : List Char) : Option (List (List Char × RawJson) × List Char) :=
  match fuel with
  | 0 => none
  | fuel + 1 =>
    match scanName text with
    | none => none
    | some (name, rest) =>
      match scanValue fuel rest with
      | none => none
      | some (value, rest) =>
        match skipSpace rest with
        | ',' :: rest =>
          (scanMembers fuel rest).map fun (members, after) => ((name, value) :: members, after)
        | '\x7d' :: after => some ([(name, value)], after)
        | _ => none

end

/-- A text that holds one value and nothing else but space. -/
def ofText? (text : List Char) : Option RawJson :=
  match scanValue (text.length + 1) text with
  | some (value, rest) => if (skipSpace rest).isEmpty then some value else none
  | none => none

/-- Half of a surrogate pair, by its place in the pair. -/
def isHighHalf (code : Nat) : Bool := 0xD800 ≤ code && code ≤ 0xDBFF
def isLowHalf (code : Nat) : Bool := 0xDC00 ≤ code && code ≤ 0xDFFF

def charOf? (code : Nat) : Option Char :=
  if code.isValidChar then some (Char.ofNat code) else none

def hex4? (a b c d : Char) : Option Nat := digitsFrom? 16 0 [a, b, c, d]

/-- Undoes the escapes of a string's body. A half of a surrogate pair alone is refused. -/
def unescape? : List Char → Option (List Char)
  | [] => some []
  | '\\' :: 'u' :: a :: b :: c :: d :: '\\' :: 'u' :: e :: f :: g :: h :: rest =>
    match hex4? a b c d, hex4? e f g h with
    | some high, some low =>
      if isHighHalf high then
        if isLowHalf low then do
          let c ← charOf? (0x10000 + (high - 0xD800) * 0x400 + (low - 0xDC00))
          return c :: (← unescape? rest)
        else none
      else do
        let c ← charOf? high
        return c :: (← unescape? ('\\' :: 'u' :: e :: f :: g :: h :: rest))
    | _, _ => none
  | '\\' :: 'u' :: a :: b :: c :: d :: rest => do
    let c ← charOf? (← hex4? a b c d)
    return c :: (← unescape? rest)
  | '\\' :: c :: rest => do
    let plain ← [('"', '"'), ('\\', '\\'), ('/', '/'), ('b', '\x08'), ('f', '\x0c'), ('n', '\n'),
      ('r', '\r'), ('t', '\t')].lookup c
    return plain :: (← unescape? rest)
  | c :: rest => do return c :: (← unescape? rest)
termination_by body => body.length

def text? (body : List Char) : Option String := (unescape? body).map String.ofList

/-- The value of a number. Whole numbers beyond 64 bits and a negative zero are not kept as whole. -/
def number? (lexeme : List Char) : Option Json :=
  let (negative, digits) := match lexeme with
    | '-' :: rest => (true, rest)
    | all => (false, all)
  match Decimal.read? digits with
  | none => none
  | some value =>
    let signed : Int := if negative then -value.mantissa else value.mantissa
    if digits.all isDigit && -Int.pow 2 63 ≤ signed && signed < Int.pow 2 64 && !(negative && value.mantissa = 0) then
      some (.int signed)
    else if value.exceedsDouble then none
    else some (.real signed value.exponent)

mutual

/-- The value of a text, unless it nests too deeply, or a number or an escape in it has none. -/
def value? (depth : Nat) : RawJson → Option Json
  | .null => some .null
  | .bool value => some (.bool value)
  | .number lexeme => number? lexeme
  | .string body => (text? body).map .str
  | .array items =>
    match depth with
    | 0 => none
    | depth + 1 => (values? depth items).map .arr
  | .object members =>
    match depth with
    | 0 => none
    | depth + 1 => (memberValues? depth members).map .obj

def values? (depth : Nat) : List RawJson → Option (List Json)
  | [] => some []
  | item :: rest => do
    let value ← value? depth item
    return value :: (← values? depth rest)

def memberValues? (depth : Nat) : List (List Char × RawJson) → Option (List (String × Json))
  | [] => some []
  | (name, item) :: rest => do
    let name ← text? name
    let value ← value? depth item
    return (name, value) :: (← memberValues? depth rest)

end

def str? : RawJson → Option String
  | .string body => text? body
  | _ => none

/-- The members with known names, of which none may be there twice. Of the others only the names are looked at. -/
def known? (names : List String) (members : List (List Char × RawJson)) : Option (List (String × RawJson)) := do
  let named ← members.mapM fun (name, value) => (text? name).map (·, value)
  let known := named.filter fun (name, _) => names.contains name
  if (known.map Prod.fst).Nodup then return known else none

/-- The fields of a record, which stands as an object or as the list of its values, where those at the end may be missing. -/
def fields? (names : List String) : RawJson → Option (List (String × RawJson))
  | .object members => known? names members
  | .array items => if items.length ≤ names.length then some (names.zip items) else none
  | _ => none

end RawJson

namespace Json

/-- The deepest nesting of arrays and objects that is read. -/
def depthLimit : Nat := 127

def read? (text : String) : Option Json := do
  (← RawJson.ofText? text.toList).value? depthLimit

end Json

end PeerPool
