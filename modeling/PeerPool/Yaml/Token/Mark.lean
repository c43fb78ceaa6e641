import PeerPool.Yaml.Character
import PeerPool.Yaml.Token.Basic

/-! Names and tags of nodes, and the directives in front of a document. -/

namespace PeerPool.Yaml

def wordOf (text : List Char) : List Char × List Char := (text.takeWhile isWordChar, text.dropWhile isWordChar)

/-- The name behind `&` or `*`. -/
def scanName (text : List Char) : Option (List Char × List Char) :=
  let (name, rest) := wordOf text
  let ended := atGap rest || rest.head?.any ['?', ':', ',', ']', '\x7d', '%', '@', '\x60'].contains
  if name.isEmpty || !ended then none else some (name, rest)

/-- A character of a tag. Brackets and commas stand only in tags that are spelled out. -/
def isTagChar (verbatim : Bool) (c : Char) : Bool :=
  isWordChar c ||
  [';', '/', '?', ':', '@', '&', '=', '+', '$', '.', '!', '~', '*', '\'', '(', ')'].contains c ||
  (verbatim && [',', '[', ']'].contains c)

/-- How many octets encode the character whose encoding begins with this one. -/
def encodedLength (octet : Nat) : Nat :=
  if octet < 0x80 then 1 else if octet < 0xC0 then 0 else if octet < 0xE0 then 2
  else if octet < 0xF0 then 3 else if octet < 0xF8 then 4 else 0

def octetOf? (high low : Char) : Option Nat := Text.digitsFrom? 16 0 [high, low]

/-- A number of escaped octets that continue an encoding. They stay as they are written. -/
def scanContinuation : Nat → List Char → Option (List Char × List Char)
  | 0, text => some ([], text)
  | n + 1, '%' :: a :: b :: rest => do
    let octet ← octetOf? a b
    if 0x80 ≤ octet && octet < 0xC0 then
      let (more, after) ← scanContinuation n rest
      return ('%' :: a :: b :: more, after)
    else none
  | _ + 1, _ => none

/-- An escaped character. It is undone where it stands for an ASCII character. -/
def scanEscaped : List Char → Option (List Char × List Char)
  | '%' :: a :: b :: rest => do
    let octet ← octetOf? a b
    match encodedLength octet with
    | 0 => none
    | 1 => return ([Char.ofNat octet], rest)
    | n + 2 =>
      let (more, after) ← scanContinuation (n + 1) rest
      return ('%' :: a :: b :: more, after)
  | _ => none

/-- The longest run of tag characters, with its escapes undone. -/
def scanTagText (verbatim : Bool) (text : List Char) : Option (List Char × List Char) :=
  match text with
  | [] => some ([], [])
  | c :: rest =>
    if isTagChar verbatim c then
      (scanTagText verbatim rest).map fun (more, after) => (c :: more, after)
    else if c = '%' then
      match scanEscaped text with
      | none => none
      | some (part, after) =>
        if after.length < rest.length + 1 then
          (scanTagText verbatim after).map fun (more, after) => (part ++ more, after)
        else none
    else some ([], text)
termination_by text.length

/-- A tag behind its `!`: a handle and a suffix. The handle is empty for a tag that is
spelled out in angle brackets, and for the tag that is nothing but `!`. -/
def scanTag (inFlow : Bool) (text : List Char) : Option (Token × List Char) := do
  let (token, rest) ← match text with
    | '<' :: rest => do
      let (suffix, rest) ← scanTagText true rest
      match rest with
      | '>' :: rest => if suffix.isEmpty then none else some (Token.tag "" (String.ofList suffix), rest)
      | _ => none
    | _ =>
      match wordOf text with
      | (word, '!' :: rest) => do
        let (suffix, rest) ← scanTagText false rest
        if suffix.isEmpty then none
        else some (Token.tag (String.ofList ('!' :: word ++ ['!'])) (String.ofList suffix), rest)
      | (word, rest) => do
        let (more, rest) ← scanTagText false rest
        let suffix := word ++ more
        if suffix.isEmpty then some (Token.tag "" "!", rest)
        else some (Token.tag "!" (String.ofList suffix), rest)
  if atGap rest || (inFlow && rest.head? = some ',') then return (token, rest) else none

/-- A number of at most nine digits. -/
def scanVersionPart (text : List Char) : Option (Nat × List Char) := do
  let digits := text.takeWhile Text.isDigit
  if 9 < digits.length then none
  else return (← Text.natural? 10 digits, text.dropWhile Text.isDigit)

def scanVersion (text : List Char) : Option (Token × List Char) := do
  match ← scanVersionPart (text.dropWhile isBlank) with
  | (major, '.' :: rest) =>
    let (minor, rest) ← scanVersionPart rest
    return (.version major minor, rest)
  | _ => none

/-- A handle, for which its replacement is given. -/
def scanHandle : List Char → Option (List Char × List Char)
  | '!' :: rest =>
    match wordOf rest with
    | (word, '!' :: rest) => some ('!' :: word ++ ['!'], rest)
    | ([], rest) => some (['!'], rest)
    | _ => none
  | _ => none

def scanTagDirective (text : List Char) : Option (Token × List Char) := do
  let (handle, rest) ← scanHandle (text.dropWhile isBlank)
  if !rest.head?.any isBlank then none
  else
    let (replacement, rest) ← scanTagText true (rest.dropWhile isBlank)
    if replacement.isEmpty || !atGap rest then none
    else return (.tagHandle (String.ofList handle) (String.ofList replacement), rest)

/-- A directive behind its `%`. No other directives are known. -/
def scanDirective (text : List Char) : Option (Token × List Char) :=
  match wordOf text with
  | (['Y', 'A', 'M', 'L'], rest) => if atGap rest then scanVersion rest else none
  | (['T', 'A', 'G'], rest) => if atGap rest then scanTagDirective rest else none
  | _ => none

end PeerPool.Yaml
