import PeerPool.Address.Read
import PeerPool.Address.Write
import PeerPool.Url.Percent
import PeerPool.Url.Punycode

/-! The hosts of locators: domains in lower case, and addresses of either version. -/

namespace PeerPool.Url

open Text

/-- A character that no domain has once its escapes are undone. -/
def isForbiddenInDomain (c : Char) : Bool :=
  c.toNat ≤ 0x20 || c.toNat = 0x7F ||
  ['#', '%', '/', ':', '<', '>', '?', '@', '[', '\\', ']', '^', '|'].contains c

/-- A character that no host has, of whatever scheme. -/
def isForbiddenInHost (c : Char) : Bool :=
  ['\x00', '\t', '\n', '\r', ' ', '#', '/', ':', '<', '>', '?', '@', '[', '\\', ']', '^', '|'].contains c

/-- The digits of a number in the form that its first characters tell: hexadecimal, octal or decimal. -/
def addressNumber? : List Char → Option Nat
  | [] => none
  | ['0', 'x'] | ['0', 'X'] => some 0
  | '0' :: 'x' :: digits | '0' :: 'X' :: digits => natural? 16 digits
  | ['0'] => some 0
  | '0' :: digits => natural? 8 digits
  | digits => natural? 10 digits

/-- The labels of a domain. A dot at its end begins no further one. -/
def labels (domain : List Char) : List (List Char) :=
  let pieces := separate '.' domain
  if 1 < pieces.length && pieces.getLast? = some [] then pieces.dropLast else pieces

def endsInNumber (domain : List Char) : Bool :=
  (labels domain).getLast?.any fun last =>
    !last.isEmpty && (last.all isDigit || (addressNumber? last).isSome)

/-- An address of up to four numbers, the last of which fills what the others leave. -/
def addressOfNumbers? (numbers : List Nat) : Option Address := do
  let last ← numbers.getLast?
  let front := numbers.dropLast
  if 4 < numbers.length || front.any (255 < ·) || Nat.pow 256 (4 - front.length) ≤ last then none
  else
    let bytes := front ++ (List.range (4 - front.length)).reverse.map fun place => last / Nat.pow 256 place % 256
    match bytes.map UInt8.ofNat with
    | [a, b, c, d] => some (.v4 a b c d)
    | _ => none

/-- A label as it stands in a domain. -/
def asciiLabel (label : List Char) : List Char :=
  if label.all (·.toNat < 0x80) then label.map Char.toLower
  else ['x', 'n', '-', '-'] ++ Punycode.encode (label.map Char.toLower)

/-- The other full stops that separate labels. -/
def isFullStop (c : Char) : Bool := c = '\u3002' || c = '\uff0e' || c = '\uff61'

def asciiDomain (domain : List Char) : List Char :=
  let pieces := separate '.' (domain.map fun c => if isFullStop c then '.' else c)
  List.intercalate ['.'] (pieces.map asciiLabel)

def writeHostAddress : Address → String
  | .v4 a b c d => String.ofList (Address.writeV4 a b c d)
  | .v6 groups => String.ofList ('[' :: Address.writeCompressed groups.toList ++ [']'])

def bracketed? (text : List Char) : Option String :=
  if text.getLast? = some ']' then
    ((Address.groups? text.dropLast).bind Address.ofGroups?).map writeHostAddress
  else none

/-- The host of a scheme that is special: a domain, or an address in any of its forms. -/
def domainHost? (text : List Char) : Option String := do
  match text with
  | '[' :: rest => bracketed? rest
  | _ =>
    let decoded ← String.fromUTF8? ⟨(percentDecode text).toArray⟩
    let domain := asciiDomain decoded.toList
    if domain.isEmpty || domain.any isForbiddenInDomain then none
    else if endsInNumber domain then
      let numbers ← (labels domain).mapM addressNumber?
      return writeHostAddress (← addressOfNumbers? numbers)
    else return String.ofList domain

/-- The host of any other scheme, which may be empty. -/
def plainHost? : List Char → Option String
  | '[' :: rest => bracketed? rest
  | text => if text.any isForbiddenInHost then none else some (percentEncode isControl text)

end PeerPool.Url
