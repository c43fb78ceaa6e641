import PeerPool.Address.Basic
import PeerPool.Text.Number
import PeerPool.Text.Split

/-! Reading the text of an address, in any of the forms that denote it. -/

namespace PeerPool.Address

open Text

/-- A number up to 255 without superfluous zeros. -/
def octet? (text : List Char) : Option UInt8 :=
  if text.isEmpty || 3 < text.length || (1 < text.length && text.head? = some '0') then none
  else do
    let value ← natural? 10 text
    if value < 256 then return UInt8.ofNat value else none

def octets? (text : List Char) : Option (UInt8 × UInt8 × UInt8 × UInt8) :=
  match separate '.' text with
  | [a, b, c, d] => do return (← octet? a, ← octet? b, ← octet? c, ← octet? d)
  | _ => none

/-- One to four hexadecimal digits. -/
def group? (text : List Char) : Option UInt16 :=
  if 4 < text.length then none else (natural? 16 text).map UInt16.ofNat

def joinBytes (high low : UInt8) : UInt16 := (high.toUInt16 <<< 8) ||| low.toUInt16

/-- The two groups that an address of version 4 fills. -/
def embedded? (text : List Char) : Option (List UInt16) := do
  let (a, b, c, d) ← octets? text
  return [joinBytes a b, joinBytes c d]

/-- Groups between colons. The last may be an address of version 4, which fills two. -/
def groupList? : List (List Char) → Option (List UInt16)
  | [] => some []
  | [last] => (embedded? last).or ((group? last).map ([·]))
  | piece :: rest => do
    let group ← group? piece
    return group :: (← groupList? rest)

/-- The groups on one side of the gap; there may be none. -/
def side? (text : List Char) : Option (List UInt16) :=
  if text.isEmpty then some [] else groupList? (separate ':' text)

/-- The groups before the gap, of which none is in the form of version 4. -/
def front? (text : List Char) : Option (List UInt16) :=
  if text.contains '.' then none else side? text

def groups? (text : List Char) : Option (List UInt16) :=
  match splitOnce [':', ':'] text with
  | none => groupList? (separate ':' text)
  | some (before, after) => do
    let front ← front? before
    let back ← side? after
    if front.length + back.length < 8 then
      return front ++ List.replicate (8 - front.length - back.length) 0 ++ back
    else none

def ofGroups? (groups : List UInt16) : Option Address :=
  if full : groups.length = 8 then some (.v6 ⟨groups.toArray, by simpa using full⟩) else none

def readChars? (text : List Char) : Option Address :=
  match octets? text with
  | some (a, b, c, d) => some (.v4 a b c d)
  | none => (groups? text).bind ofGroups?

def read? (text : String) : Option Address := readChars? text.toList

end PeerPool.Address
