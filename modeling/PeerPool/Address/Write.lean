import PeerPool.Address.Basic
import PeerPool.Text.Number

/-! The canonical text of an address. In version 6 the first of the longest runs of two
or more zero groups is left out, and an address that stands for one of version 4 ends
in its text. -/

namespace PeerPool.Address

open Text

def writeV4 (a b c d : UInt8) : List Char :=
  decimal a.toNat ++ '.' :: decimal b.toNat ++ '.' :: decimal c.toNat ++ '.' :: decimal d.toNat

def writeGroup (group : UInt16) : List Char := Nat.toDigits 16 group.toNat

def writeGroups : List UInt16 → List Char
  | [] => []
  | [group] => writeGroup group
  | group :: rest => writeGroup group ++ ':' :: writeGroups rest

def leadingZeros (groups : List UInt16) : Nat := (groups.takeWhile (· == 0)).length

/-- Where the first of the longest runs of zeros begins, and its length. -/
def longestZeros : List UInt16 → Nat × Nat
  | [] => (0, 0)
  | group :: rest =>
    let here := leadingZeros (group :: rest)
    let (start, length) := longestZeros rest
    if length ≤ here then (0, here) else (start + 1, length)

/-- The groups with their longest run of zeros left out, where it has two or more. -/
def writeCompressed (groups : List UInt16) : List Char :=
  let (start, length) := longestZeros groups
  if 1 < length then
    writeGroups (groups.take start) ++ ':' :: ':' :: writeGroups (groups.drop (start + length))
  else writeGroups groups

def highByte (group : UInt16) : UInt8 := (group >>> 8).toUInt8

def lowByte (group : UInt16) : UInt8 := group.toUInt8

def writeV6 (groups : List UInt16) : List Char :=
  match groups with
  | [0, 0, 0, 0, 0, 0xFFFF, high, low] =>
    [':', ':', 'f', 'f', 'f', 'f', ':'] ++ writeV4 (highByte high) (lowByte high) (highByte low) (lowByte low)
  | _ => writeCompressed groups

def writeChars : Address → List Char
  | .v4 a b c d => writeV4 a b c d
  | .v6 groups => writeV6 groups.toList

def write (address : Address) : String := String.ofList address.writeChars

instance : ToString Address := ⟨write⟩

end PeerPool.Address
