/-! Digits and the numerals built from them. -/

namespace PeerPool.Text

def isDigit (c : Char) : Bool := '0' ≤ c && c ≤ '9'

/-- The value of a digit, where the letters go on after nine in either case. -/
def digitValue? (c : Char) : Option Nat :=
  if '0' ≤ c && c ≤ '9' then some (c.toNat - '0'.toNat)
  else if 'a' ≤ c && c ≤ 'z' then some (c.toNat - 'a'.toNat + 10)
  else if 'A' ≤ c && c ≤ 'Z' then some (c.toNat - 'A'.toNat + 10)
  else none

def digitIn? (base : Nat) (c : Char) : Option Nat := (digitValue? c).filter (· < base)

/-- Reads digits on from a value that the digits before them denote. -/
def digitsFrom? (base value : Nat) : List Char → Option Nat
  | [] => some value
  | c :: rest =>
    match digitIn? base c with
    | some digit => digitsFrom? base (value * base + digit) rest
    | none => none

/-- The number denoted by one or more digits and nothing else. -/
def natural? (base : Nat) (text : List Char) : Option Nat :=
  if text.isEmpty then none else digitsFrom? base 0 text

def decimal (n : Nat) : List Char := Nat.toDigits 10 n

/-- Why a text is not a 32-bit number. -/
inductive NumberError where
  | empty
  | invalidDigit
  | tooLarge
deriving DecidableEq, Repr

def NumberError.message : NumberError → String
  | .empty => "cannot parse integer from empty string"
  | .invalidDigit => "invalid digit found in string"
  | .tooLarge => "number too large to fit in target type"

/-- The first fault of a digit string, read from the left: a digit that carries the
value past the bound counts before a later character that is no digit. -/
def boundedFrom (bound value : Nat) : List Char → Except NumberError Nat
  | [] => .ok value
  | c :: rest =>
    match digitIn? 10 c with
    | none => .error .invalidDigit
    | some digit =>
      if value * 10 + digit < bound then boundedFrom bound (value * 10 + digit) rest
      else .error .tooLarge

/-- A decimal number below 2^32, with an optional plus sign. -/
def word32 (text : String) : Except NumberError UInt32 :=
  let digits (cs : List Char) : Except NumberError UInt32 :=
    (boundedFrom UInt32.size 0 cs).map UInt32.ofNat
  match text.toList with
  | [] => .error .empty
  | ['+'] | ['-'] => .error .invalidDigit
  | '+' :: rest => digits rest
  | cs => digits cs

end PeerPool.Text
