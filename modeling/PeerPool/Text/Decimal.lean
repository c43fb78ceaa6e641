import PeerPool.Text.Number

/-! Decimal numbers with a point and an exponent, and the bound of the floating-point
numbers that stand for them. -/

namespace PeerPool.Text

/-- The number `mantissa * 10 ^ exponent`. -/
structure Decimal where
  mantissa : Nat
  exponent : Int
deriving DecidableEq, Repr

namespace Decimal

/-- The digits before the point, those behind it, and the rest of the text. -/
def parts (text : List Char) : List Char × List Char × List Char :=
  let whole := text.takeWhile isDigit
  match text.dropWhile isDigit with
  | '.' :: rest => (whole, rest.takeWhile isDigit, rest.dropWhile isDigit)
  | rest => (whole, [], rest)

/-- The exponent that follows the digits; nothing stands for zero. -/
def exponent? : List Char → Option Int
  | [] => some 0
  | c :: rest =>
    if c = 'e' || c = 'E' then
      match rest with
      | '-' :: digits => (natural? 10 digits).map fun size => -(size : Int)
      | '+' :: digits => (natural? 10 digits).map Int.ofNat
      | digits => (natural? 10 digits).map Int.ofNat
    else none

/-- A number without a sign: digits with at most one point before, among or behind them,
and an exponent or none. -/
def read? (text : List Char) : Option Decimal := do
  let (whole, fraction, rest) := parts text
  let mantissa ← natural? 10 (whole ++ fraction)
  let exponent ← exponent? rest
  return ⟨mantissa, exponent - fraction.length⟩

/-- The number lies nearer to infinity than to any double. -/
def exceedsDouble (number : Decimal) : Bool :=
  let size : Int := (decimal number.mantissa).length + number.exponent
  if number.mantissa = 0 || size < 300 then false
  else if 320 < size then true
  else
    let limit := (Nat.pow 2 54 - 1) * Nat.pow 2 970
    if number.exponent < 0 then decide (limit * Nat.pow 10 number.exponent.natAbs ≤ number.mantissa)
    else decide (limit ≤ number.mantissa * Nat.pow 10 number.exponent.natAbs)

end Decimal

end PeerPool.Text
