import PeerPool.Text.Decimal

/-! Scalars, and what the words among them denote: nothing, a truth value, a number. A
scalar denotes such a thing only where one is wanted; elsewhere it is its text. -/

namespace PeerPool.Yaml

/-- The ways of writing a scalar. -/
inductive Style where
  | plain
  | singleQuoted
  | doubleQuoted
  | literal
  | folded
deriving DecidableEq, Repr, Inhabited

structure Scalar where
  style : Style
  tag : Option String := none
  text : String
deriving DecidableEq, Repr, Inhabited

/-- The tag of a type that every document knows. -/
def coreTag (name : String) : String := "tag:yaml.org,2002:" ++ name

/-- The words for nothing. -/
def isNull (text : String) : Bool := ["null", "Null", "NULL", "~"].contains text

/-- The words for truth values. -/
def bool? (text : String) : Option Bool :=
  if ["true", "True", "TRUE"].contains text then some true
  else if ["false", "False", "FALSE"].contains text then some false
  else none

/-- A whole number without a sign: the base is told by its first two characters, and a
decimal one has no superfluous zeros. -/
def unsigned? : List Char → Option Nat
  | '0' :: 'x' :: digits => Text.natural? 16 digits
  | '0' :: 'o' :: digits => Text.natural? 8 digits
  | '0' :: 'b' :: digits => Text.natural? 2 digits
  | '0' :: c :: rest => if Text.isDigit c then none else Text.natural? 10 ('0' :: c :: rest)
  | digits => Text.natural? 10 digits

/-- A whole number that is not negative, with an optional plus sign. -/
def natural? (text : String) : Option Nat :=
  match text.toList with
  | '+' :: digits => unsigned? digits
  | digits => unsigned? digits

/-- A whole number with an optional sign. -/
def integer? (text : String) : Option Int :=
  match text.toList with
  | '-' :: digits => (unsigned? digits).map fun value => -(value : Int)
  | _ => (natural? text).map Int.ofNat

/-- The words for numbers that are not finite. -/
def isNonFinite (text : String) : Bool :=
  [".inf", ".Inf", ".INF", "+.inf", "+.Inf", "+.INF", "-.inf", "-.Inf", "-.INF", ".nan", ".NaN", ".NAN"].contains text

/-- Takes an optional sign off a text. -/
def withoutSign : List Char → List Char
  | '+' :: rest => rest
  | '-' :: rest => rest
  | rest => rest

/-- A number that some floating-point number stands for. -/
def isReal (text : String) : Bool :=
  isNonFinite text || (Text.Decimal.read? (withoutSign text.toList)).any (!·.exceedsDouble)

/-- A whole number that 128 bits hold. -/
def isWhole (text : String) : Bool :=
  (integer? text).any fun value => -Int.pow 2 127 ≤ value && value < Int.pow 2 128

/-- Digits after a superfluous zero: a number to some readers of YAML and a text to others. -/
def isZeroPadded (text : String) : Bool :=
  match withoutSign text.toList with
  | '0' :: rest => !rest.isEmpty && rest.all Text.isDigit
  | _ => false

/-- A plain scalar of this text might be taken for something other than a text. -/
def isAmbiguous (text : String) : Bool :=
  text.isEmpty || isNull text || (bool? text).isSome || isWhole text || isReal text || isZeroPadded text

end PeerPool.Yaml
