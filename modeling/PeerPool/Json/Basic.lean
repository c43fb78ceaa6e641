import PeerPool.Text.Number

/-! JSON values. Whole numbers that a machine word holds stand apart from all other
numbers, which keep their decimal digits: `1` and `1.0` are different values, and a
place that wants a whole number takes only the first. -/

namespace PeerPool

inductive Json where
  | null
  | bool (value : Bool)
  | int (value : Int)
  /-- The number `mantissa * 10 ^ exponent`. -/
  | real (mantissa exponent : Int)
  | str (value : String)
  | arr (items : List Json)
  | obj (members : List (String × Json))
deriving Repr, Inhabited

namespace Json

/-- The value of a member. Of members with the same name the last counts. -/
def member? (members : List (String × Json)) (name : String) : Option Json :=
  (members.reverse.lookup name)

def get? : Json → String → Option Json
  | .obj members, name => member? members name
  | _, _ => none

/-- A member that is missing and one that is null mean the same. -/
def field? (json : Json) (name : String) : Option Json :=
  match json.get? name with
  | some .null => none
  | found => found

def str? : Json → Option String
  | .str value => some value
  | _ => none

def bool? : Json → Option Bool
  | .bool value => some value
  | _ => none

/-- A whole number from zero up to a bound. -/
def nat? (bound : Nat) : Json → Option Nat
  | .int value => if 0 ≤ value ∧ value < bound then some value.toNat else none
  | _ => none

def items? : Json → Option (List Json)
  | .arr items => some items
  | _ => none

def members? : Json → Option (List (String × Json))
  | .obj members => some members
  | _ => none

/-- Members with a value, left out when there is none. -/
def present (members : List (String × Option Json)) : List (String × Json) :=
  members.filterMap fun (name, value) => value.map (name, ·)

def strings (values : List String) : Json := .arr (values.map .str)

def ofNat (n : Nat) : Json := .int n

def ofOption {α : Type} (encode : α → Json) : Option α → Json
  | some value => encode value
  | none => .null

/-- The binary floating-point number nearest to `mantissa * 10 ^ exponent`. -/
def nearest (mantissa exponent : Int) : Float :=
  let size : Int := (Text.decimal mantissa.natAbs).length + exponent
  let magnitude :=
    if mantissa = 0 ∨ size < -400 then 0.0
    else Float.ofScientific mantissa.natAbs (exponent < 0) exponent.natAbs
  if mantissa < 0 then -magnitude else magnitude

mutual

/-- Equality of values. The order of members does not matter, and numbers that are not
whole are equal when they are nearest to the same floating-point number. -/
def same : Json → Json → Bool
  | .null, .null => true
  | .bool left, .bool right => left == right
  | .int left, .int right => left == right
  | .real leftMantissa leftExponent, .real rightMantissa rightExponent =>
    nearest leftMantissa leftExponent == nearest rightMantissa rightExponent
  | .str left, .str right => left == right
  | .arr left, .arr right => sameItems left right
  | .obj left, .obj right =>
    sameMembers left right && right.all fun (name, _) => (left.map Prod.fst).contains name
  | _, _ => false

def sameItems : List Json → List Json → Bool
  | [], [] => true
  | left :: lefts, right :: rights => same left right && sameItems lefts rights
  | _, _ => false

/-- Each of the members has an equal on the right. -/
def sameMembers : List (String × Json) → List (String × Json) → Bool
  | [], _ => true
  | (name, value) :: rest, right =>
    (rest.any fun (later, _) => later == name) && sameMembers rest right ||
    (match member? right name with
      | some other => same value other
      | none => false) && sameMembers rest right

end

instance : BEq Json := ⟨same⟩

end Json

end PeerPool
