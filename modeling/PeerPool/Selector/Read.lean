import PeerPool.Selector.Basic
import PeerPool.Text.Split

/-! Reading a selector. Terms are separated by commas outside parentheses; a term is
taken for the first of these that fits it: membership in a set, inequality,
equality, absence, presence. -/

namespace PeerPool

/-- Why a text is not a selector. -/
inductive SelectorError where
  | invalidTerm (term : String)
  | invalidKey (key : String)
  | invalidValue (value : String)
  | unbalancedParentheses
deriving DecidableEq, Repr

def SelectorError.message : SelectorError → String
  | .invalidTerm term => s!"Invalid label selector term '{term}'!"
  | .invalidKey key => s!"Invalid label key '{key}'!"
  | .invalidValue value => s!"Invalid label value '{value}'!"
  | .unbalancedParentheses => "Unbalanced parentheses in label selector!"

namespace Selector

open Text

def isAlphanumeric (c : Char) : Bool :=
  ('a' ≤ c && c ≤ 'z') || ('A' ≤ c && c ≤ 'Z') || ('0' ≤ c && c ≤ '9')

/-- Begins and ends with a letter or digit, and has besides those only the marks given. -/
def isName (marks : List Char) (text : List Char) : Bool :=
  text.head?.any isAlphanumeric && text.getLast?.any isAlphanumeric &&
  text.all fun c => isAlphanumeric c || marks.contains c

/-- A label's name, after a domain and a slash or alone. -/
def isKey (text : List Char) : Bool :=
  match splitOnce ['/'] text with
  | some (domain, name) => isName ['-', '.'] domain && isName ['-', '_', '.'] name
  | none => isName ['-', '_', '.'] text

def isValue (text : List Char) : Bool := text.isEmpty || isName ['-', '_', '.'] text

def readKey (text : List Char) : Except SelectorError String :=
  if isKey text then .ok (String.ofList text) else .error (.invalidKey (String.ofList text))

def readValue (text : List Char) : Except SelectorError String :=
  if isValue text then .ok (String.ofList text) else .error (.invalidValue (String.ofList text))

/-- The pieces between the commas that stand outside all parentheses, if those balance. -/
def splitTerms (depth : Nat) : List Char → Option (List (List Char))
  | [] => if depth = 0 then some [[]] else none
  | c :: rest =>
    if c = '(' then (splitTerms (depth + 1) rest).map (consPiece c)
    else if c = ')' then
      match depth with
      | 0 => none
      | outer + 1 => (splitTerms outer rest).map (consPiece c)
    else if c = ',' && depth = 0 then (splitTerms 0 rest).map ([] :: ·)
    else (splitTerms depth rest).map (consPiece c)

/-- The terms of a text. White space alone has none. -/
def terms (text : List Char) : Except SelectorError (List (List Char)) :=
  match splitTerms 0 text with
  | none => .error .unbalancedParentheses
  | some pieces =>
    let trimmed := pieces.map trim
    .ok (if trimmed = [[]] then [] else trimmed)

/-- The two ways of asking for membership in a set. -/
inductive Membership where
  | within
  | outside
deriving DecidableEq, Repr

/-- The list in parentheses that ends a term about a set. -/
def setValues? (text : List Char) : Option (List Char) :=
  match trimStart text with
  | '(' :: rest =>
    match rest.getLast? with
    | some ')' => if rest.dropLast.any fun c => c = '(' || c = ')' then none else some rest.dropLast
    | _ => none
  | _ => none

/-- The parts of `key in (values)` and `key notin (values)`. -/
def setTerm? (term : List Char) : Option (List Char × Membership × List Char) :=
  let key := term.takeWhile (!isWhiteSpace ·)
  let gap := term.dropWhile (!isWhiteSpace ·)
  if key.isEmpty || gap.isEmpty then none
  else
    match trimStart gap with
    | 'i' :: 'n' :: rest => (setValues? rest).map (key, .within, ·)
    | 'n' :: 'o' :: 't' :: 'i' :: 'n' :: rest => (setValues? rest).map (key, .outside, ·)
    | _ => none

/-- A key and a value on either side of an operator. -/
def readPair (key value : List Char) : Except SelectorError (String × String) := do
  let key ← readKey (trim key)
  let value ← readValue (trim value)
  return (key, value)

def readTerm (term : List Char) : Except SelectorError Requirement := do
  if term.isEmpty then throw (.invalidTerm "")
  match setTerm? term with
  | some (key, membership, values) =>
    let key ← readKey key
    let values ← (separate ',' values).mapM fun value => readValue (trim value)
    match membership with
    | .within => return .oneOf key values
    | .outside => return .noneOf key values
  | none =>
  match splitOnce ['!', '='] term with
  | some (key, value) =>
    let (key, value) ← readPair key value
    return .notEquals key value
  | none =>
  match (splitOnce ['=', '='] term).or (splitOnce ['='] term) with
  | some (key, value) =>
    let (key, value) ← readPair key value
    return .equals key value
  | none =>
  match term with
  | '!' :: key => return .absent (← readKey (trim key))
  | key => return .present (← readKey key)

def read (text : String) : Except SelectorError Selector := do
  (← terms text.toList).mapM readTerm

end Selector

end PeerPool
