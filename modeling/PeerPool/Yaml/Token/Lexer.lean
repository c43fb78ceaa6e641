import PeerPool.Yaml.Token.BlockScalar
import PeerPool.Yaml.Token.FlowScalar
import PeerPool.Yaml.Token.Mark

/-! Taking a text apart into tokens. Whether a scalar is the key of a mapping shows only
when its colon is met, so the tokens from the start of a possible key on are held back
until that is decided. A key without a question mark stands on one line, and it is a
scalar or an alias. -/

namespace PeerPool.Yaml

/-- Tokens that will turn out to be a key if a colon follows them. -/
structure HeldKey where
  column : Nat
  /-- It stands where only a key may stand. -/
  required : Bool
  /-- Latest first. -/
  tokens : List Token
deriving Repr

structure Lexer where
  column : Nat := 0
  rest : List Char
  /-- The columns of the open block collections, innermost first. -/
  indents : List Nat := []
  /-- How many brackets and braces are open. -/
  flow : Nat := 0
  /-- A key may begin here. -/
  keyAllowed : Bool := true
  held : Option HeldKey := none
  /-- The tokens so far, latest first. -/
  tokens : List Token := []
deriving Repr

namespace Lexer

/-- The farthest that the colon may be from the start of its key. -/
def keyWidth : Nat := 1024

def inFlow (lexer : Lexer) : Bool := 0 < lexer.flow

/-- The least column of what belongs to the innermost block collection. -/
def least (lexer : Lexer) : Nat :=
  match lexer.indents with
  | [] => 0
  | indent :: _ => indent + 1

def emit (token : Token) (lexer : Lexer) : Lexer :=
  match lexer.held with
  | some held => { lexer with held := some { held with tokens := token :: held.tokens } }
  | none => { lexer with tokens := token :: lexer.tokens }

def moveTo (column : Nat) (rest : List Char) (lexer : Lexer) : Lexer :=
  { lexer with column := column, rest := rest }

/-- Gives up on the tokens held back as a key, unless only a key may stand there. -/
def releaseKey (lexer : Lexer) : Option Lexer :=
  match lexer.held with
  | none => some lexer
  | some held =>
    if held.required then none
    else some { lexer with held := none, tokens := held.tokens ++ lexer.tokens }

/-- Begins to hold back tokens at what may be a key. -/
def holdKey (lexer : Lexer) : Option Lexer :=
  if lexer.keyAllowed then do
    let lexer ← lexer.releaseKey
    let required := !lexer.inFlow && lexer.indents.head? = some lexer.column
    return { lexer with keyAllowed := false, held := some ⟨lexer.column, required, []⟩ }
  else some { lexer with keyAllowed := false }

/-- Ends the block collections that stand right of a column. -/
def closeTo (column : Nat) (lexer : Lexer) : Lexer :=
  if lexer.inFlow then lexer
  else
    let ended := (lexer.indents.takeWhile (column < ·)).length
    { lexer with indents := lexer.indents.drop ended, tokens := List.replicate ended .blockEnd ++ lexer.tokens }

/-- Ends all block collections. -/
def closeAll (lexer : Lexer) : Lexer :=
  { lexer with
    indents := [], keyAllowed := false
    tokens := List.replicate lexer.indents.length .blockEnd ++ lexer.tokens }

/-- Begins a block collection at a column unless one is open there. -/
def openAt (column : Nat) (start : Token) (lexer : Lexer) : Lexer :=
  if lexer.inFlow || lexer.indents.head?.any (column ≤ ·) then lexer
  else { lexer with indents := column :: lexer.indents, tokens := start :: lexer.tokens }

/-- Skips blanks, comments and line breaks up to the next token, and tells whether a line
ended. A tab may not stand for the indentation that a block key begins with. -/
def skipGap (flow : Bool) (comment : Bool) (broken : Bool) (keyAllowed : Bool) (column : Nat) :
    List Char → Bool × Bool × Nat × List Char
  | [] => (broken, keyAllowed, column, [])
  | c :: rest =>
    if isBreak c then skipGap flow false true (keyAllowed || !flow) 0 rest
    else if comment || c = ' ' || (c = '\t' && (flow || !keyAllowed)) || (c = byteOrderMark && column = 0) then
      skipGap flow comment broken keyAllowed (column + 1) rest
    else if c = '#' then skipGap flow true broken keyAllowed (column + 1) rest
    else (broken, keyAllowed, column, c :: rest)

/-- Goes to the next token. A key that is held back ends with its line. -/
def advance (lexer : Lexer) : Option Lexer :=
  let (broken, keyAllowed, column, rest) :=
    skipGap lexer.inFlow false false lexer.keyAllowed lexer.column lexer.rest
  let moved := { lexer with column := column, rest := rest, keyAllowed := keyAllowed }
  if broken || moved.held.any (·.column + keyWidth < column) then moved.releaseKey else some moved

/-- Adds a scalar. One that takes up several lines is no key, and neither is what stands
in front of it. -/
def addScalar (style : Style) (scanned : Scanned (List Char)) (lexer : Lexer) : Option Lexer :=
  let added := (lexer.emit (.scalar style (String.ofList scanned.value))).moveTo scanned.column scanned.rest
  let added := { added with keyAllowed := scanned.startsLine }
  if scanned.multiline then added.releaseKey else some added

/-- Adds a token of so many characters that begins or goes on with a possible key. -/
def addMark (token : Token) (rest : List Char) (lexer : Lexer) : Lexer :=
  (lexer.emit token).moveTo (lexer.column + (lexer.rest.length - rest.length)) rest

def documentMarker (token : Token) (lexer : Lexer) : Option Lexer := do
  if lexer.inFlow then none
  else
    let lexer ← lexer.releaseKey
    return (lexer.closeAll.emit token).moveTo 3 (lexer.rest.drop 3)

def directive (rest : List Char) (lexer : Lexer) : Option Lexer := do
  if lexer.inFlow then none
  else
    let lexer ← lexer.releaseKey
    let (token, rest) ← scanDirective rest
    return (lexer.closeAll.emit token).moveTo 0 (← skipLineEnd rest)

/-- A bracket or brace that opens is no key, so it may not stand where only a key may. -/
def openFlow (token : Token) (rest : List Char) (lexer : Lexer) : Option Lexer := do
  let lexer ← lexer.holdKey
  let lexer ← lexer.releaseKey
  return { (lexer.emit token).moveTo (lexer.column + 1) rest with flow := lexer.flow + 1, keyAllowed := true }

def closeFlow (token : Token) (rest : List Char) (lexer : Lexer) : Option Lexer := do
  let lexer ← lexer.releaseKey
  if lexer.inFlow then
    return { (lexer.emit token).moveTo (lexer.column + 1) rest with flow := lexer.flow - 1, keyAllowed := false }
  else none

def comma (rest : List Char) (lexer : Lexer) : Option Lexer := do
  let lexer ← lexer.releaseKey
  return { (lexer.emit .comma).moveTo (lexer.column + 1) rest with keyAllowed := true }

/-- The dash of an item, which only block collections have. -/
def dash (rest : List Char) (lexer : Lexer) : Option Lexer := do
  if lexer.inFlow || !lexer.keyAllowed then none
  else
    let lexer ← lexer.releaseKey
    let opened := lexer.openAt lexer.column .blockSequenceStart
    return { (opened.emit .item).moveTo (lexer.column + 1) rest with keyAllowed := true }

/-- The question mark in front of a key. -/
def questionMark (rest : List Char) (lexer : Lexer) : Option Lexer := do
  if !lexer.inFlow && !lexer.keyAllowed then none
  else
    let lexer ← lexer.releaseKey
    let opened := lexer.openAt lexer.column .blockMappingStart
    return { (opened.emit .key).moveTo (lexer.column + 1) rest with keyAllowed := !lexer.inFlow }

/-- The colon in front of a value. It makes a key of what is held back. -/
def colon (rest : List Char) (lexer : Lexer) : Option Lexer :=
  match lexer.held with
  | some held =>
    let opened := { lexer with held := none }.openAt held.column .blockMappingStart
    some { opened with
      tokens := .value :: held.tokens ++ .key :: opened.tokens, keyAllowed := false
      column := lexer.column + 1, rest := rest }
  | none =>
    if !lexer.inFlow && !lexer.keyAllowed then none
    else
      let opened := lexer.openAt lexer.column .blockMappingStart
      some { (opened.emit .value).moveTo (lexer.column + 1) rest with keyAllowed := !lexer.inFlow }

def named (token : String → Token) (rest : List Char) (lexer : Lexer) : Option Lexer := do
  let lexer ← lexer.holdKey
  let (name, rest) ← scanName rest
  return lexer.addMark (token (String.ofList name)) rest

def tagged (rest : List Char) (lexer : Lexer) : Option Lexer := do
  let lexer ← lexer.holdKey
  let (token, rest) ← scanTag lexer.inFlow rest
  return lexer.addMark token rest

def quoted (double : Bool) (rest : List Char) (lexer : Lexer) : Option Lexer := do
  let lexer ← lexer.holdKey
  if double then
    lexer.addScalar .doubleQuoted (← scanDouble .none false (lexer.column + 1) rest)
  else
    lexer.addScalar .singleQuoted (← scanSingle .none false (lexer.column + 1) rest)

def block (style : Style) (rest : List Char) (lexer : Lexer) : Option Lexer := do
  let lexer ← lexer.releaseKey
  lexer.addScalar style (← scanBlock (style = .folded) lexer.least rest)

def plain (lexer : Lexer) : Option Lexer := do
  let lexer ← lexer.holdKey
  let context : PlainContext := ⟨lexer.inFlow, lexer.least⟩
  lexer.addScalar .plain (← scanPlain context .none false lexer.column lexer.rest)

/-- A plain scalar may begin like this. Dash, question mark and colon begin one when they
are no indicators. -/
def startsPlain (flow : Bool) (c : Char) (rest : List Char) : Bool :=
  if c = '-' then !atGap rest
  else if c = '?' || c = ':' then !flow && !atGap rest
  else !isGap c && !isFlowIndicator c && !(['#', '&', '*', '!', '|', '>', '\'', '"', '%', '@', '\x60'].contains c)

/-- Takes the token that begins with `c` off the text. -/
def token (c : Char) (rest : List Char) (lexer : Lexer) : Option Lexer :=
  let flow := lexer.inFlow
  if lexer.column = 0 && c = '%' then lexer.directive rest
  else if lexer.column = 0 && isMarker '-' (c :: rest) then lexer.documentMarker .documentStart
  else if lexer.column = 0 && isMarker '.' (c :: rest) then lexer.documentMarker .documentEnd
  else if c = '[' then lexer.openFlow .flowSequenceStart rest
  else if c = '\x7b' then lexer.openFlow .flowMappingStart rest
  else if c = ']' then lexer.closeFlow .flowSequenceEnd rest
  else if c = '\x7d' then lexer.closeFlow .flowMappingEnd rest
  else if c = ',' then lexer.comma rest
  else if c = '-' && atGap rest then lexer.dash rest
  else if c = '?' && (flow || atGap rest) then lexer.questionMark rest
  else if c = ':' && (flow || atGap rest) then lexer.colon rest
  else if c = '*' then lexer.named .alias rest
  else if c = '&' then lexer.named .anchor rest
  else if c = '!' then lexer.tagged rest
  else if c = '|' && !flow then lexer.block .literal rest
  else if c = '>' && !flow then lexer.block .folded rest
  else if c = '\'' then lexer.quoted false rest
  else if c = '"' then lexer.quoted true rest
  else if startsPlain flow c rest then lexer.plain
  else none

/-- All tokens up to the end of the text, in order. -/
def run (lexer : Lexer) : Option (List Token) :=
  match lexer.advance with
  | none => none
  | some next =>
    match next.rest with
    | [] => next.releaseKey.map fun last => last.closeAll.tokens.reverse
    | c :: rest =>
      match (next.closeTo next.column).token c rest with
      | none => none
      | some after => if after.rest.length < lexer.rest.length then after.run else none
termination_by lexer.rest.length

end Lexer

/-- The tokens of a text. -/
def Token.scan (text : List Char) : Option (List Token) :=
  if text.all isReadable then ({ rest := unifyBreaks text } : Lexer).run else none

end PeerPool.Yaml
