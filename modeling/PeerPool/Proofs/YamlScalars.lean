import PeerPool.Proofs.YamlDouble
import PeerPool.Proofs.YamlLexer
import PeerPool.Proofs.YamlLiteral
import PeerPool.Proofs.YamlPlain
import PeerPool.Proofs.YamlSingle

/-! Every written text is one token of a document: as the value of a key or an item it ends
with its line, and as a key of its own line with the colon behind it. -/

namespace PeerPool.Proofs.YamlScalars
open Yaml YamlCharacters YamlLines YamlLexer YamlPlain YamlSingle YamlDouble YamlLiteral

/-- The lexer behind a scalar that may be a key if `keyAllowed`. -/
def behindScalar (column : Nat) (keyAllowed : Bool) (stack : List Nat) (tokens : List Token) (style : Style)
    (scanned : Scanned (List Char)) : Lexer :=
  let token := Token.scalar style (String.ofList scanned.value)
  let holds := keyAllowed && !scanned.multiline
  { column := scanned.column, rest := scanned.rest, indents := stack, keyAllowed := scanned.startsLine
    held := if holds then some ⟨column, stack.head? = some column, [token]⟩ else none
    tokens := if holds then tokens else token :: tokens }

/-- A scalar of several lines may stand anywhere but where a key must. -/
theorem hold_addScalar {column : Nat} {keyAllowed : Bool} {stack : List Nat} (tokens : List Token) (text : List Char)
    (style : Style) {scanned : Scanned (List Char)}
    (free : keyAllowed = true → scanned.multiline = true → stack.head? ≠ some column) :
    Lexer.addScalar style scanned
      { ready column false stack tokens text with
        held := if keyAllowed then some ⟨column, stack.head? = some column, []⟩ else none } =
      some (behindScalar column keyAllowed stack tokens style scanned) := by
  cases keyAllowed with
  | false =>
    cases multiline : scanned.multiline <;>
      simp [ready, Lexer.addScalar, Lexer.emit, Lexer.moveTo, Lexer.releaseKey, behindScalar, multiline]
  | true =>
    cases multiline : scanned.multiline with
    | false => simp [ready, Lexer.addScalar, Lexer.emit, Lexer.moveTo, behindScalar, multiline]
    | true =>
      have optional := free rfl multiline
      simp [ready, Lexer.addScalar, Lexer.emit, Lexer.moveTo, Lexer.releaseKey, behindScalar, multiline, optional]

section

variable {column : Nat} {keyAllowed : Bool} {stack : List Nat} {tokens : List Token} {scanned : Scanned (List Char)}
  (free : keyAllowed = true → scanned.multiline = true → stack.head? ≠ some column)
include free

theorem token_single {body : List Char} (scans : scanSingle .none false (column + 1) body = some scanned) :
    (ready column keyAllowed stack tokens ('\'' :: body)).token '\'' body =
      some (behindScalar column keyAllowed stack tokens .singleQuoted scanned) := by
  have quoted : (ready column keyAllowed stack tokens ('\'' :: body)).token '\'' body =
      (ready column keyAllowed stack tokens ('\'' :: body)).quoted false body := by
    simp [Lexer.token, isMarker_of_ne]
  rw [quoted, Lexer.quoted, holdKey_ready, ← hold_addScalar tokens ('\'' :: body) .singleQuoted free]
  simp [ready, scans]

theorem token_double {body : List Char} (scans : scanDouble .none false (column + 1) body = some scanned) :
    (ready column keyAllowed stack tokens ('"' :: body)).token '"' body =
      some (behindScalar column keyAllowed stack tokens .doubleQuoted scanned) := by
  have quoted : (ready column keyAllowed stack tokens ('"' :: body)).token '"' body =
      (ready column keyAllowed stack tokens ('"' :: body)).quoted true body := by
    simp [Lexer.token, isMarker_of_ne]
  rw [quoted, Lexer.quoted, holdKey_ready, ← hold_addScalar tokens ('"' :: body) .doubleQuoted free]
  simp [ready, scans]

/-- The least column of what belongs to the innermost collection. -/
def least (stack : List Nat) : Nat := (ready 0 true stack [] []).least

omit free in
theorem token_eq_plain {c : Char} {rest : List Char} (starts : PlainStart c rest)
    (unmarked : 0 < column ∨ isDocumentMarker (c :: rest) = false) :
    (ready column keyAllowed stack tokens (c :: rest)).token c rest =
      (ready column keyAllowed stack tokens (c :: rest)).plain := by
  obtain ⟨word, flow, indicator, dash⟩ := starts
  have starter : Lexer.startsPlain false c rest = true := by
    simp only [Lexer.startsPlain, word, flow, indicator, Bool.not_false, Bool.and_true, Bool.true_and]
    grind
  have unmarked : ¬ (column = 0 ∧ (isMarker '-' (c :: rest) = true ∨ isMarker '.' (c :: rest) = true)) := by
    rintro ⟨rfl, marker⟩
    rcases unmarked with inside | unmarked
    · exact absurd inside (Nat.lt_irrefl 0)
    · simp only [isDocumentMarker, Bool.or_eq_false_iff] at unmarked
      simp [unmarked] at marker
  simp only [isFlowIndicator, Bool.or_eq_false_iff, decide_eq_false_iff_not] at flow
  simp only [List.contains_cons, List.contains_nil, Bool.or_false, Bool.or_eq_false_iff, beq_eq_false_iff_ne] at indicator
  have column_eq : (ready column keyAllowed stack tokens (c :: rest)).column = column := rfl
  have inFlow_eq : (ready column keyAllowed stack tokens (c :: rest)).inFlow = false := rfl
  simp only [Lexer.token, column_eq, inFlow_eq, starter]
  grind

theorem token_plain {c : Char} {rest : List Char} (starts : PlainStart c rest)
    (unmarked : 0 < column ∨ isDocumentMarker (c :: rest) = false)
    (scans : scanPlain ⟨false, least stack⟩ .none false column (c :: rest) = some scanned) :
    (ready column keyAllowed stack tokens (c :: rest)).token c rest =
      some (behindScalar column keyAllowed stack tokens .plain scanned) := by
  rw [token_eq_plain starts unmarked, Lexer.plain, holdKey_ready, ← hold_addScalar tokens (c :: rest) .plain free]
  change (scanPlain ⟨false, least stack⟩ .none false column (c :: rest)).bind _ = _
  rw [scans, Option.bind_some]

end

theorem token_literal {head column : Nat} {keyAllowed : Bool} {stack : List Nat} {tokens : List Token}
    {text tail : List Char} (printable : Printable text) (some : text ≠ [])
    (below : Outdented head tail) :
    (ready column keyAllowed (head :: stack) tokens (literalHeader text ++ writeLiteralFrom (head + 2) true text ++
      closing text ++ tail)).token '|' (literalHeader text ++ writeLiteralFrom (head + 2) true text ++
        closing text ++ tail).tail =
      Option.some (atLine (head :: stack) (.scalar .literal (String.ofList text) :: tokens) tail) := by
  have scanned := scanBlock_literal printable some below
  generalize literalHeader text ++ writeLiteralFrom (head + 2) true text ++ closing text ++ tail = written at scanned ⊢
  have block : (ready column keyAllowed (head :: stack) tokens written).token '|' written.tail =
      (ready column keyAllowed (head :: stack) tokens written).block .literal written.tail := by
    have outside : (ready column keyAllowed (head :: stack) tokens written).inFlow = false := rfl
    simp [Lexer.token, isMarker_of_ne, outside]
  rw [block, Lexer.block]
  have released : (ready column keyAllowed (head :: stack) tokens written).releaseKey =
      Option.some (ready column keyAllowed (head :: stack) tokens written) := rfl
  have least_eq : (ready column keyAllowed (head :: stack) tokens written).least = head + 1 := rfl
  simp only [released, Option.bind_eq_bind, Option.bind_some, least_eq, show decide (Style.literal = Style.folded) = false from rfl,
    scanned]
  rfl

theorem behindScalar_stands {bound column : Nat} (keyAllowed : Bool) {stack : List Nat} {tail : List Char}
    (below : Outdented bound tail) (optional : stack.head? ≠ some column) (tokens : List Token) (style : Style)
    (text : List Char) (multiline : Bool) (last : Nat) :
    Stands (behindScalar column keyAllowed stack tokens style ⟨text, multiline, false, last, '\n' :: tail⟩)
      stack (.scalar style (String.ofList text) :: tokens) tail := by
  have gap : Lexer.skipGap false false false false last ('\n' :: tail) =
      (true, true, indentation tail, unindented tail) := by
    rw [Lexer.skipGap, if_pos (by decide)]
    exact skipGap_line below true
  rw [Stands, settle_atLine below]
  cases keyAllowed <;> cases multiline <;>
    simp [settle, Lexer.advance, behindScalar, Lexer.inFlow, gap, Lexer.releaseKey, ready, optional]

theorem behindPlain_stands {bound : Nat} (column : Nat) (keyAllowed : Bool) {stack : List Nat} {tail : List Char}
    (below : Outdented bound tail) (tokens : List Token) (text : List Char) :
    Stands (behindScalar column keyAllowed stack tokens .plain ⟨text, true, true, indentation tail, unindented tail⟩)
      stack (.scalar .plain (String.ofList text) :: tokens) tail := by
  have gap : Lexer.skipGap false false false true (indentation tail) (unindented tail) =
      (false, true, indentation tail, unindented tail) := by
    cases below with
    | ended => rfl
    | line inside starts =>
      rw [unindented_line starts]
      exact skipGap_token starts _ _ _ _
  rw [Stands, settle_atLine below]
  simp [settle, Lexer.advance, behindScalar, Lexer.inFlow, gap, ready]

/-- What is written for a text, by its style. -/
inductive Written (indent : Nat) (text : List Char) : Style → List Char → Prop where
  | plain (fits : fitsPlain text = true) : Written indent text .plain text
  | single (fits : fitsSingle text = true) (line : '\n' ∉ text) :
      Written indent text .singleQuoted ('\'' :: writeSingleFrom indent false text)
  | literal (fits : fitsLiteral text = true) (lines : '\n' ∈ text) :
      Written indent text .literal (literalHeader text ++ writeLiteralFrom indent true text)
  | double : Written indent text .doubleQuoted ('"' :: (text.flatMap escape ++ ['"']))

theorem written (indent : Nat) (text : String) : Written indent text.toList (.ofText text) (writeText indent text) := by
  rw [writeText]
  by_cases lines : '\n' ∈ text.toList
  · by_cases fits : fitsLiteral text.toList = true
    · have style : Style.ofText text = .literal := by simp [Style.ofText, lines, fits]
      simpa only [style] using .literal fits lines
    · have style : Style.ofText text = .doubleQuoted := by simp [Style.ofText, lines, fits]
      simpa only [style] using .double
  · by_cases plain : (!isAmbiguous text && fitsPlain text.toList) = true
    · have style : Style.ofText text = .plain := by simp [Style.ofText, lines, plain]
      simp only [Bool.and_eq_true] at plain
      simpa only [style] using .plain plain.2
    · by_cases fits : fitsSingle text.toList = true
      · have style : Style.ofText text = .singleQuoted := by simp [Style.ofText, lines, plain, fits]
        simpa only [style] using .single fits lines
      · have style : Style.ofText text = .doubleQuoted := by simp [Style.ofText, lines, plain, fits]
        simpa only [style] using .double

theorem writeText_begins (indent : Nat) (text : String) : Begins (writeText indent text) := by
  have written := written indent text
  generalize Style.ofText text = style, writeText indent text = body at written
  cases written with
  | plain fits =>
    obtain ⟨c, rest, opens⟩ := fitsPlain_cons fits
    rw [opens] at fits ⊢
    exact .token (startsToken fits)
  | single fits line => exact .token ⟨by decide, by decide, by decide⟩
  | literal fits lines => exact .token ⟨by decide, by decide, by decide⟩
  | double => exact .token ⟨by decide, by decide, by decide⟩

theorem endLine_word {text : List Char} (word : text.getLast?.any isBreak = false) :
    Block.endLine text = text ++ ['\n'] := by
  simp [Block.endLine, word]

section

variable {lexer : Lexer} {head column : Nat} {keyAllowed : Bool} {stack : List Nat} {tokens : List Token}
  {text tail : List Char} (inside : head < column) (below : Outdented head tail)
include inside below

theorem run_plain (fits : fitsPlain text = true)
    (settled : settle lexer = some (ready column keyAllowed (head :: stack) tokens (text ++ '\n' :: tail))) :
    ∃ after, Stands after (head :: stack) (.scalar .plain (String.ofList text) :: tokens) tail ∧
      lexer.run = after.run := by
  have scanned := scanPlain_text ⟨false, least (head :: stack)⟩ column rfl fits
    (.inl (Nat.zero_lt_of_lt inside)) (scanPlain_lineEnd rfl (Nat.lt_succ_self head) below)
  have optional : (head :: stack).head? ≠ some column := by simp [Nat.ne_of_lt inside]
  refine ⟨_, behindPlain_stands column keyAllowed below tokens text, ?_⟩
  obtain ⟨c, rest, rfl⟩ := fitsPlain_cons fits
  refine run_token settled (List.cons_append ..) (token_plain (fun _ _ => optional) (plainStart fits _)
    (.inl (Nat.zero_lt_of_lt inside)) scanned) ?_
  have shorter := unindented_length tail
  simp only [behindScalar, List.length_append, List.length_cons]
  omega

theorem run_single (fits : fitsSingle text = true) (line : '\n' ∉ text) {indent : Nat} (indented : 0 < indent)
    (settled : settle lexer = some (ready column keyAllowed (head :: stack) tokens
      ('\'' :: (writeSingleFrom indent false text ++ '\n' :: tail)))) :
    ∃ after, Stands after (head :: stack) (.scalar .singleQuoted (String.ofList text) :: tokens) tail ∧
      lexer.run = after.run := by
  simp only [fitsSingle, Bool.and_eq_true, Bool.not_eq_true'] at fits
  obtain ⟨⟨-, starts⟩, ends⟩ := fits
  have waiting : Waiting false (.blanks []) text := .inside (by simp)
  have closes : ('\n' :: tail).head? ≠ some '\'' := by simp
  obtain ⟨last, scanned, -⟩ := scanSingle_from indented closes (column + 1) false line starts ends waiting
    (fun _ => Nat.succ_pos column)
  have optional : (head :: stack).head? ≠ some column := by simp [Nat.ne_of_lt inside]
  refine ⟨_, behindScalar_stands keyAllowed below optional tokens .singleQuoted text
    (false || text.any isBreak) last, ?_⟩
  refine run_token settled rfl (token_single (fun _ _ => optional) scanned) ?_
  simp [behindScalar]

theorem run_double (settled : settle lexer = some (ready column keyAllowed (head :: stack) tokens
      ('"' :: (text.flatMap escape ++ '"' :: '\n' :: tail)))) :
    ∃ after, Stands after (head :: stack) (.scalar .doubleQuoted (String.ofList text) :: tokens) tail ∧
      lexer.run = after.run := by
  have scanned := scanDouble_from text ('\n' :: tail) [] (column + 1) (Nat.succ_pos column)
  have optional : (head :: stack).head? ≠ some column := by simp [Nat.ne_of_lt inside]
  refine ⟨_, behindScalar_stands keyAllowed below optional tokens .doubleQuoted text
    false (column + 1 + (text.flatMap escape).length + 1), ?_⟩
  refine run_token settled rfl (token_double (fun _ _ => optional) scanned) ?_
  simp only [behindScalar, List.length_append, List.length_cons]
  omega

omit inside in
theorem run_literal (fits : fitsLiteral text = true) (lines : '\n' ∈ text)
    (settled : settle lexer = some (ready column keyAllowed (head :: stack) tokens
      (literalHeader text ++ writeLiteralFrom (head + 2) true text ++ closing text ++ tail))) :
    ∃ after, Stands after (head :: stack) (.scalar .literal (String.ofList text) :: tokens) tail ∧
      lexer.run = after.run := by
  simp only [fitsLiteral, Bool.and_eq_true, List.all_eq_true] at fits
  have printable : Printable text := fits.1.1
  have some : text ≠ [] := List.ne_nil_of_mem lines
  have opens := (scan_header text (writeLiteralFrom (head + 2) true text ++ closing text ++ tail)).1
  rw [← List.append_assoc, ← List.append_assoc] at opens
  refine ⟨_, rfl, run_token settled opens (token_literal printable some below) ?_⟩
  simp [atLine, ready, literalHeader]
  omega

/-- A text that is a value or an item is one token, which ends with its line. -/
theorem run_text {value : String} (settled : settle lexer =
      some (ready column keyAllowed (head :: stack) tokens (Block.endLine (writeText (head + 2) value) ++ tail))) :
    ∃ after, Stands after (head :: stack) (.scalar (.ofText value) value :: tokens) tail ∧ lexer.run = after.run := by
  have written := written (head + 2) value
  have same : String.ofList value.toList = value := String.ofList_toList
  generalize Style.ofText value = style, writeText (head + 2) value = body at written settled
  cases written with
  | plain fits =>
    rw [endLine_word (fitsPlain_last fits), List.append_assoc] at settled
    simpa only [same] using run_plain inside below fits settled
  | single fits line =>
    have last := getLast?_writeSingleFrom (head + 2) false value.toList
    rw [endLine_word (by simp [List.getLast?_cons, last]; decide)] at settled
    simp only [List.cons_append, List.append_assoc, List.nil_append] at settled
    simpa only [same] using run_single inside below fits line (Nat.succ_pos _) settled
  | literal fits lines =>
    rw [endLine_literal head (List.ne_nil_of_mem lines)] at settled
    simpa only [same] using run_literal below fits lines settled
  | double =>
    rw [endLine_word (by simp [List.getLast?_cons]; decide)] at settled
    simp only [List.cons_append, List.append_assoc, List.nil_append] at settled
    simpa only [same] using run_double inside below settled

end

theorem length_le_utf8ByteSize (text : List Char) : text.length ≤ (String.ofList text).utf8ByteSize := by
  induction text with
  | nil => exact Nat.zero_le _
  | cons c rest ih =>
    have size : (String.ofList (c :: rest)).utf8ByteSize = c.utf8Size + (String.ofList rest).utf8ByteSize := by
      rw [← List.singleton_append, String.ofList_append, String.utf8ByteSize_append, ← String.singleton_eq_ofList,
        String.utf8ByteSize_singleton]
    have some := c.utf8Size_pos
    rw [size, List.length_cons]
    omega

section

variable {lexer : Lexer} {column : Nat} {stack : List Nat} {tokens : List Token} {key : String} {rest : List Char}
  (simple : Block.isSimpleKey key = true) (ends : atGap rest = true)
include simple ends

/-- A key without a question mark is scanned up to its colon, which is not too far off. -/
theorem run_held {indent : Nat} (indented : 0 < indent)
    (settled : settle lexer = some (ready column true stack tokens (writeText indent key ++ ':' :: rest))) :
    ∃ last, column < last ∧ last ≤ column + Lexer.keyWidth ∧ lexer.run =
      (behindScalar column true stack tokens (.ofText key) ⟨key.toList, false, false, last, ':' :: rest⟩).run := by
  simp only [Block.isSimpleKey, Bool.and_eq_true, decide_eq_true_eq, Bool.not_eq_true', List.any_eq_false,
    Bool.not_eq_true] at simple
  obtain ⟨short, line⟩ := simple
  have length := length_le_utf8ByteSize key.toList
  rw [String.ofList_toList] at length
  have limit : key.toList.length ≤ 128 := Nat.le_trans length short
  have width : Lexer.keyWidth = 1024 := rfl
  have written := written indent key
  generalize Style.ofText key = style, writeText indent key = body at written settled
  generalize key.toList = text at *
  cases written with
  | plain fits =>
    have scanned := scanPlain_text ⟨false, least stack⟩ column rfl fits
      (.inr (unmarked_key fits rest)) (scanPlain_colon rfl ends)
    obtain ⟨c, more, rfl⟩ := fitsPlain_cons fits
    refine ⟨_, ?_, ?_, run_token settled (List.cons_append ..) (token_plain (by simp) (plainStart fits _)
      (.inr (unmarked_key fits rest)) scanned) ?_⟩
    · simp only [List.length_cons]
      omega
    · omega
    · simp [behindScalar]
  | single fits feed =>
    simp only [fitsSingle, Bool.and_eq_true, Bool.not_eq_true'] at fits
    obtain ⟨⟨-, starts⟩, gaps⟩ := fits
    have waiting : Waiting false (.blanks []) text := .inside (by simp)
    have closes : (':' :: rest).head? ≠ some '\'' := by simp
    obtain ⟨last, scanned, at_⟩ := scanSingle_from indented closes (column + 1) false feed starts gaps waiting
      (fun _ => Nat.succ_pos column)
    have whole : text.any isBreak = false := by simpa using line
    obtain ⟨some, wide⟩ := writeSingleFrom_length indent line
    rw [whole] at scanned
    refine ⟨last, ?_, ?_, run_token settled rfl (token_single (by simp) scanned) (by simp [behindScalar])⟩
    · rw [at_ whole rfl]
      omega
    · rw [at_ whole rfl]
      omega
  | literal fits lines => exact absurd (line _ lines) (by decide)
  | double =>
    have scanned := scanDouble_from text (':' :: rest) [] (column + 1) (Nat.succ_pos column)
    have wide := flatMap_escape_length text
    simp only [List.cons_append, List.append_assoc, List.nil_append] at settled
    refine ⟨_, ?_, ?_, run_token settled rfl (token_double (by simp) scanned) ?_⟩
    · omega
    · omega
    · simp only [behindScalar, List.length_append, List.length_cons]
      omega

theorem run_key {indent : Nat} (indented : 0 < indent) {outer : List Nat} {begun : List Token}
    (opens : Opens column .blockMappingStart stack tokens outer begun)
    (settled : settle lexer = some (ready column true stack tokens (writeText indent key ++ ':' :: rest))) :
    ∃ last, column < last ∧ lexer.run =
      (ready last false (column :: outer) (.value :: .scalar (.ofText key) key :: .key :: begun) rest).run := by
  obtain ⟨last, right, near, runs⟩ := run_held simple ends indented settled
  refine ⟨last + 1, Nat.lt_succ_of_lt right, runs.trans ?_⟩
  have colon : StartsToken ':' := ⟨by decide, by decide, by decide⟩
  have open_ : ∀ head ∈ stack.head?, head ≤ column := opens.inside
  have gap : Lexer.skipGap false false false false last (':' :: rest) = (false, false, last, ':' :: rest) :=
    skipGap_token colon false false last rest
  have settled : settle (behindScalar column true stack tokens (.ofText key) ⟨key.toList, false, false, last, ':' :: rest⟩) =
      some (behindScalar column true stack tokens (.ofText key) ⟨key.toList, false, false, last, ':' :: rest⟩) := by
    have far : ¬ column + Lexer.keyWidth < last := Nat.not_lt.mpr near
    have within : ∀ head ∈ stack.head?, head ≤ last := fun head first =>
      Nat.le_trans (open_ head first) (Nat.le_of_lt right)
    simp only [settle, Lexer.advance, behindScalar, Lexer.inFlow, Nat.lt_irrefl, decide_false, gap, Option.any_some,
      Bool.true_and, Bool.not_false, if_true, far, Bool.or_false, Bool.false_eq_true, if_false, Option.map_some, closed,
      List.isEmpty_cons]
    rw [closeTo_same rfl within]
  refine run_token settled rfl ?_ (Nat.le_refl rest.length)
  have dashes : isMarker '-' (':' :: rest) = false := isMarker_of_ne (by decide) rest
  have dots : isMarker '.' (':' :: rest) = false := isMarker_of_ne (by decide) rest
  have opened := opens.openAt last false (':' :: rest)
  simp only [ready] at opened
  simp [Lexer.token, behindScalar, dashes, dots, ends, Lexer.inFlow, Lexer.colon, opened, ready]

end

end PeerPool.Proofs.YamlScalars
