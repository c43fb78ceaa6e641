import PeerPool.Proofs.YamlLines
import PeerPool.Yaml.Token.Lexer

/-! What the lexer does from one token to the next in block style. Runs are compared where
the lexer has settled in front of a token: the white space is behind it, and the
collections are closed that the token does not belong to. -/

namespace PeerPool.Proofs.YamlLexer
open Yaml YamlCharacters YamlLines

/-- A lexer outside brackets and braces that holds nothing back. -/
def ready (column : Nat) (keyAllowed : Bool) (stack : List Nat) (tokens : List Token) (text : List Char) : Lexer :=
  { column := column, rest := text, indents := stack, keyAllowed := keyAllowed, tokens := tokens }

section

variable (column : Nat) (keyAllowed : Bool) (stack : List Nat) (tokens : List Token) (text : List Char)

@[simp] theorem ready_column : (ready column keyAllowed stack tokens text).column = column := rfl

@[simp] theorem ready_rest : (ready column keyAllowed stack tokens text).rest = text := rfl

@[simp] theorem ready_keyAllowed : (ready column keyAllowed stack tokens text).keyAllowed = keyAllowed := rfl

@[simp] theorem ready_held : (ready column keyAllowed stack tokens text).held = none := rfl

@[simp] theorem ready_inFlow : (ready column keyAllowed stack tokens text).inFlow = false := rfl

@[simp] theorem ready_releaseKey : (ready column keyAllowed stack tokens text).releaseKey =
    some (ready column keyAllowed stack tokens text) := rfl

end

def atLine (stack : List Nat) (tokens : List Token) (text : List Char) : Lexer := ready 0 true stack tokens text

/-- A lexer in front of a token, once what does not contain the token is closed. -/
def closed (next : Lexer) : Lexer := if next.rest.isEmpty then next.closeAll else next.closeTo next.column

def settle (lexer : Lexer) : Option Lexer := lexer.advance.map closed

/-- The lexer is in front of a line, or behind the white space that the line begins with. -/
def Stands (lexer : Lexer) (stack : List Nat) (tokens : List Token) (tail : List Char) : Prop :=
  settle lexer = settle (atLine stack tokens tail)

theorem skipGap_length (flow comment broken keyAllowed : Bool) (column : Nat) (text : List Char) :
    (Lexer.skipGap flow comment broken keyAllowed column text).2.2.2.length ≤ text.length := by
  induction text generalizing comment broken keyAllowed column with
  | nil => simp [Lexer.skipGap]
  | cons c rest ih =>
    rw [Lexer.skipGap]
    repeat' split
    all_goals first | exact Nat.le_succ_of_le (ih _ _ _ _) | exact Nat.le_refl _

theorem releaseKey_rest {lexer released : Lexer} (release : lexer.releaseKey = some released) :
    released.rest = lexer.rest := by
  unfold Lexer.releaseKey at release
  split at release
  next => simp_all
  next held _ =>
    split at release
    · cases release
    · cases release
      rfl

theorem advance_length {lexer next : Lexer} (advanced : lexer.advance = some next) :
    next.rest.length ≤ lexer.rest.length := by
  have shorter := skipGap_length lexer.inFlow false false lexer.keyAllowed lexer.column lexer.rest
  unfold Lexer.advance at advanced
  simp only at advanced
  split at advanced
  · rw [releaseKey_rest advanced]
    exact shorter
  · cases advanced
    exact shorter

theorem closeTo_rest (column : Nat) (lexer : Lexer) : (lexer.closeTo column).rest = lexer.rest := by
  unfold Lexer.closeTo
  split <;> rfl

/-- One token is taken off the text. -/
theorem run_token {lexer next after : Lexer} {c : Char} {rest : List Char} (settled : settle lexer = some next)
    (text : next.rest = c :: rest) (taken : next.token c rest = some after)
    (shorter : after.rest.length ≤ rest.length) : lexer.run = after.run := by
  obtain ⟨moved, advanced, closes⟩ := Option.map_eq_some_iff.mp settled
  rw [closed] at closes
  have more : moved.rest = c :: rest := by
    split at closes
    next finished =>
      rw [← closes] at text
      simp [Lexer.closeAll, List.isEmpty_iff.mp finished] at text
    next => rwa [← closes, closeTo_rest] at text
  rw [if_neg (by simp [more])] at closes
  have room := advance_length advanced
  rw [more, List.length_cons] at room
  rw [Lexer.run, advanced]
  simp only [more, closes, taken]
  rw [if_pos (by omega)]

/-- The text is over. -/
theorem run_over {lexer next : Lexer} (settled : settle lexer = some next) (text : next.rest = [])
    (free : next.held = none) : lexer.run = some next.tokens.reverse := by
  obtain ⟨moved, advanced, closes⟩ := Option.map_eq_some_iff.mp settled
  rw [closed] at closes
  have finished : moved.rest = [] := by
    split at closes
    next finished => exact List.isEmpty_iff.mp finished
    next => rwa [← closes, closeTo_rest] at text
  rw [if_pos (by simp [finished])] at closes
  subst closes
  have released : moved.releaseKey = some moved := by
    have none : moved.held = none := free
    simp [Lexer.releaseKey, none]
  rw [Lexer.run, advanced]
  simp only [finished, released, Option.map_some]

theorem skipGap_spaces (broken keyAllowed : Bool) (column count : Nat) (rest : List Char) :
    Lexer.skipGap false false broken keyAllowed column (spaces count ++ rest) =
      Lexer.skipGap false false broken keyAllowed (column + count) rest := by
  induction count generalizing column with
  | zero => rfl
  | succ count ih =>
    have step := ih (column + 1)
    rw [Nat.add_right_comm, Nat.add_assoc] at step
    rw [← step, spaces, List.replicate_succ, List.cons_append, Lexer.skipGap]
    rfl

theorem skipGap_token {c : Char} (starts : StartsToken c) (broken keyAllowed : Bool) (column : Nat) (rest : List Char) :
    Lexer.skipGap false false broken keyAllowed column (c :: rest) = (broken, keyAllowed, column, c :: rest) := by
  rw [Lexer.skipGap]
  simp [starts.not_break, starts.not_space, starts.not_tab, starts.comment, starts.mark]

theorem skipGap_line {bound : Nat} {tail : List Char} (below : Outdented bound tail) (broken : Bool) :
    Lexer.skipGap false false broken true 0 tail = (broken, true, indentation tail, unindented tail) := by
  cases below with
  | ended => rfl
  | @line width c rest inside starts =>
    rw [skipGap_spaces, skipGap_token starts, indentation_line starts, unindented_line starts, Nat.zero_add]

theorem settle_atLine {bound : Nat} {tail : List Char} (below : Outdented bound tail) (stack : List Nat)
    (tokens : List Token) : settle (atLine stack tokens tail) =
      some (closed (ready (indentation tail) true stack tokens (unindented tail))) := by
  have gap := skipGap_line below false
  simp only [settle, Lexer.advance, atLine, ready, Lexer.inFlow, Nat.lt_irrefl, decide_false, gap, Option.any_none,
    Bool.or_false, Bool.false_eq_true, if_false, Option.map_some]

theorem closeTo_same {column : Nat} {lexer : Lexer} (outside : lexer.flow = 0)
    (open_ : ∀ head ∈ lexer.indents.head?, head ≤ column) : lexer.closeTo column = lexer := by
  have none : lexer.indents.takeWhile (column < ·) = [] := by
    cases found : lexer.indents with
    | nil => rfl
    | cons head rest =>
      have inside := open_ head (by simp [found])
      simp [Nat.not_lt.mpr inside]
  have unbraced : lexer.inFlow = false := by simp [Lexer.inFlow, outside]
  rw [Lexer.closeTo, unbraced, if_neg Bool.false_ne_true, none]
  rfl

/-- A line that is indented as the innermost collection begins with a token of it. -/
theorem settle_line {text : List Char} (begins : Begins text) (column : Nat) (stack : List Nat) (tokens : List Token) :
    settle (atLine (column :: stack) tokens (spaces column ++ text)) =
      some (ready column true (column :: stack) tokens text) := by
  cases begins with
  | token starts =>
    rw [settle_atLine (.line (Nat.le_refl column) starts), indentation_line starts, unindented_line starts, closed,
      if_neg (by simp [ready]), closeTo_same rfl (by simp [ready])]

/-- A token further right on the line belongs to the innermost collection too. -/
theorem settle_spaces {text : List Char} (begins : Begins text) (column count : Nat) (keyAllowed : Bool)
    {stack : List Nat} (inside : ∀ head ∈ stack.head?, head ≤ column + count) (tokens : List Token) :
    settle (ready column keyAllowed stack tokens (spaces count ++ text)) =
      some (ready (column + count) keyAllowed stack tokens text) := by
  cases begins with
  | @token c rest starts =>
    have gap : Lexer.skipGap false false false keyAllowed column (spaces count ++ c :: rest) =
        (false, keyAllowed, column + count, c :: rest) := by
      rw [skipGap_spaces, skipGap_token starts]
    simp only [settle, Lexer.advance, ready, Lexer.inFlow, Nat.lt_irrefl, decide_false, gap, Option.any_none,
      Bool.or_false, Bool.false_eq_true, if_false, Option.map_some, closed, List.isEmpty_cons]
    rw [closeTo_same rfl (by simpa using inside)]

/-- A line that is indented further than the innermost collection begins a new one. -/
theorem settle_next_line {text : List Char} (begins : Begins text) (column width : Nat) (keyAllowed : Bool)
    {stack : List Nat} (inside : ∀ head ∈ stack.head?, head ≤ width) (tokens : List Token) :
    settle (ready column keyAllowed stack tokens ('\n' :: spaces width ++ text)) =
      some (ready width true stack tokens text) := by
  cases begins with
  | @token c rest starts =>
    have gap : Lexer.skipGap false false false keyAllowed column ('\n' :: (spaces width ++ c :: rest)) =
        (true, true, width, c :: rest) := by
      rw [Lexer.skipGap, if_pos (by decide), skipGap_spaces, skipGap_token starts]
      simp
    simp only [settle, Lexer.advance, ready, Lexer.inFlow, Nat.lt_irrefl, decide_false, List.cons_append, gap,
      Option.any_none, Bool.or_false, if_true, Lexer.releaseKey, Option.map_some, closed, List.isEmpty_cons,
      Bool.false_eq_true, if_false]
    rw [closeTo_same rfl (by simpa using inside)]

/-- The end of a collection shows when the next line begins further left. -/
theorem Stands.close {lexer : Lexer} {bound inner : Nat} {stack : List Nat} {tokens : List Token} {tail : List Char}
    (stands : Stands lexer (inner :: stack) tokens tail) (inside : bound < inner) (below : Outdented bound tail) :
    Stands lexer stack (.blockEnd :: tokens) tail := by
  rw [Stands, stands, settle_atLine below, settle_atLine below]
  cases below with
  | ended =>
    simp only [closed, ready, unindented_nil, List.isEmpty_nil, if_true, Lexer.closeAll, List.length_cons]
    rw [List.replicate_succ', List.append_assoc]
    rfl
  | @line width c rest narrow starts =>
    have outside : width < inner := Nat.lt_of_le_of_lt narrow inside
    rw [indentation_line starts, unindented_line starts]
    simp only [closed, ready, List.isEmpty_cons, Bool.false_eq_true, if_false, Lexer.closeTo, Lexer.inFlow, Nat.lt_irrefl,
      decide_false, List.takeWhile_cons, outside, decide_true, if_true, List.length_cons, List.drop_succ_cons]
    rw [List.replicate_succ', List.append_assoc]
    rfl

theorem settle_start {text : List Char} (begins : Begins text) :
    settle (atLine [] [] text) = some (ready 0 true [] [] text) :=
  settle_spaces begins 0 0 true (by simp) []

/-- Behind the last line, all collections are closed. -/
theorem Stands.run {lexer : Lexer} {stack : List Nat} {tokens : List Token} (stands : Stands lexer stack tokens []) :
    lexer.run = some (tokens.reverse ++ List.replicate stack.length .blockEnd) := by
  have finished : settle lexer = some (closed (ready 0 true stack tokens [])) :=
    stands.trans (settle_atLine (.ended : Outdented 0 []) stack tokens)
  rw [run_over finished (by simp [closed, Lexer.closeAll, ready]) (by simp [closed, Lexer.closeAll, ready])]
  simp [closed, Lexer.closeAll, ready]

/-- A token in a column belongs to the collection there, which the token may be the first of. -/
inductive Opens (column : Nat) (start : Token) : List Nat → List Token → List Nat → List Token → Prop where
  | already (outer : List Nat) (tokens : List Token) : Opens column start (column :: outer) tokens outer tokens
  | anew {stack : List Nat} (inside : ∀ head ∈ stack.head?, head < column) (tokens : List Token) :
      Opens column start stack tokens stack (start :: tokens)

theorem Opens.inside {column : Nat} {start : Token} {stack outer : List Nat} {tokens begun : List Token}
    (opens : Opens column start stack tokens outer begun) : ∀ head ∈ stack.head?, head ≤ column := by
  cases opens with
  | already => simp
  | anew inside => exact fun head first => Nat.le_of_lt (inside head first)

theorem Opens.openAt {column : Nat} {start : Token} {stack outer : List Nat} {tokens begun : List Token}
    (opens : Opens column start stack tokens outer begun) (last : Nat) (keyAllowed : Bool) (text : List Char) :
    (ready last keyAllowed stack tokens text).openAt column start =
      ready last keyAllowed (column :: outer) begun text := by
  cases opens with
  | already => simp [Lexer.openAt, ready, Lexer.inFlow]
  | anew inside =>
    cases stack with
    | nil => simp [Lexer.openAt, ready, Lexer.inFlow]
    | cons head rest =>
      have outside : ¬ column ≤ head := Nat.not_le.mpr (inside head rfl)
      simp [Lexer.openAt, ready, Lexer.inFlow, outside]

/-- The marks that collections are made up of. -/
inductive Marks : Char → Token → Token → Prop where
  | item : Marks '-' .blockSequenceStart .item
  | key : Marks '?' .blockMappingStart .key
  | value : Marks ':' .blockMappingStart .value

theorem Marks.startsToken {mark : Char} {start token : Token} (marks : Marks mark start token) : StartsToken mark := by
  cases marks <;> exact ⟨by decide, by decide, by decide⟩

theorem isMarker_atGap {mark c : Char} (word : isGap mark = false) {rest : List Char} (ends : atGap rest = true) :
    isMarker mark (c :: rest) = false := by
  rcases rest with _ | ⟨d, _ | ⟨e, rest⟩⟩
  · rfl
  · rfl
  · have differs : d ≠ mark := by
      rintro rfl
      simp [atGap, word] at ends
    simp [isMarker, differs]

theorem run_mark {mark : Char} {start token : Token} (marks : Marks mark start token) {lexer : Lexer} {column : Nat}
    {stack outer : List Nat} {tokens begun : List Token} (opens : Opens column start stack tokens outer begun)
    {rest : List Char} (ends : atGap rest = true)
    (settled : settle lexer = some (ready column true stack tokens (mark :: rest))) :
    lexer.run = (ready (column + 1) true (column :: outer) (token :: begun) rest).run := by
  have dashes : isMarker '-' (mark :: rest) = false := isMarker_atGap (by decide) ends
  have dots : isMarker '.' (mark :: rest) = false := isMarker_atGap (by decide) ends
  have opened := opens.openAt column true (mark :: rest)
  refine run_token settled rfl ?_ (Nat.le_refl rest.length)
  cases marks with
  | item =>
    simp only [Lexer.token, ready_column, ready_inFlow, dashes, dots, ends, Lexer.dash, ready_keyAllowed, ready_releaseKey]
    simp [opened]
    rfl
  | key =>
    simp only [Lexer.token, ready_column, ready_inFlow, dashes, dots, ends, Lexer.questionMark, ready_keyAllowed,
      ready_releaseKey]
    simp [opened]
    rfl
  | value =>
    simp only [Lexer.token, ready_column, ready_inFlow, dashes, dots, ends, Lexer.colon, ready_keyAllowed, ready_held]
    simp [opened]
    rfl

theorem newline_stands {bound : Nat} {tail : List Char} (below : Outdented bound tail) (column : Nat) (keyAllowed : Bool)
    (stack : List Nat) (tokens : List Token) :
    Stands (ready column keyAllowed stack tokens ('\n' :: tail)) stack tokens tail := by
  have gap : Lexer.skipGap false false false keyAllowed column ('\n' :: tail) =
      (true, true, indentation tail, unindented tail) := by
    rw [Lexer.skipGap, if_pos (by decide), Bool.not_false, Bool.or_true]
    exact skipGap_line below true
  rw [Stands, settle_atLine below]
  simp [settle, Lexer.advance, ready, Lexer.inFlow, gap, Lexer.releaseKey]

/-- The brackets and braces of collections of nothing. -/
inductive Brackets : Char → Char → Token → Token → Prop where
  | sequence : Brackets '[' ']' .flowSequenceStart .flowSequenceEnd
  | mapping : Brackets '\x7b' '\x7d' .flowMappingStart .flowMappingEnd

theorem Brackets.startsToken {opening closing : Char} {start stop : Token}
    (brackets : Brackets opening closing start stop) : StartsToken opening ∧ StartsToken closing := by
  cases brackets <;> exact ⟨⟨by decide, by decide, by decide⟩, ⟨by decide, by decide, by decide⟩⟩

theorem isMarker_of_ne {mark c : Char} (differs : c ≠ mark) (rest : List Char) : isMarker mark (c :: rest) = false := by
  rcases rest with _ | ⟨d, _ | ⟨e, rest⟩⟩ <;> simp [isMarker, differs]

theorem holdKey_ready (column : Nat) (keyAllowed : Bool) (stack : List Nat) (tokens : List Token) (text : List Char) :
    (ready column keyAllowed stack tokens text).holdKey = some
      { ready column false stack tokens text with
        held := if keyAllowed then some ⟨column, stack.head? = some column, []⟩ else none } := by
  cases keyAllowed <;> simp [Lexer.holdKey, ready, Lexer.releaseKey, Lexer.inFlow]

theorem run_brackets {opening closing : Char} {start stop : Token} (brackets : Brackets opening closing start stop)
    {lexer : Lexer} {bound column : Nat} {keyAllowed : Bool} {stack : List Nat} {tokens : List Token} {tail : List Char}
    (optional : stack.head? ≠ some column) (below : Outdented bound tail) (settled : settle lexer =
      some (ready column keyAllowed stack tokens (opening :: closing :: '\n' :: tail))) :
    ∃ after, Stands after stack (stop :: start :: tokens) tail ∧ lexer.run = after.run := by
  let between : Lexer :=
    { ready (column + 1) true stack (start :: tokens) (closing :: '\n' :: tail) with flow := 1 }
  have opened : lexer.run = between.run := by
    refine run_token settled rfl ?_ (Nat.le_refl _)
    cases brackets <;> cases keyAllowed <;>
      simp [Lexer.token, isMarker_of_ne, Lexer.openFlow, holdKey_ready] <;>
      simp [Lexer.releaseKey, ready, optional, between, Lexer.emit, Lexer.moveTo]
  have within : settle between = some between := by
    have gap : Lexer.skipGap true false false true (column + 1) (closing :: '\n' :: tail) =
        (false, true, column + 1, closing :: '\n' :: tail) := by
      cases brackets <;> rfl
    simp [settle, Lexer.advance, between, ready, Lexer.inFlow, gap, closed, Lexer.closeTo]
  refine ⟨_, newline_stands below (column + 2) false _ _, opened.trans (run_token within rfl ?_ (Nat.le_refl _))⟩
  cases brackets <;> simp [Lexer.token, between, ready, Lexer.closeFlow, Lexer.releaseKey, Lexer.inFlow, Lexer.emit,
    Lexer.moveTo]

end PeerPool.Proofs.YamlLexer
