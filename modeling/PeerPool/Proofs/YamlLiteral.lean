import PeerPool.Proofs.YamlLines
import PeerPool.Yaml.Block
import PeerPool.Yaml.Token.BlockScalar

/-! A text that is fit for a literal reads back from one: its lines are found again, and
the header restores the line breaks at its end. -/

namespace PeerPool.Proofs.YamlLiteral
open Yaml YamlCharacters YamlLines

/-- The lines of a text. A last line that has no end gets one in a document. -/
def linesOf : List Char → List Line
  | [] => []
  | c :: rest =>
    if isBreak c then ⟨[], some c⟩ :: linesOf rest
    else
      match linesOf rest with
      | [] => [⟨[c], some '\n'⟩]
      | line :: lines => ⟨c :: line.text, line.ending⟩ :: lines

/-- What has to be added to a text for its last line to end. -/
def closing (text : List Char) : List Char := if text.getLast?.all isBreak then [] else ['\n']

def flatten (lines : List Line) : List Char := lines.flatMap fun line => line.text ++ line.ending.toList

theorem closing_cons {c : Char} {rest : List Char} (more : rest ≠ []) : closing (c :: rest) = closing rest := by
  rw [closing, closing, getLast?_cons_of_ne more]

theorem closing_behind_break {c : Char} (ends : isBreak c = true) (rest : List Char) :
    closing (c :: rest) = closing rest := by
  by_cases more : rest = []
  · simp [more, closing, ends]
  · exact closing_cons more

theorem linesOf_ne_nil {c : Char} {rest : List Char} : linesOf (c :: rest) ≠ [] := by
  rw [linesOf]
  split
  · exact List.cons_ne_nil _ _
  · split <;> exact List.cons_ne_nil _ _

theorem flatten_linesOf (text : List Char) : flatten (linesOf text) = text ++ closing text := by
  induction text with
  | nil => rfl
  | cons c rest ih =>
    rw [linesOf]
    split
    next ends =>
      rw [closing_behind_break ends, List.cons_append, ← ih]
      rfl
    next word =>
      cases rest with
      | nil => simp [linesOf, flatten, closing, word]
      | cons d rest =>
        rw [closing_cons (List.cons_ne_nil d rest), List.cons_append, ← ih]
        split
        next none => exact absurd none linesOf_ne_nil
        next line lines found => rw [found]; rfl

theorem linesOf_line {line : List Char} (whole : ∀ c ∈ line, isBreak c = false) {c : Char}
    (ends : isBreak c = true) (rest : List Char) : linesOf (line ++ c :: rest) = ⟨line, some c⟩ :: linesOf rest := by
  induction line with
  | nil => simp [linesOf, ends]
  | cons d line ih =>
    rw [List.cons_append, linesOf, ih fun c member => whole c (List.mem_cons_of_mem _ member)]
    simp [whole d (by simp)]

theorem linesOf_last {line : List Char} (whole : ∀ c ∈ line, isBreak c = false) (some : line ≠ []) :
    linesOf line = [⟨line, Option.some '\n'⟩] := by
  induction line with
  | nil => exact absurd rfl some
  | cons d line ih =>
    rw [linesOf]
    cases line with
    | nil => simp [linesOf, whole d (by simp)]
    | cons e line =>
      rw [ih (fun c member => whole c (List.mem_cons_of_mem _ member)) (List.cons_ne_nil _ _)]
      simp [whole d (by simp)]

/-- The last line of a text that ends as `last` does. -/
theorem linesOf_append {last : List Char} {e : Char} {ending : Option Char}
    (single : linesOf last = [⟨[e], ending⟩]) (text : List Char) :
    ∃ front body, linesOf (text ++ last) = front ++ [⟨body ++ [e], ending⟩] := by
  induction text with
  | nil => exact ⟨[], [], single⟩
  | cons c text ih =>
    obtain ⟨front, body, same⟩ := ih
    rw [List.cons_append, linesOf, same]
    split
    · exact ⟨⟨[], some c⟩ :: front, body, rfl⟩
    · cases front with
      | nil => exact ⟨[], c :: body, rfl⟩
      | cons line front => exact ⟨⟨c :: line.text, line.ending⟩ :: front, body, rfl⟩

theorem joinLines_keep (last : Line) (empty : List Char) (lines : List Line) :
    joinLines false .keep last empty lines = last.text ++ last.ending.toList ++ empty ++ flatten lines := by
  induction lines generalizing last empty with
  | nil => simp [joinLines, flatten]
  | cons line rest ih =>
    rw [joinLines]
    split
    next blank =>
      have none : line.text = [] := by simpa using blank
      simp [ih, flatten, none]
    next => simp [ih, flatten]

/-- What is left of the end of the last line that is not empty. -/
def kept (chomping : Chomping) (line : Line) : List Char :=
  match chomping with
  | .strip => line.text
  | _ => line.text ++ line.ending.toList

theorem joinLines_last {chomping : Chomping} (chomps : chomping ≠ .keep) {final : Line} (word : final.text ≠ [])
    (last : Line) (empty : List Char) (front : List Line) :
    joinLines false chomping last empty (front ++ [final]) =
      last.text ++ last.ending.toList ++ empty ++ flatten front ++ kept chomping final := by
  induction front generalizing last empty with
  | nil => cases chomping <;> simp_all [joinLines, flatten, kept]
  | cons line rest ih =>
    rw [List.cons_append, joinLines]
    split
    next blank =>
      have none : line.text = [] := by simpa using blank
      simp [ih, flatten, none]
    next => simp [ih, flatten]

/-- How the header of a text says that it ends. -/
def chompingFor (text : List Char) : Chomping :=
  match text.reverse with
  | [] => .strip
  | [last] => if isBreak last then .keep else .strip
  | last :: other :: _ => if isBreak last then if isBreak other then .keep else .clip else .strip

theorem blockText_keep {text : List Char} (ended : closing text = []) : blockText false .keep (linesOf text) = text := by
  simp [blockText, joinLines_keep, flatten_linesOf, ended]

theorem blockText_strip (text : List Char) {last : Char} (word : isBreak last = false) :
    blockText false .strip (linesOf (text ++ [last])) = text ++ [last] := by
  have single : linesOf [last] = [⟨[last], some '\n'⟩] := by simp [linesOf, word]
  obtain ⟨front, body, lines⟩ := linesOf_append single text
  have whole := flatten_linesOf (text ++ [last])
  rw [lines] at whole
  rw [lines, blockText, joinLines_last (by decide) (by simp)]
  have opened : closing (text ++ [last]) = ['\n'] := by simp [closing, word]
  rw [opened] at whole
  apply (List.append_left_inj ['\n']).mp
  simpa [flatten, kept] using whole

theorem blockText_clip (text : List Char) {other last : Char} (word : isBreak other = false) (ends : isBreak last = true) :
    blockText false .clip (linesOf (text ++ [other, last])) = text ++ [other, last] := by
  have single : linesOf [other, last] = [⟨[other], some last⟩] := by simp [linesOf, word, ends]
  obtain ⟨front, body, lines⟩ := linesOf_append single text
  have whole := flatten_linesOf (text ++ [other, last])
  rw [lines] at whole
  rw [lines, blockText, joinLines_last (by decide) (by simp)]
  have closed : closing (text ++ [other, last]) = [] := by simp [closing, ends]
  rw [closed] at whole
  simpa [flatten, kept] using whole

theorem blockText_linesOf (text : List Char) : blockText false (chompingFor text) (linesOf text) = text := by
  unfold chompingFor
  split
  next empty => simp [List.reverse_eq_nil_iff.mp empty, linesOf, blockText, joinLines]
  next last same =>
    have text_eq : text = [] ++ [last] := by simpa using congrArg List.reverse same
    subst text_eq
    split
    next ends => exact blockText_keep (by simp [closing, ends])
    next word => exact blockText_strip [] (by simpa using word)
  next last other before same =>
    have text_eq : text = before.reverse ++ [other, last] := by simpa using congrArg List.reverse same
    subst text_eq
    split
    next ends =>
      split
      next => exact blockText_keep (by simp [closing, ends])
      next word => exact blockText_clip before.reverse (by simpa using word) ends
    next word =>
      have word : isBreak last = false := by simpa using word
      simpa using blockText_strip (before.reverse ++ [other]) word

/-- The text begins in a way that would hide how far it is indented. -/
def hidesIndentation (text : List Char) : Bool := text.head?.any fun c => c = ' ' || isBreak c

theorem scan_header (text body : List Char) :
    literalHeader text ++ body = '|' :: (literalHeader text ++ body).tail ∧
    BlockHeader.scan (literalHeader text ++ body).tail =
      (⟨chompingFor text, if hidesIndentation text then some 2 else none⟩, '\n' :: body) := by
  refine ⟨rfl, ?_⟩
  unfold literalHeader chompingFor hidesIndentation
  generalize text.reverse = back
  rcases back with _ | ⟨last, _ | ⟨other, before⟩⟩
  · cases text.head?.any fun c => c = ' ' || isBreak c <;> rfl
  · cases text.head?.any fun c => c = ' ' || isBreak c <;> cases ends : isBreak last <;> simp only [ends] <;> rfl
  · cases text.head?.any fun c => c = ' ' || isBreak c <;> cases ends : isBreak last <;>
      cases before : isBreak other <;> simp only [ends, before] <;> rfl

theorem dropIndentation_line {c : Char} {indent : Nat} (rest : List Char) :
    dropIndentation indent (spaces indent ++ c :: rest) = (indent, c :: rest) := by
  have wide : indent ≤ ((spaces indent ++ c :: rest).takeWhile (· = ' ')).length := by
    rw [List.takeWhile_append_of_pos (by intro d member; simp [List.eq_of_mem_replicate member])]
    simp [spaces]
  rw [dropIndentation, Nat.min_eq_left wide]
  simp [spaces]

theorem dropIndentation_short {c : Char} {indent width : Nat} (word : c ≠ ' ') (short : width < indent) (rest : List Char) :
    dropIndentation indent (spaces width ++ c :: rest) = (width, c :: rest) := by
  have narrow : ((spaces width ++ c :: rest).takeWhile (· = ' ')).length = width := by
    rw [takeWhile_spaces word]
    simp [spaces]
  rw [dropIndentation, narrow, Nat.min_eq_right (Nat.le_of_lt short)]
  simp [spaces]

theorem scanLines_line {indent : Nat} {line : List Char} (whole : ∀ c ∈ line, isBreak c = false) (some : line ≠ [])
    {ending : Char} (ends : isBreak ending = true) (after : List Char) :
    scanLines indent (spaces indent ++ line ++ ending :: after) =
      (scanLines indent after).map fun (lines, rest) => (⟨line, Option.some ending⟩ :: lines, rest) := by
  obtain ⟨c, rest, rfl⟩ := List.exists_cons_of_ne_nil some
  have taken : (c :: rest ++ ending :: after).takeWhile (!isBreak ·) = c :: rest := by
    rw [List.takeWhile_append_of_pos (by simpa using whole)]
    simp [ends]
  have dropped : (c :: rest ++ ending :: after).dropWhile (!isBreak ·) = ending :: after := by
    rw [List.dropWhile_append_of_pos (by simpa using whole)]
    simp [ends]
  rw [List.append_assoc, scanLines, List.cons_append, dropIndentation_line]
  simp only [whole c (by simp), Bool.false_eq_true, if_false, Nat.lt_irrefl]
  rw [← List.cons_append, taken, dropped]
  simp only
  rw [if_pos (by simp; omega)]

theorem scanLines_empty {indent : Nat} {ending : Char} (ends : isBreak ending = true) (after : List Char) :
    scanLines indent (ending :: after) =
      (scanLines indent after).map fun (lines, rest) => (⟨[], some ending⟩ :: lines, rest) := by
  have word : ending ≠ ' ' := by
    rintro rfl
    exact absurd ends (by decide)
  rw [scanLines]
  have dropped : dropIndentation indent (ending :: after) = (0, ending :: after) := by
    simp [dropIndentation, word]
  rw [dropped]
  simp [ends]

/-- The lines end where a line begins further left. -/
theorem scanLines_stop {bound indent : Nat} (inside : bound < indent) {tail : List Char} (below : Outdented bound tail) :
    scanLines indent tail = some ([], tail) := by
  cases below with
  | ended => simp [scanLines, dropIndentation]
  | @line width c rest narrow starts =>
    have short := Nat.lt_of_le_of_lt narrow inside
    rw [scanLines, dropIndentation_short starts.not_space short]
    simp [starts.not_break, short, starts.not_tab]

/-- A text falls into its first line and what follows the end of that line. -/
theorem split_line (text : List Char) : ∃ line more, text = line ++ more ∧ (∀ c ∈ line, isBreak c = false) ∧
    (more = [] ∨ ∃ ending rest, more = ending :: rest ∧ isBreak ending = true) := by
  induction text with
  | nil => exact ⟨[], [], rfl, by simp, .inl rfl⟩
  | cons c text ih =>
    obtain ⟨line, more, rfl, whole, ended⟩ := ih
    by_cases ends : isBreak c = true
    · exact ⟨[], c :: (line ++ more), rfl, by simp, .inr ⟨c, _, rfl, ends⟩⟩
    · exact ⟨c :: line, more, rfl, by simpa [ends] using whole, ended⟩

theorem writeLiteralFrom_line {indent : Nat} {line : List Char} (whole : ∀ c ∈ line, isBreak c = false)
    (more : List Char) : writeLiteralFrom indent false (line ++ more) = line ++ writeLiteralFrom indent false more := by
  induction line with
  | nil => rfl
  | cons c line ih =>
    rw [List.cons_append, writeLiteralFrom, ih fun c member => whole c (List.mem_cons_of_mem _ member)]
    simp [whole c (by simp)]

theorem writeLiteralFrom_fresh (indent : Nat) {line : List Char} (whole : ∀ c ∈ line, isBreak c = false)
    (some : line ≠ []) (more : List Char) :
    writeLiteralFrom indent true (line ++ more) = spaces indent ++ line ++ writeLiteralFrom indent false more := by
  obtain ⟨c, rest, rfl⟩ := List.exists_cons_of_ne_nil some
  rw [List.cons_append, writeLiteralFrom,
    writeLiteralFrom_line fun c member => whole c (List.mem_cons_of_mem _ member)]
  simp [whole c (by simp)]

/-- The lines of a literal are those of its text, whatever follows further left. -/
theorem scanLines_literal {bound indent : Nat} (inside : bound < indent) {tail : List Char} (below : Outdented bound tail)
    (text : List Char) :
    scanLines indent (writeLiteralFrom indent true text ++ closing text ++ tail) = some (linesOf text, tail) := by
  obtain ⟨line, more, rfl, whole, rfl | ⟨ending, rest, rfl, ends⟩⟩ := split_line text
  · rw [List.append_nil]
    by_cases none : line = []
    · subst none
      exact scanLines_stop inside below
    · have opened : closing line = ['\n'] := by
        have last := whole _ (List.getLast_mem none)
        simp [closing, List.getLast?_eq_some_getLast none, last]
      have written := writeLiteralFrom_fresh indent whole none []
      rw [List.append_nil] at written
      rw [written, opened, writeLiteralFrom, List.append_nil, List.append_assoc, List.singleton_append,
        scanLines_line whole none (by decide), scanLines_stop inside below, linesOf_last whole none]
      rfl
  · have closed : closing (line ++ ending :: rest) = closing rest := by
      rw [← closing_behind_break ends rest]
      simp [closing, List.getLast?_append, List.getLast?_cons]
    have after : writeLiteralFrom indent false (ending :: rest) = ending :: writeLiteralFrom indent true rest := by
      rw [writeLiteralFrom, if_pos ends]
    by_cases none : line = []
    · subst none
      have written : writeLiteralFrom indent true (ending :: rest) = ending :: writeLiteralFrom indent true rest := by
        rw [writeLiteralFrom, if_pos ends]
      rw [closed, List.nil_append, written, List.cons_append, List.cons_append, scanLines_empty ends,
        scanLines_literal inside below rest]
      simp [linesOf, ends]
    · rw [closed, writeLiteralFrom_fresh indent whole none, after, List.append_assoc, List.append_assoc, List.cons_append,
        scanLines_line whole none ends, ← List.append_assoc, scanLines_literal inside below rest,
        linesOf_line whole ends]
      rfl
termination_by text.length
decreasing_by all_goals simp_all <;> omega

theorem shownIndentation_line {indent : Nat} {c : Char} (word : c ≠ ' ') (noBreak : isBreak c = false) (noTab : c ≠ '\t')
    (rest : List Char) : shownIndentation (spaces indent ++ c :: rest) = some indent := by
  rw [shownIndentation, takeWhile_spaces word]
  simp [spaces, noBreak, noTab]

theorem shownIndentation_literal {indent : Nat} {text : List Char} (printable : Printable text) (some : text ≠ [])
    (shows : hidesIndentation text = false) (rest : List Char) :
    shownIndentation (writeLiteralFrom indent true text ++ rest) = Option.some indent := by
  obtain ⟨c, text, rfl⟩ := List.exists_cons_of_ne_nil some
  simp only [hidesIndentation, List.head?_cons, Option.any_some, Bool.or_eq_false_iff, decide_eq_false_iff_not] at shows
  rw [writeLiteralFrom]
  simp only [shows.2, Bool.false_eq_true, if_false, if_true, List.append_assoc]
  exact shownIndentation_line shows.1 shows.2 (not_special (printable c (by simp))).1 _

/-- A literal reads back, header and lines, up to the line below it. -/
theorem scanBlock_literal {head : Nat} {text tail : List Char} (printable : Printable text) (some : text ≠ [])
    (below : Outdented head tail) :
    scanBlock false (head + 1)
        ((literalHeader text ++ writeLiteralFrom (head + 2) true text ++ closing text ++ tail).tail) =
      Option.some ⟨text, true, true, 0, tail⟩ := by
  obtain ⟨-, header⟩ := scan_header text (writeLiteralFrom (head + 2) true text ++ (closing text ++ tail))
  rw [List.append_assoc, List.append_assoc, scanBlock, header]
  have body : skipLineEnd ('\n' :: (writeLiteralFrom (head + 2) true text ++ (closing text ++ tail))) =
      Option.some (writeLiteralFrom (head + 2) true text ++ (closing text ++ tail)) := rfl
  have inside : head < head + 2 := by omega
  have lines := scanLines_literal inside below text
  rw [List.append_assoc] at lines
  cases hides : hidesIndentation text with
  | true =>
    simp only [body, Option.bind_eq_bind, Option.bind_some, if_true, Nat.add_sub_cancel, lines, blockText_linesOf]
    rfl
  | false =>
    have wide : max (max (head + 2) (head + 1)) 1 = head + 2 := by omega
    simp only [body, Option.bind_eq_bind, Option.bind_some, Bool.false_eq_true, if_false,
      shownIndentation_literal printable some hides, Option.map_some, wide, lines, blockText_linesOf]
    rfl

theorem writeLiteralFrom_ne_nil (indent : Nat) (fresh : Bool) {text : List Char} (some : text ≠ []) :
    writeLiteralFrom indent fresh text ≠ [] := by
  obtain ⟨c, rest, rfl⟩ := List.exists_cons_of_ne_nil some
  rw [writeLiteralFrom]
  split <;> simp

theorem getLast?_writeLiteralFrom (indent : Nat) (fresh : Bool) {text : List Char} (some : text ≠ []) :
    (writeLiteralFrom indent fresh text).getLast? = text.getLast? := by
  induction text generalizing fresh with
  | nil => exact absurd rfl some
  | cons c rest ih =>
    by_cases more : rest = []
    · subst more
      rw [writeLiteralFrom]
      split <;> simp [writeLiteralFrom]
    · rw [getLast?_cons_of_ne more, writeLiteralFrom]
      split
      · rw [getLast?_cons_of_ne (writeLiteralFrom_ne_nil _ _ more), ih _ more]
      · rw [List.getLast?_append, getLast?_cons_of_ne (writeLiteralFrom_ne_nil _ _ more), ih _ more,
          List.getLast?_eq_some_getLast more, Option.some_or]

/-- A literal's last line is ended where its text does not end it. -/
theorem endLine_literal (head : Nat) {text : List Char} (some : text ≠ []) :
    Block.endLine (literalHeader text ++ writeLiteralFrom (head + 2) true text) =
      literalHeader text ++ writeLiteralFrom (head + 2) true text ++ closing text := by
  have last := List.getLast?_eq_some_getLast some
  rw [Block.endLine, closing, List.getLast?_append, getLast?_writeLiteralFrom _ _ some, last]
  cases ends : isBreak (text.getLast some) <;> simp [ends]

theorem literalHeader_printable (text : List Char) : Printable (literalHeader text) := by
  have mark : ∀ marks ∈ [[], ['2'], ['-'], ['+']], Printable marks := by simp [Printable]; decide
  unfold literalHeader
  refine (((Printable.cons (by decide) ?_).append ?_).append (.cons (by decide) .nil))
  · split <;> exact mark _ (by simp)
  · repeat' split
    all_goals exact mark _ (by simp)

theorem writeLiteralFrom_printable (indent : Nat) (fresh : Bool) {text : List Char} (printable : Printable text) :
    Printable (writeLiteralFrom indent fresh text) := by
  induction text generalizing fresh with
  | nil => exact .nil
  | cons c rest ih =>
    have later (fresh : Bool) := ih fresh fun d member => printable d (List.mem_cons_of_mem _ member)
    have first := printable c (by simp)
    rw [writeLiteralFrom]
    split
    · exact .cons first (later true)
    · refine .append ?_ (.cons first (later false))
      split
      · exact .spaces indent
      · exact .nil

end PeerPool.Proofs.YamlLiteral
