import PeerPool.Proofs.YamlCharacters
import PeerPool.Yaml.Token.FlowScalar

/-! A text that is fit for single quotes reads back from them. A line break in it is
never a line feed, so none is folded, and blanks never stand at the end of a line. -/

namespace PeerPool.Proofs.YamlSingle
open Yaml YamlCharacters

/-- The white space that waits in front of a text, which begins a line or does not. -/
inductive Waiting : Bool → Gap → List Char → Prop where
  | inside {blanks text : List Char} (ended : blanks ≠ [] → text.head?.any isBreak = false) :
      Waiting false (.blanks blanks) text
  | fresh {first : Char} {later text : List Char} (kept : first ≠ '\n') (word : text.head?.any isBlank = false) :
      Waiting true (.breaks (some first) later) text

def pending : Gap → List Char
  | .blanks text => text
  | .breaks first later => first.toList ++ later

theorem Waiting.fold_eq {fresh : Bool} {gap : Gap} {text : List Char} (waiting : Waiting fresh gap text) :
    gap.fold = pending gap := by
  cases waiting with
  | inside ended => rfl
  | fresh kept word => simp [Gap.fold, pending, kept]

theorem scanSingle_gap {gap : Gap} {multiline : Bool} {column : Nat} {c : Char} {rest : List Char}
    (blank : isGap c = true) : scanSingle gap multiline column (c :: rest) =
      scanSingle (gap.push c) (multiline || isBreak c) (columnAfter column c) rest := by
  have quote : c ≠ '\'' := by
    rintro rfl
    exact absurd blank (by decide)
  rw [scanSingle] <;> simp [quote, blank]

theorem scanSingle_word {gap : Gap} {multiline : Bool} {column : Nat} {c : Char} {rest : List Char}
    (word : isGap c = false) (quote : c ≠ '\'') (inside : 0 < column) : scanSingle gap multiline column (c :: rest) =
      (scanSingle .none multiline (column + 1) rest).map (.prepend (gap.fold ++ [c])) := by
  rw [scanSingle] <;> simp [quote, word, Nat.ne_of_gt inside]

theorem scanSingle_close {gap : Gap} {multiline : Bool} {column : Nat} {follow : List Char}
    (closed : follow.head? ≠ some '\'') : scanSingle gap multiline column ('\'' :: follow) =
      some ⟨gap.fold, multiline, false, column + 1, follow⟩ := by
  cases follow with
  | nil => rfl
  | cons c follow =>
    have quote : c ≠ '\'' := by simpa using closed
    rw [scanSingle]
    simp [quote]

theorem scanSingle_spaces (first : Option Char) (later : List Char) (multiline : Bool) (column count : Nat)
    (rest : List Char) : scanSingle (.breaks first later) multiline column (spaces count ++ rest) =
      scanSingle (.breaks first later) multiline (column + count) rest := by
  induction count generalizing column with
  | zero => rfl
  | succ count ih =>
    have step := ih (column + 1)
    rw [Nat.add_right_comm, Nat.add_assoc] at step
    rw [← step, spaces, List.replicate_succ, List.cons_append, scanSingle_gap (by decide)]
    have same : (multiline || isBreak ' ') = multiline := by
      rw [show isBreak ' ' = false by decide, Bool.or_false]
    rw [same]
    rfl

/-- The indentation of a line does not count. -/
theorem Waiting.indented {fresh : Bool} {gap : Gap} {text : List Char} (waiting : Waiting fresh gap text)
    (indent : Nat) (multiline : Bool) (column : Nat) (rest : List Char) :
    scanSingle gap multiline column ((if fresh then spaces indent else []) ++ rest) =
      scanSingle gap multiline (column + if fresh then indent else 0) rest := by
  cases waiting with
  | inside ended => rfl
  | fresh kept word => exact scanSingle_spaces _ _ multiline column indent rest

theorem Waiting.past_break {fresh : Bool} {gap : Gap} {c : Char} {rest : List Char}
    (waiting : Waiting fresh gap (c :: rest)) (ends : isBreak c = true) (kept : c ≠ '\n')
    (word : rest.head?.any isBlank = false) :
    Waiting true (gap.push c) rest ∧ pending (gap.push c) = pending gap ++ [c] := by
  cases waiting with
  | inside ended =>
    rename_i blanks
    have none : blanks = [] := Classical.byContradiction fun some => by simpa [ends] using ended some
    subst none
    simp only [Gap.push, ends, if_true]
    exact ⟨.fresh kept word, rfl⟩
  | fresh first _ =>
    simp only [Gap.push, ends, if_true]
    exact ⟨.fresh first word, by simp [pending]⟩

/-- A character that is no white space ends what was pending, be it written twice or once. -/
theorem scanSingle_character {gap : Gap} {column : Nat} {c : Char} (word : isGap c = false) (inside : 0 < column)
    (multiline : Bool) (rest : List Char) :
    scanSingle gap multiline column ((if c = '\'' then ['\'', '\''] else [c]) ++ rest) =
      (scanSingle .none multiline (column + if c = '\'' then 2 else 1) rest).map (.prepend (gap.fold ++ [c])) := by
  by_cases quote : c = '\''
  · subst quote
    simp only [if_true, List.cons_append, List.nil_append]
    rw [scanSingle]
  · simp only [quote, if_false, List.singleton_append]
    exact scanSingle_word word quote inside

/-- What is left of a text in single quotes, behind white space that is part of it. -/
theorem scanSingle_from {indent : Nat} (indented : 0 < indent) {follow : List Char}
    (closed : follow.head? ≠ some '\'') {text : List Char} {fresh : Bool} {gap : Gap} (column : Nat)
    (multiline : Bool) (noFeed : '\n' ∉ text) (starts : hasPair isBreak isBlank text = false)
    (ends : hasPair isBlank isBreak text = false) (waiting : Waiting fresh gap text)
    (inside : fresh = false → 0 < column) :
    ∃ last, scanSingle gap multiline column (writeSingleFrom indent fresh text ++ follow) =
        some ⟨pending gap ++ text, multiline || text.any isBreak, false, last, follow⟩ ∧
      (text.any isBreak = false → fresh = false → last = column + (writeSingleFrom indent fresh text).length) := by
  induction text generalizing fresh gap column multiline with
  | nil =>
    refine ⟨(column + if fresh then indent else 0) + 1, ?_, ?_⟩
    · rw [writeSingleFrom, List.append_assoc, waiting.indented, List.singleton_append,
        scanSingle_close closed, waiting.fold_eq]
      simp
    · rintro - rfl
      simp [writeSingleFrom]
  | cons c rest ih =>
    -- The next character is a break, a blank or part of a word. Of the first two the scanner
    -- only makes a note, which `waiting` keeps in step with what was written.
    obtain ⟨startsHere, startsRest⟩ := hasPair_cons starts
    obtain ⟨endsHere, endsRest⟩ := hasPair_cons ends
    have noFeedRest : '\n' ∉ rest := fun member => noFeed (List.mem_cons_of_mem _ member)
    by_cases breaks : isBreak c = true
    · have kept : c ≠ '\n' := by
        rintro rfl
        simp at noFeed
      obtain ⟨waitingRest, together⟩ := waiting.past_break breaks kept (startsHere breaks)
      obtain ⟨last, scanned, -⟩ := ih (columnAfter column c) true noFeedRest startsRest endsRest
        waitingRest (by simp)
      refine ⟨last, ?_, by simp [breaks]⟩
      rw [writeSingleFrom, if_pos breaks, List.cons_append, scanSingle_gap (break_is_gap breaks), breaks,
        Bool.or_true, scanned, together]
      simp [breaks]
    · have noBreak : isBreak c = false := by simpa using breaks
      have positive : 0 < column + if fresh then indent else 0 := by
        cases fresh with
        | true => exact Nat.lt_of_lt_of_le indented (Nat.le_add_left _ _)
        | false => exact inside rfl
      rw [writeSingleFrom, if_neg breaks, List.append_assoc, List.append_assoc, waiting.indented]
      by_cases blank : isBlank c = true
      · have gap : isGap c = true := by simp [isGap, blank]
        have quote : c ≠ '\'' := by
          rintro rfl
          exact absurd blank (by decide)
        cases waiting with
        | fresh first word => simp [blank] at word
        | @inside blanks _ ended =>
          have further : Waiting false (.blanks (blanks ++ [c])) rest := .inside fun _ => endsHere blank
          obtain ⟨last, scanned, width⟩ := ih (column + 1) multiline noFeedRest startsRest endsRest
            further (fun _ => Nat.succ_pos _)
          refine ⟨last, ?_, ?_⟩
          · simp only [quote, if_false, Bool.false_eq_true, Nat.add_zero, List.singleton_append]
            rw [scanSingle_gap gap]
            simpa [Gap.push, noBreak, columnAfter, pending] using scanned
          · intro single _
            rw [width (by simpa [noBreak] using single) rfl]
            simp [quote]
            omega
      · have word : isGap c = false := by simpa [isGap, noBreak] using blank
        have settled : Waiting false (.blanks []) rest := .inside (by simp)
        obtain ⟨last, scanned, width⟩ := ih ((column + if fresh then indent else 0) + if c = '\'' then 2 else 1)
          multiline noFeedRest startsRest endsRest settled
          (fun _ => Nat.lt_of_lt_of_le positive (Nat.le_add_right _ _))
        refine ⟨last, ?_, ?_⟩
        · rw [scanSingle_character word positive, show Gap.none = .blanks [] from rfl, scanned, waiting.fold_eq]
          simp [Scanned.prepend, pending, noBreak]
        · intro single line
          subst line
          rw [width (by simpa [noBreak] using single) rfl]
          by_cases quote : c = '\'' <;> simp [quote] <;> omega

theorem getLast?_writeSingleFrom (indent : Nat) (fresh : Bool) (text : List Char) :
    (writeSingleFrom indent fresh text).getLast? = some '\'' := by
  induction text generalizing fresh with
  | nil => simp [writeSingleFrom]
  | cons c rest ih =>
    rw [writeSingleFrom]
    split
    next => simp [List.getLast?_cons, ih]
    next => rw [List.getLast?_append, ih, Option.some_or]

theorem writeSingleFrom_printable (indent : Nat) (fresh : Bool) {text : List Char} (printable : Printable text) :
    Printable (writeSingleFrom indent fresh text) := by
  have indented (fresh : Bool) : Printable (if fresh then spaces indent else []) := by
    split
    · exact .spaces indent
    · exact .nil
  induction text generalizing fresh with
  | nil => exact (indented fresh).append (.cons (by decide) .nil)
  | cons c rest ih =>
    have later (fresh : Bool) := ih fresh fun d member => printable d (List.mem_cons_of_mem _ member)
    have first := printable c (by simp)
    rw [writeSingleFrom]
    split
    · exact .cons first (later true)
    · refine ((indented fresh).append ?_).append (later false)
      split
      · exact .cons (by decide) (.cons (by decide) .nil)
      · exact .cons first .nil

theorem writeSingleFrom_length (indent : Nat) {text : List Char} (line : ∀ c ∈ text, isBreak c = false) :
    0 < (writeSingleFrom indent false text).length ∧
    (writeSingleFrom indent false text).length ≤ 2 * text.length + 1 := by
  induction text with
  | nil => simp [writeSingleFrom]
  | cons c rest ih =>
    obtain ⟨some, short⟩ := ih fun d member => line d (List.mem_cons_of_mem _ member)
    have word := line c (by simp)
    rw [writeSingleFrom]
    by_cases quote : c = '\''
    · subst quote
      simp only [word, Bool.false_eq_true, if_false, if_true, List.nil_append, List.length_append, List.length_cons,
        List.length_nil]
      omega
    · simp only [word, quote, Bool.false_eq_true, if_false, List.nil_append, List.length_append, List.length_cons,
        List.length_nil]
      omega

end PeerPool.Proofs.YamlSingle
