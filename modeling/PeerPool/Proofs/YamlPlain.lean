import PeerPool.Proofs.YamlLines
import PeerPool.Yaml.Token.FlowScalar

/-! A text that is fit for a plain scalar reads back from one, up to the colon that makes
it a key or up to a line that begins further left. -/

namespace PeerPool.Proofs.YamlPlain
open Yaml YamlCharacters YamlLines

theorem breaksOff_cons {c : Char} {rest : List Char} (whole : breaksOff (c :: rest) = false) :
    (c = ':' → rest ≠ [] ∧ rest.head?.any isGap = false) ∧
    (isGap c = true → rest.head? ≠ some '#') ∧ breaksOff rest = false := by
  simp only [breaksOff, Bool.or_eq_false_iff, decide_eq_false_iff_not] at whole ⊢
  obtain ⟨⟨last, colon⟩, hash⟩ := whole
  obtain ⟨noColon, colonRest⟩ := hasPair_cons colon
  obtain ⟨noHash, hashRest⟩ := hasPair_cons hash
  refine ⟨?_, ?_, ⟨⟨?_, colonRest⟩, hashRest⟩⟩
  · rintro rfl
    refine ⟨?_, noColon (by simp)⟩
    rintro rfl
    exact last rfl
  · intro gap head
    simpa [head] using noHash gap
  · by_cases more : rest = []
    · simp [more]
    · rwa [getLast?_cons_of_ne more] at last

/-- The rest of a plain scalar behind blanks that may still turn out to be its end. -/
theorem scanPlain_words {context : PlainContext} {follow : List Char} {ended : Scanned (List Char)}
    (outside : context.inFlow = false) {text : List Char} (blanks : List Char) (column : Nat)
    (whole : breaksOff text = false) (line : ∀ c ∈ text, isBreak c = false)
    (close : text.getLast?.any isGap = false) (settled : text = [] → blanks = [])
    (comment : blanks ≠ [] → text.head? ≠ some '#')
    (inside : 0 < column ∨ isDocumentMarker (text ++ follow) = false)
    (ends : scanPlain context .none false (column + text.length) follow = some ended) :
    scanPlain context (.blanks blanks) false column (text ++ follow) = some (ended.prepend (blanks ++ text)) := by
  induction text generalizing blanks column with
  | nil =>
    rw [settled rfl]
    simpa [Scanned.prepend, Gap.none] using ends
  | cons c rest ih =>
    obtain ⟨colon, hash, wholeRest⟩ := breaksOff_cons whole
    have lineRest : ∀ d ∈ rest, isBreak d = false := fun d member => line d (List.mem_cons_of_mem _ member)
    have closeRest : rest.getLast?.any isGap = false := by
      by_cases more : rest = []
      · simp [more]
      · rwa [getLast?_cons_of_ne more] at close
    have noBreak : isBreak c = false := line c (by simp)
    have endsRest : scanPlain context .none false (column + 1 + rest.length) follow = some ended := by
      rw [← ends]
      congr 1
      simp only [List.length_cons]
      omega
    rw [List.cons_append, scanPlain]
    by_cases gap : isGap c = true
    · have more : rest ≠ [] := by
        rintro rfl
        simp [gap] at close
      have tail := ih (blanks ++ [c]) (column + 1) wholeRest lineRest closeRest (fun done => absurd done more)
        (fun _ => hash gap) (.inl (Nat.succ_pos column)) endsRest
      simpa [gap, Gap.isBroken, Gap.push, noBreak, columnAfter] using tail
    · have notColon : context.endsAt c (rest ++ follow) = false := by
        simp only [PlainContext.endsAt, outside, Bool.false_and, Bool.or_false]
        by_cases same : c = ':'
        · obtain ⟨more, next⟩ := colon same
          obtain ⟨d, rest, rfl⟩ := List.exists_cons_of_ne_nil more
          simpa [atGap] using fun _ => next
        · simp [same]
      have notBefore : context.endsBefore (.blanks blanks) column (c :: (rest ++ follow)) = false := by
        have marker : ¬ (column = 0 ∧ isDocumentMarker (c :: (rest ++ follow)) = true) := by
          rintro ⟨rfl, marker⟩
          rcases inside with inside | inside
          · exact absurd inside (Nat.lt_irrefl 0)
          · simp [marker] at inside
        have hashed : ¬ (blanks ≠ [] ∧ c = '#') := by
          rintro ⟨some, rfl⟩
          exact comment some rfl
        simp only [PlainContext.endsBefore, Gap.isBroken, Gap.none, Bool.or_eq_false_iff]
        grind
      have notRefused : context.refuses c (rest ++ follow) = false := by simp [PlainContext.refuses, outside]
      have tail := ih [] (column + 1) wholeRest lineRest closeRest (fun _ => rfl) (by simp)
        (.inl (Nat.succ_pos column)) endsRest
      rw [if_neg gap, notBefore, notRefused, notColon]
      simp only [Gap.none, Bool.false_eq_true, if_false, tail, Option.map_some, Gap.fold]
      simp [Scanned.prepend]

theorem scanPlain_colon {context : PlainContext} {column : Nat} {rest : List Char} (outside : context.inFlow = false)
    (ends : atGap rest = true) :
    scanPlain context .none false column (':' :: rest) = some ⟨[], false, false, column, ':' :: rest⟩ := by
  have unmarked : isDocumentMarker (':' :: rest) = false := by
    rcases rest with _ | ⟨d, _ | ⟨e, rest⟩⟩ <;> simp [isDocumentMarker, isMarker]
  rw [scanPlain]
  simp [isGap, isBlank, isBreak, lineSeparator, paragraphSeparator, PlainContext.endsBefore, PlainContext.refuses,
    PlainContext.endsAt, Gap.isBroken, Gap.none, unmarked, outside, ends]

theorem scanPlain_indentation {context : PlainContext} (first : Option Char) (later : List Char) (multiline : Bool)
    (column count : Nat) (rest : List Char) : scanPlain context (.breaks first later) multiline column (spaces count ++ rest) =
      scanPlain context (.breaks first later) multiline (column + count) rest := by
  induction count generalizing column with
  | zero => rfl
  | succ count ih =>
    have step := ih (column + 1)
    rw [Nat.add_right_comm, Nat.add_assoc] at step
    rw [← step, spaces, List.replicate_succ, List.cons_append, scanPlain, if_pos (by decide), if_neg (by simp)]
    have same : (multiline || isBreak ' ') = multiline := by
      rw [show isBreak ' ' = false by decide, Bool.or_false]
    rw [same]
    rfl

/-- A plain scalar looks ahead over the end of its line. -/
theorem scanPlain_lineEnd {context : PlainContext} {bound column : Nat} {tail : List Char} (outside : context.inFlow = false)
    (inside : bound < context.indent) (below : Outdented bound tail) :
    scanPlain context .none false column ('\n' :: tail) =
      some ⟨[], true, true, indentation tail, unindented tail⟩ := by
  have broken : scanPlain context .none false column ('\n' :: tail) =
      scanPlain context (.breaks (some '\n') []) true 0 tail := by
    rw [scanPlain, if_pos (by decide), if_neg (by simp)]
    rfl
  rw [broken]
  cases below with
  | ended => rfl
  | @line width c rest narrow starts =>
    rw [scanPlain_indentation, Nat.zero_add, indentation_line starts, unindented_line starts, scanPlain]
    simp [starts.word, PlainContext.endsBefore, Gap.isBroken, outside, Nat.lt_of_le_of_lt narrow inside]

/-- What follows begins a plain scalar and nothing else. -/
structure PlainStart (c : Char) (rest : List Char) : Prop where
  word : isGap c = false
  flow : isFlowIndicator c = false
  indicator : ['#', '&', '*', '!', '|', '>', '\'', '"', '%', '@', '\x60'].contains c = false
  dash : c = '-' ∨ c = '?' ∨ c = ':' → atGap rest = false

theorem plainStart {c : Char} {rest : List Char} (fits : fitsPlain (c :: rest) = true) (follow : List Char) :
    PlainStart c (rest ++ follow) := by
  simp only [fitsPlain, Bool.and_eq_true, Bool.not_eq_true', opensOtherwise, Bool.or_eq_false_iff] at fits
  obtain ⟨⟨⟨⟨⟨⟨⟨⟨flow, indicator⟩, dash⟩, -⟩, -⟩, -⟩, -⟩, word⟩, -⟩ := fits
  refine ⟨by simpa using word, flow, indicator, ?_⟩
  intro starts
  have more : atGap rest = false := by
    simp only [Bool.and_eq_false_imp, Bool.or_eq_true, decide_eq_true_eq, or_assoc] at dash
    exact dash starts
  cases rest with
  | nil => simp [atGap] at more
  | cons d rest => simpa [atGap] using more

theorem fitsPlain_cons {text : List Char} (fits : fitsPlain text = true) : ∃ c rest, text = c :: rest := by
  cases text with
  | nil => simp [fitsPlain, opensOtherwise] at fits
  | cons c rest => exact ⟨c, rest, rfl⟩

theorem fitsPlain_line {text : List Char} (fits : fitsPlain text = true) :
    ∀ c ∈ text, isPrintable c = true ∧ isBreak c = false := by
  simp only [fitsPlain, Bool.and_eq_true, Bool.not_eq_true', List.all_eq_true] at fits
  exact fits.1.1.2

theorem fitsPlain_last {text : List Char} (fits : fitsPlain text = true) : text.getLast?.any isBreak = false := by
  cases last : text.getLast? with
  | none => rfl
  | some c => exact (fitsPlain_line fits c (List.mem_of_getLast? last)).2

theorem startsToken {c : Char} {rest : List Char} (fits : fitsPlain (c :: rest) = true) : StartsToken c := by
  obtain ⟨word, -, indicator, -⟩ := plainStart fits []
  refine ⟨word, ?_, (not_special (fitsPlain_line fits c (by simp)).1).2.2.2⟩
  rintro rfl
  exact absurd indicator (by decide)

theorem unmarked_key {text : List Char} (fits : fitsPlain text = true) (rest : List Char) :
    isDocumentMarker (text ++ ':' :: rest) = false := by
  simp only [fitsPlain, Bool.and_eq_true, Bool.not_eq_true'] at fits
  obtain ⟨⟨⟨⟨opens, -⟩, -⟩, -⟩, -⟩ := fits
  rcases text with _ | ⟨c, _ | ⟨d, _ | ⟨e, text⟩⟩⟩
  · rcases rest with _ | ⟨d, _ | ⟨e, rest⟩⟩ <;> simp [isDocumentMarker, isMarker]
  · rcases rest with _ | ⟨d, rest⟩ <;> simp [isDocumentMarker, isMarker]
  · simp [isDocumentMarker, isMarker]
  · simp only [opensOtherwise, Bool.or_eq_false_iff] at opens
    obtain ⟨⟨-, dashes⟩, dots⟩ := opens
    simp [List.isPrefixOf] at dashes dots
    simp only [isDocumentMarker, isMarker, List.cons_append, Bool.or_eq_false_iff]
    grind

/-- A text that is fit for a plain scalar is read up to what ends it there. -/
theorem scanPlain_text (context : PlainContext) {text follow : List Char} (column : Nat) {last : Nat} {multiline startsLine : Bool}
    {rest : List Char} (outside : context.inFlow = false) (fits : fitsPlain text = true)
    (inside : 0 < column ∨ isDocumentMarker (text ++ follow) = false)
    (ends : scanPlain context .none false (column + text.length) follow = some ⟨[], multiline, startsLine, last, rest⟩) :
    scanPlain context .none false column (text ++ follow) = some ⟨text, multiline, startsLine, last, rest⟩ := by
  simp only [fitsPlain, Bool.and_eq_true, Bool.not_eq_true', List.all_eq_true] at fits
  obtain ⟨⟨⟨⟨-, whole⟩, line⟩, -⟩, close⟩ := fits
  have scanned := scanPlain_words outside [] column whole (fun c member => (line c member).2) close (fun _ => rfl)
    (by simp) inside ends
  simpa [Scanned.prepend, Gap.none] using scanned

end PeerPool.Proofs.YamlPlain
