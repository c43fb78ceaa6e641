import Mathlib.Data.List.Infix
import Mathlib.Data.List.TakeWhile
import PeerPool.Text.Split

/-! Texts taken apart: at every separator, at the first occurrence of a pattern, and where the
white space around them ends. The pieces put together are the text again. -/

namespace PeerPool.Proofs.TextPieces
open Text

section

variable {separator : Char}

theorem consPiece_eq (c : Char) {pieces : List (List Char)} (some : pieces ≠ []) : consPiece c pieces = pieces.modifyHead (c :: ·) := by
  cases pieces with
  | nil => exact absurd rfl some
  | cons => rfl

theorem separate_eq (separator : Char) (text : List Char) : separate separator text = text.splitOn separator := by
  induction text with
  | nil => rfl
  | cons c rest ih =>
    rw [separate, ih, List.splitOn_cons_eq_if_modifyHead, consPiece_eq c (List.splitOn_ne_nil separator rest)]
    simp only [beq_iff_eq]

theorem separate_piece {piece : List Char} (inside : separator ∉ piece) : separate separator piece = [piece] := by
  rw [separate_eq, List.splitOn_eq_singleton inside]

theorem separate_append {piece : List Char} (inside : separator ∉ piece) (rest : List Char) :
    separate separator (piece ++ separator :: rest) = piece :: separate separator rest := by
  rw [separate_eq, separate_eq, List.splitOn_append_cons_self_of_not_mem inside]

theorem separate_intercalate {pieces : List (List Char)} (some : pieces ≠ []) (inside : ∀ piece ∈ pieces, separator ∉ piece) :
    separate separator ([separator].intercalate pieces) = pieces := by
  rw [separate_eq, List.splitOn_intercalate separator inside some]

theorem separate_ne_nil (separator : Char) (text : List Char) : separate separator text ≠ [] :=
  separate_eq separator text ▸ List.splitOn_ne_nil separator text

theorem intercalate_separate (separator : Char) (text : List Char) : [separator].intercalate (separate separator text) = text := by
  rw [separate_eq, List.intercalate_splitOn]

theorem mem_intercalate {separator : List Char} {pieces : List (List Char)} {c : Char} (member : c ∈ separator.intercalate pieces) :
    c ∈ separator ∨ ∃ piece ∈ pieces, c ∈ piece := by
  induction pieces with
  | nil => cases member
  | cons piece rest ih =>
    by_cases last : rest = []
    · subst last
      rw [List.intercalate_singleton] at member
      exact .inr ⟨piece, List.mem_cons_self .., member⟩
    · rw [List.intercalate_cons_of_ne_nil last, List.mem_append, List.mem_append] at member
      rcases member with (inside | between) | later
      · exact .inr ⟨piece, List.mem_cons_self .., inside⟩
      · exact .inl between
      · exact (ih later).imp_right fun ⟨other, one, inside⟩ => ⟨other, List.mem_cons_of_mem _ one, inside⟩

theorem intercalate_consPiece (separator : List Char) (c : Char) {pieces : List (List Char)} (some : pieces ≠ []) :
    separator.intercalate (consPiece c pieces) = c :: separator.intercalate pieces := by
  cases pieces with
  | nil => exact absurd rfl some
  | cons piece rest =>
    cases rest with
    | nil => simp [consPiece]
    | cons next rest => simp [consPiece, List.intercalate_cons_cons]

end

section

variable {pattern text before after : List Char}

theorem splitOnce_some (found : splitOnce pattern text = some (before, after)) : before ++ pattern ++ after = text := by
  induction text generalizing before with
  | nil =>
    rw [splitOnce] at found
    split at found
    next nothing =>
      cases found
      simpa using nothing
    next => cases found
  | cons c rest ih =>
    rw [splitOnce] at found
    split at found
    next matched =>
      cases found
      exact List.isPrefixOf?_eq_some_iff_append_eq.mp matched
    next =>
      obtain ⟨⟨earlier, later⟩, further, same⟩ := Option.map_eq_some_iff.mp found
      cases same
      exact congrArg (c :: ·) (ih further)

theorem splitOnce_none (absent : ¬ pattern <:+: text) : splitOnce pattern text = none := by
  cases found : splitOnce pattern text with
  | none => rfl
  | some pieces => exact absurd ⟨pieces.1, pieces.2, splitOnce_some found⟩ absent

/-- A pattern is found where its first character comes up first. -/
theorem splitOnce_append {c : Char} {others : List Char} (new : c ∉ before) (after : List Char) :
    splitOnce (c :: others) (before ++ (c :: others) ++ after) = some (before, after) := by
  induction before with
  | nil =>
    have matched : (c :: others).isPrefixOf? (c :: others ++ after) = some after :=
      List.isPrefixOf?_eq_some_iff_append_eq.mpr rfl
    rw [List.nil_append, List.cons_append, splitOnce, ← List.cons_append, matched]
  | cons other rest ih =>
    obtain ⟨differs, new⟩ := not_or.mp (mt List.mem_cons.mpr new)
    have unmatched : (c :: others).isPrefixOf? (other :: (rest ++ (c :: others) ++ after)) = none := by
      rw [List.isPrefixOf?, if_neg (by simpa using differs)]
    rw [List.cons_append, List.cons_append, splitOnce, unmatched, ih new]
    rfl

theorem splitOnce_iff {c : Char} : splitOnce [c] text = some (before, after) ↔ text = before ++ c :: after ∧ c ∉ before := by
  constructor
  · intro found
    have whole := splitOnce_some found
    rw [List.append_assoc, List.singleton_append] at whole
    have inside : c ∈ text := whole ▸ List.mem_append_right _ (List.mem_cons_self ..)
    obtain ⟨first, rest, split, new⟩ := List.eq_append_cons_of_mem inside
    have again : splitOnce [c] (first ++ [c] ++ rest) = some (first, rest) := splitOnce_append new rest
    rw [List.append_assoc, List.singleton_append, ← split, found] at again
    cases again
    exact ⟨split, new⟩
  · rintro ⟨rfl, new⟩
    have found : splitOnce [c] (before ++ [c] ++ after) = some (before, after) := splitOnce_append new after
    rwa [List.append_assoc, List.singleton_append] at found

end

/-- White space, if anything. -/
def Blank (text : List Char) : Prop := ∀ c ∈ text, isWhiteSpace c = true

instance (text : List Char) : Decidable (Blank text) := List.decidableBAll _ text

/-- Without white space. -/
def Solid (text : List Char) : Prop := ∀ c ∈ text, isWhiteSpace c = false

instance (text : List Char) : Decidable (Solid text) := List.decidableBAll _ text

section

variable {before text word after : List Char}

theorem Blank.nil : Blank [] := List.forall_mem_nil _

theorem Blank.append (first : Blank before) (second : Blank after) : Blank (before ++ after) :=
  List.forall_mem_append.mpr ⟨first, second⟩

theorem trimStart_blank (blank : Blank text) : trimStart text = [] := List.dropWhile_eq_nil_iff.mpr blank

theorem trimStart_append (blank : Blank before) (text : List Char) : trimStart (before ++ text) = trimStart text :=
  List.dropWhile_append_of_pos blank

theorem trimStart_cons {c : Char} (solid : isWhiteSpace c = false) (rest : List Char) : trimStart (c :: rest) = c :: rest :=
  List.dropWhile_cons_of_neg (Bool.eq_false_iff.mp solid)

theorem trimStart_starts {c : Char} {rest : List Char} (left : trimStart text = c :: rest) : isWhiteSpace c = false := by
  have first := List.head?_dropWhile_not isWhiteSpace text
  rw [← trimStart, left] at first
  simpa using first

theorem trimStart_split (text : List Char) : ∃ before, Blank before ∧ before ++ trimStart text = text :=
  ⟨text.takeWhile isWhiteSpace, fun _ member => List.mem_takeWhile_imp member, List.takeWhile_append_dropWhile⟩

theorem trimEnd_eq (text : List Char) : trimEnd text = (trimStart text.reverse).reverse := rfl

theorem trimEnd_append (text : List Char) (blank : Blank after) : trimEnd (text ++ after) = trimEnd text := by
  have turned : Blank after.reverse := fun c member => blank c (List.mem_reverse.mp member)
  rw [trimEnd_eq, List.reverse_append, trimStart_append turned, ← trimEnd_eq]

theorem trimEnd_split (text : List Char) : ∃ after, Blank after ∧ trimEnd text ++ after = text := by
  obtain ⟨before, blank, same⟩ := trimStart_split text.reverse
  refine ⟨before.reverse, fun c member => blank c (List.mem_reverse.mp member), ?_⟩
  rw [trimEnd_eq, ← List.reverse_append, same, List.reverse_reverse]

/-- Nothing goes away from the first character on that is no white space. -/
theorem trimStart_solid (before : List Char) {c : Char} (solid : isWhiteSpace c = false) (rest : List Char) :
    trimStart (before ++ c :: rest) = trimStart before ++ c :: rest := by
  induction before with
  | nil => exact trimStart_cons solid rest
  | cons other before ih =>
    cases blank : isWhiteSpace other with
    | true =>
      have skips (text : List Char) : trimStart (other :: text) = trimStart text := List.dropWhile_cons_of_pos blank
      rw [List.cons_append, skips, skips, ih]
    | false => rw [List.cons_append, trimStart_cons blank, trimStart_cons blank, List.cons_append]

theorem trimEnd_solid (text : List Char) {c : Char} (solid : isWhiteSpace c = false) (rest : List Char) :
    trimEnd (text ++ c :: rest) = text ++ c :: trimEnd rest := by
  rw [trimEnd_eq, List.reverse_append, List.reverse_cons, List.append_assoc, List.singleton_append, trimStart_solid _ solid,
    List.reverse_append, List.reverse_cons, List.reverse_reverse, List.append_assoc, List.singleton_append, ← trimEnd_eq]

theorem trim_split (text : List Char) : ∃ before after, Blank before ∧ Blank after ∧ before ++ trim text ++ after = text := by
  obtain ⟨before, leads, same⟩ := trimStart_split text
  obtain ⟨after, trails, rest⟩ := trimEnd_split (trimStart text)
  exact ⟨before, after, leads, trails, by rw [trim, List.append_assoc, rest, same]⟩

theorem trim_append_left (blank : Blank before) (text : List Char) : trim (before ++ text) = trim text :=
  congrArg trimEnd (trimStart_append blank text)

theorem trim_append_right (text : List Char) (blank : Blank after) : trim (text ++ after) = trim text := by
  obtain ⟨before, leads, same⟩ := trimStart_split text
  rw [← same, List.append_assoc, trim_append_left leads, trim_append_left leads]
  cases left : trimStart text with
  | nil =>
    rw [List.nil_append, trim, trimStart_blank blank]
    rfl
  | cons c rest =>
    have solid := trimStart_starts left
    rw [trim, trim, List.cons_append, trimStart_cons solid, trimStart_cons solid, ← List.cons_append, trimEnd_append _ blank]

theorem trim_trimEnd (text : List Char) : trim (trimEnd text) = trim text := by
  obtain ⟨after, blank, same⟩ := trimEnd_split text
  rw [← trim_append_right (trimEnd text) blank, same]

theorem trim_blank (blank : Blank text) : trim text = [] := by
  rw [trim, trimStart_blank blank]
  rfl

theorem trim_eq_nil : trim text = [] ↔ Blank text := by
  constructor
  · intro nothing
    obtain ⟨before, after, leads, trails, same⟩ := trim_split text
    rw [nothing, List.append_nil] at same
    exact same ▸ leads.append trails
  · exact trim_blank

/-- Nothing goes away up to the end of a word. -/
theorem trimEnd_word (text : List Char) (some : word ≠ []) (solid : Solid word) (rest : List Char) :
    trimEnd (text ++ word ++ rest) = text ++ word ++ trimEnd rest := by
  have last : isWhiteSpace (word.getLast some) = false := solid _ (List.getLast_mem some)
  rw [← List.dropLast_concat_getLast some, ← List.append_assoc, List.append_assoc (text ++ word.dropLast), List.singleton_append,
    trimEnd_solid _ last, List.append_assoc (text ++ word.dropLast), List.singleton_append]

theorem trim_word (some : word ≠ []) (solid : Solid word) (rest : List Char) : trim (word ++ rest) = word ++ trimEnd rest := by
  obtain ⟨c, tail, rfl⟩ := List.exists_cons_of_ne_nil some
  rw [trim, List.cons_append, trimStart_cons (solid c (List.mem_cons_self ..))]
  exact trimEnd_word [] some solid rest

theorem trim_solid (solid : Solid word) : trim word = word := by
  cases word with
  | nil => rfl
  | cons c rest =>
    have kept := trim_word (List.cons_ne_nil c rest) solid []
    rwa [trimEnd_eq, List.append_nil, List.reverse_nil, trimStart_blank .nil, List.reverse_nil, List.append_nil] at kept

theorem trim_between {first last : List Char} (begins : first ≠ []) (starts : Solid first) (middle : List Char) (ends : last ≠ [])
    (stops : Solid last) (rest : List Char) : trim (first ++ middle ++ last ++ rest) = first ++ middle ++ last ++ trimEnd rest := by
  rw [List.append_assoc first, List.append_assoc first, trim_word begins starts, trimEnd_word middle ends stops, ← List.append_assoc,
    ← List.append_assoc]

theorem trim_ends {first last : List Char} (begins : first ≠ []) (starts : Solid first) (middle : List Char) (ends : last ≠ [])
    (stops : Solid last) : trim (first ++ middle ++ last) = first ++ middle ++ last := by
  have kept := trim_between begins starts middle ends stops []
  rwa [trimEnd_eq, List.append_nil, List.reverse_nil, trimStart_blank .nil, List.reverse_nil, List.append_nil] at kept

/-- White space at the end of a text goes with what is around it. -/
theorem mem_trimEnd {c : Char} (member : c ∈ trimEnd text) : c ∈ text := by
  obtain ⟨after, _, same⟩ := trimEnd_split text
  exact same ▸ List.mem_append_left after member

end

end PeerPool.Proofs.TextPieces
