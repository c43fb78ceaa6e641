import Mathlib.Data.Set.Subsingleton
import PeerPool.Proofs.SelectorTerms

/-! The grammar of selectors. The reader counts parentheses to tell the commas between terms from
those inside sets. Nothing in a term is a comma outside parentheses, and the one pair of them that
a set has closes behind its values, so the reader cuts a text exactly where the terms end. -/

namespace PeerPool.Proofs.SelectorGrammar
open Text Selector TextPieces LabelNames SelectorTerms

/-- What selector a text stands for, if any. -/
inductive Denotes : List Char → Selector → Prop
  | blank {text : List Char} : Blank text → Denotes text []
  | terms {pieces : List (List Char)} {selector : Selector} :
    pieces ≠ [] → List.Forall₂ (Padded Term) pieces selector → Denotes ([','].intercalate pieces) selector

section

variable {depth : Nat} {text piece : List Char} {pieces : List (List Char)}

/-- What a character does depends on it and on the depth it is found at, not on what follows. It goes on at the depth that
it leads to, unless it closes what is not open, and a comma goes into a piece just inside parentheses. -/
theorem splitTerms_step (depth : Nat) (c : Char) :
    (∃ later, later + [c].count ')' = depth + [c].count '(' ∧ (c = ',' → depth ≠ 0) ∧
      ∀ rest, splitTerms depth (c :: rest) = (splitTerms later rest).map (consPiece c)) ∨
    (c = ')' ∧ depth = 0 ∧ ∀ rest, splitTerms depth (c :: rest) = none) ∨
    (c = ',' ∧ depth = 0 ∧ ∀ rest, splitTerms depth (c :: rest) = (splitTerms 0 rest).map ([] :: ·)) := by
  by_cases opens : c = '('
  · subst opens
    exact .inl ⟨depth + 1, by simp, by simp, fun rest => by rw [splitTerms.eq_def]; simp⟩
  · by_cases closes : c = ')'
    · subst closes
      cases depth with
      | zero => exact .inr (.inl ⟨rfl, rfl, fun rest => by simp [splitTerms.eq_def 0]⟩)
      | succ outer => exact .inl ⟨outer, by simp, by simp, fun rest => by rw [splitTerms.eq_def]; simp⟩
    · by_cases parts : c = ',' ∧ depth = 0
      · obtain ⟨rfl, rfl⟩ := parts
        exact .inr (.inr ⟨rfl, rfl, fun rest => by rw [splitTerms.eq_def]; rfl⟩)
      · exact .inl ⟨depth, by simp [opens, closes], fun comma => not_and.mp parts comma,
          fun rest => by rw [splitTerms.eq_def]; simp [opens, closes, parts]⟩

theorem splitTerms_some (found : splitTerms depth text = some pieces) : pieces ≠ [] ∧ [','].intercalate pieces = text := by
  induction text generalizing depth pieces with
  | nil =>
    rw [splitTerms] at found
    split at found
    · cases found
      exact ⟨List.cons_ne_nil _ _, rfl⟩
    · cases found
  | cons c rest ih =>
    obtain ⟨later, -, -, step⟩ | ⟨-, -, stray⟩ | ⟨rfl, -, step⟩ := splitTerms_step depth c
    · obtain ⟨others, further, rfl⟩ := Option.map_eq_some_iff.mp (step rest ▸ found)
      obtain ⟨more, same⟩ := ih further
      exact ⟨by cases others <;> exact List.cons_ne_nil _ _, by rw [intercalate_consPiece _ c more, same]⟩
    · cases stray rest ▸ found
    · obtain ⟨others, further, rfl⟩ := Option.map_eq_some_iff.mp (step rest ▸ found)
      obtain ⟨more, same⟩ := ih further
      exact ⟨List.cons_ne_nil _ _, by rw [List.intercalate_cons_of_ne_nil more, same, List.nil_append, List.singleton_append]⟩

/-- Without parentheses, and without commas unless those around it are inside some. -/
def Smooth (depth : Nat) (text : List Char) : Prop := ∀ c ∈ text, c ≠ '(' ∧ c ≠ ')' ∧ (c = ',' → depth ≠ 0)

instance (depth : Nat) (text : List Char) : Decidable (Smooth depth text) := List.decidableBAll _ text

theorem Smooth.append {first second : List Char} (left : Smooth depth first) (right : Smooth depth second) : Smooth depth (first ++ second) :=
  List.forall_mem_append.mpr ⟨left, right⟩

theorem smooth_of_unsigned (unsigned : Unsigned text) (depth : Nat) : Smooth depth text := by
  intro c member
  refine ⟨?_, ?_, ?_⟩ <;> rintro rfl
  · exact absurd member (unsigned _ (by decide))
  · exact absurd member (unsigned _ (by decide))
  · exact absurd member (unsigned _ (by decide))

/-- Smooth text goes to the front of the piece that follows, at whatever depth. -/
theorem splitTerms_smooth (smooth : Smooth depth text) (rest : List Char) :
    splitTerms depth (text ++ rest) = (splitTerms depth rest).map (text.foldr consPiece ·) := by
  induction text with
  | nil => simp
  | cons c text ih =>
    obtain ⟨⟨opens, closes, comma⟩, smooth⟩ := List.forall_mem_cons.mp smooth
    have inside : ¬ (c = ',' ∧ depth = 0) := fun both => comma both.1 both.2
    have step : splitTerms depth (c :: (text ++ rest)) = (splitTerms depth (text ++ rest)).map (consPiece c) := by
      rw [splitTerms.eq_def]
      simp [opens, closes, inside]
    rw [List.cons_append, step, ih smooth, Option.map_map]
    rfl

theorem foldr_consPiece (text piece : List Char) (pieces : List (List Char)) :
    text.foldr consPiece (piece :: pieces) = (text ++ piece) :: pieces := by
  induction text with
  | nil => rfl
  | cons c rest ih => rw [List.foldr_cons, ih]; rfl

/-- A piece that is left whole ends where a comma follows. -/
theorem splitTerms_comma (whole : splitTerms depth piece = some [piece]) (rest : List Char) :
    splitTerms depth (piece ++ ',' :: rest) = (splitTerms 0 rest).map (piece :: ·) := by
  induction piece generalizing depth with
  | nil =>
    rw [splitTerms] at whole
    split at whole
    next outside => rw [outside]; rfl
    next => cases whole
  | cons c piece ih =>
    obtain ⟨later, -, -, step⟩ | ⟨-, -, stray⟩ | ⟨rfl, -, step⟩ := splitTerms_step depth c
    · obtain ⟨others, further, same⟩ := Option.map_eq_some_iff.mp (step piece ▸ whole)
      have inner : splitTerms later piece = some [piece] := by
        cases others with
        | nil => exact absurd rfl (splitTerms_some further).1
        | cons first more =>
          cases same
          exact further
      rw [List.cons_append, step, ih inner, Option.map_map]
      rfl
    · cases stray piece ▸ whole
    · obtain ⟨others, _, same⟩ := Option.map_eq_some_iff.mp (step piece ▸ whole)
      cases same

/-- A piece in one, that parentheses do not leave open. -/
def Whole (piece : List Char) : Prop := splitTerms 0 piece = some [piece]

theorem splitTerms_intercalate (some : pieces ≠ []) (whole : ∀ piece ∈ pieces, Whole piece) :
    splitTerms 0 ([','].intercalate pieces) = .some pieces := by
  induction pieces with
  | nil => exact absurd rfl some
  | cons piece rest ih =>
    obtain ⟨here, later⟩ := List.forall_mem_cons.mp whole
    by_cases last : rest = []
    · rw [last, List.intercalate_singleton]
      exact here
    · rw [List.intercalate_cons_of_ne_nil last, List.append_assoc, List.singleton_append, splitTerms_comma here, ih last later]
      rfl

theorem whole_of_smooth (smooth : Smooth 0 text) : Whole text := by
  have split := splitTerms_smooth smooth []
  rwa [List.append_nil, splitTerms, if_pos rfl, Option.map_some, foldr_consPiece, List.append_nil] at split

theorem whole_of_set {before inner after : List Char} (first : Smooth 0 before) (within : Smooth 1 inner) (last : Smooth 0 after) :
    Whole (before ++ '(' :: (inner ++ ')' :: after)) := by
  have ended : splitTerms 0 after = some [after] := whole_of_smooth last
  have closing : splitTerms 1 (')' :: after) = some [')' :: after] := by
    rw [splitTerms.eq_def]
    simp [ended, consPiece]
  have opening : splitTerms 0 ('(' :: (inner ++ ')' :: after)) = some ['(' :: (inner ++ ')' :: after)] := by
    rw [splitTerms.eq_def]
    simp [splitTerms_smooth within, closing, foldr_consPiece, consPiece]
  rw [Whole, splitTerms_smooth first, opening, Option.map_some, foldr_consPiece]

end

section

variable {text : List Char} {asked : Requirement} {selector : Selector}

theorem smooth_of_blank (blank : Blank text) (depth : Nat) : Smooth depth text := smooth_of_unsigned (blank_signs blank) depth

theorem whole_of_term (padded : Padded Term text asked) : Whole text := by
  obtain ⟨leads, term, trails⟩ := padded
  have leads := smooth_of_blank leads 0
  have trails := smooth_of_blank trails 0
  cases term with
  | present name =>
    have name := smooth_of_unsigned name.unsigned 0
    exact whole_of_smooth ((leads.append name).append trails)
  | absent blank name =>
    have name := smooth_of_unsigned name.unsigned 0
    have sign : Smooth 0 ['!'] := by decide
    exact whole_of_smooth ((leads.append (sign.append ((smooth_of_blank blank 0).append name))).append trails)
  | equals name before known after value =>
    have left := (smooth_of_unsigned name.unsigned 0).append (smooth_of_blank before 0)
    have right := (smooth_of_blank after 0).append (smooth_of_unsigned value.unsigned 0)
    have signs : ∀ sign ∈ [['='], ['=', '=']], Smooth 0 sign := by decide
    exact whole_of_smooth ((leads.append ((left.append (signs _ known)).append right)).append trails)
  | notEquals name before after value =>
    have left := (smooth_of_unsigned name.unsigned 0).append (smooth_of_blank before 0)
    have right := (smooth_of_blank after 0).append (smooth_of_unsigned value.unsigned 0)
    have sign : Smooth 0 ['!', '='] := by decide
    exact whole_of_smooth ((leads.append ((left.append sign).append right)).append trails)
  | member membership name _ blank spreads _ each =>
    have operator : Smooth 0 (word membership) := by cases membership <;> decide
    have front := ((leads.append (smooth_of_unsigned name.unsigned 0)).append (smooth_of_blank blank 0)).append operator
    have opened : '(' ∉ [','].intercalate _ := joined_without (pieces_unsigned each) (by decide) (by decide)
    have closed : ')' ∉ [','].intercalate _ := joined_without (pieces_unsigned each) (by decide) (by decide)
    have inner : Smooth 1 ([','].intercalate _) := fun c member =>
      ⟨fun same => opened (same ▸ member), fun same => closed (same ▸ member), fun _ => one_ne_zero⟩
    have whole := whole_of_set (front.append (smooth_of_blank spreads 0)) inner trails
    simpa only [List.append_assoc, List.cons_append, List.nil_append] using whole

theorem wholes_of_terms {pieces : List (List Char)} (each : List.Forall₂ (Padded Term) pieces selector) : ∀ piece ∈ pieces, Whole piece := by
  induction each with
  | nil => exact List.forall_mem_nil _
  | cons padded _ ih => exact List.forall_mem_cons.mpr ⟨whole_of_term padded, ih⟩

/-- A text that is cut comes to a single word of nothing if it is white space. -/
theorem trimmed_blank {characters : List Char} {pieces : List (List Char)} (cut : splitTerms 0 characters = some pieces) :
    pieces.map trim = [[]] ↔ Blank characters := by
  constructor
  · intro nothing
    obtain ⟨piece, rfl, empty⟩ := List.map_eq_singleton_iff.mp nothing
    have joined := (splitTerms_some cut).2
    rw [List.intercalate_singleton] at joined
    exact joined ▸ trim_eq_nil.mp empty
  · intro blank
    have whole : splitTerms 0 characters = some [characters] := whole_of_smooth (smooth_of_blank blank 0)
    cases cut.symm.trans whole
    rw [List.map_singleton, trim_blank blank]

theorem terms_of_pieces {characters : List Char} {pieces : List (List Char)} (cut : splitTerms 0 characters = some pieces) :
    terms characters = .ok (if Blank characters then [] else pieces.map trim) := by
  rw [terms, cut]
  simp only [trimmed_blank cut]

theorem read_sound {text : String} (read : Selector.read text = .ok selector) : Denotes text.toList selector := by
  obtain ⟨trimmed, cut, each⟩ := bind_ok.mp read
  cases split : splitTerms 0 text.toList with
  | none =>
    rw [terms, split] at cut
    cases cut
  | some pieces =>
    obtain ⟨some, joined⟩ := splitTerms_some split
    rw [terms_of_pieces split] at cut
    cases cut
    split at each
    next blank =>
      cases each
      exact .blank blank
    next =>
      have terms := List.forall₂_map_left_iff.mp (mapM_ok_iff.mp each)
      exact joined ▸ .terms some (terms.imp fun _ _ read => readTerm_iff.mp read)

theorem read_complete {text : String} (denotes : Denotes text.toList selector) : Selector.read text = .ok selector := by
  generalize same : text.toList = characters at denotes
  cases denotes with
  | blank blank =>
    rw [Selector.read, same, terms_of_pieces (whole_of_smooth (smooth_of_blank blank 0)), if_pos blank]
    rfl
  | @terms pieces _ some each =>
    have whole := splitTerms_intercalate some (wholes_of_terms each)
    have read : (pieces.map trim).mapM readTerm = .ok selector :=
      mapM_ok_iff.mpr (List.forall₂_map_left_iff.mpr (each.imp fun _ _ padded => readTerm_iff.mpr padded))
    have words : ¬ Blank ([','].intercalate pieces) := by
      intro blank
      rw [(trimmed_blank whole).mpr blank] at read
      cases read
    rw [Selector.read, same, terms_of_pieces whole, if_neg words]
    exact read

/-- A text is read as a selector exactly when it stands for that selector; and a term has one
shape, so it asks for one thing. -/
theorem read_exactly (text : String) (selector : Selector) :
    (Selector.read text = .ok selector ↔ Denotes text.toList selector) ∧ ∀ term, {asked | Term term asked}.Subsingleton := by
  refine ⟨⟨read_sound, read_complete⟩, ?_⟩
  intro term first one second other
  have same := (readTerm_complete one).symm.trans (readTerm_complete other)
  exact Except.ok.inj same

example : Selector.read " in notin ( , a ), zone == b,! spot" = .ok [.noneOf "in" ["", "a"], .equals "zone" "b", .absent "spot"] := by
  rfl

end

end PeerPool.Proofs.SelectorGrammar
