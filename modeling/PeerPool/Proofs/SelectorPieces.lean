import PeerPool.Proofs.SelectorGrammar

/-! Where a selector's text is cut. The reader goes through the text once and knows no more of what is behind it than
the depth it is at. It gives up where it closes what is not open, and where it ends inside parentheses; and it cuts at
every comma before which as many parentheses are closed as opened. So what it does is told by counting parentheses in
the text and in its beginnings, and a text can be cut like that in one way only. -/

namespace PeerPool.Proofs.SelectorPieces
open Text Selector TextPieces SelectorTerms SelectorGrammar

/-- Behind `depth` open parentheses, the text closes one that is not open, or does not end at depth zero. -/
def Unbalanced (depth : Nat) (text : List Char) : Prop :=
  (∃ before, before <+: text ∧ depth + before.count '(' < before.count ')') ∨ depth + text.count '(' ≠ text.count ')'

instance (depth : Nat) (text : List Char) : Decidable (Unbalanced depth text) :=
  decidable_of_iff
    ((∃ before ∈ text.inits, depth + before.count '(' < before.count ')') ∨ depth + text.count '(' ≠ text.count ')')
    (by simp only [Unbalanced, List.mem_inits])

/-- A piece that begins behind `depth` open parentheses: it ends at depth zero, and has no comma there. -/
structure Piece (depth : Nat) (piece : List Char) : Prop where
  closed : depth + piece.count '(' = piece.count ')'
  uncut : ∀ before, before ++ [','] <+: piece → depth + before.count '(' ≠ before.count ')'

/-- The pieces of a text between its commas at depth zero. -/
structure Cut (text : List Char) (pieces : List (List Char)) : Prop where
  some : pieces ≠ []
  joined : [','].intercalate pieces = text
  each : ∀ piece ∈ pieces, Piece 0 piece

section

variable {depth later : Nat} {c : Char} {text piece : List Char} {pieces others : List (List Char)}

theorem count_cons (mark c : Char) (text : List Char) : (c :: text).count mark = [c].count mark + text.count mark := by
  rw [← List.count_append, List.singleton_append]

/-- A text is balanced if what follows its first character is, at the depth that this leads to. -/
theorem unbalanced_cons (step : later + [c].count ')' = depth + [c].count '(') :
    Unbalanced depth (c :: text) ↔ Unbalanced later text := by
  have opened := count_cons '(' c
  have closed := count_cons ')' c
  have whole := opened text
  have ends := closed text
  constructor
  · rintro (⟨before, begins, stray⟩ | uneven)
    · rcases List.prefix_cons_iff.mp begins with rfl | ⟨rest, rfl, goes⟩
      · simp at stray
      · have here := opened rest
        have there := closed rest
        exact .inl ⟨rest, goes, by omega⟩
    · exact .inr (by omega)
  · rintro (⟨before, begins, stray⟩ | uneven)
    · have here := opened before
      have there := closed before
      exact .inl ⟨c :: before, List.cons_prefix_cons.mpr ⟨rfl, begins⟩, by omega⟩
    · exact .inr (by omega)

/-- The reader gives up on the texts that are not balanced, and on no others. -/
theorem splitTerms_eq_none : splitTerms depth text = none ↔ Unbalanced depth text := by
  induction text generalizing depth with
  | nil => simp [splitTerms, Unbalanced]
  | cons c rest ih =>
    obtain ⟨later, step, -, goes⟩ | ⟨rfl, rfl, stray⟩ | ⟨rfl, rfl, goes⟩ := splitTerms_step depth c
    · rw [goes, Option.map_eq_none_iff, ih, unbalanced_cons step]
    · have closes : Unbalanced 0 (')' :: rest) := .inl ⟨[')'], ⟨rest, rfl⟩, by decide⟩
      simp [stray, closes]
    · have step : 0 + [','].count ')' = 0 + [','].count '(' := rfl
      rw [goes, Option.map_eq_none_iff, ih, unbalanced_cons step]

theorem Piece.nil : Piece 0 [] := by
  constructor
  · rfl
  · intro before begins
    simp at begins

theorem Piece.cons (step : later + [c].count ')' = depth + [c].count '(') (inside : c = ',' → depth ≠ 0) (rest : Piece later piece) :
    Piece depth (c :: piece) := by
  obtain ⟨closed, uncut⟩ := rest
  have opens := count_cons '(' c
  have closes := count_cons ')' c
  constructor
  · have here := opens piece
    have there := closes piece
    omega
  · intro before begins
    cases before with
    | nil =>
      obtain ⟨comma, -⟩ := List.cons_prefix_cons.mp begins
      simpa using inside comma.symm
    | cons first before =>
      obtain ⟨rfl, goes⟩ := List.cons_prefix_cons.mp begins
      have apart := uncut before goes
      have here := opens before
      have there := closes before
      omega

/-- The first piece goes on from the depth that the reader is at, and the others begin outside all parentheses. -/
theorem splitTerms_pieces (found : splitTerms depth text = some (piece :: pieces)) :
    Piece depth piece ∧ ∀ other ∈ pieces, Piece 0 other := by
  induction text generalizing depth piece pieces with
  | nil =>
    rw [splitTerms] at found
    split at found
    next outside =>
      cases found
      exact ⟨outside ▸ .nil, List.forall_mem_nil _⟩
    next => cases found
  | cons c rest ih =>
    obtain ⟨later, step, inside, goes⟩ | ⟨-, -, stray⟩ | ⟨-, rfl, goes⟩ := splitTerms_step depth c
    · obtain ⟨further, cut, same⟩ := Option.map_eq_some_iff.mp (goes rest ▸ found)
      obtain ⟨first, more, rfl⟩ := List.exists_cons_of_ne_nil (splitTerms_some cut).1
      cases same
      obtain ⟨ends, pieces⟩ := ih cut
      exact ⟨ends.cons step inside, pieces⟩
    · cases stray rest ▸ found
    · obtain ⟨further, cut, same⟩ := Option.map_eq_some_iff.mp (goes rest ▸ found)
      obtain ⟨first, more, rfl⟩ := List.exists_cons_of_ne_nil (splitTerms_some cut).1
      cases same
      obtain ⟨ends, pieces⟩ := ih cut
      exact ⟨.nil, List.forall_mem_cons.mpr ⟨ends, pieces⟩⟩

theorem splitTerms_cut (found : splitTerms 0 text = some pieces) : Cut text pieces := by
  obtain ⟨some, joined⟩ := splitTerms_some found
  obtain ⟨first, more, rfl⟩ := List.exists_cons_of_ne_nil some
  obtain ⟨ends, pieces⟩ := splitTerms_pieces found
  exact ⟨some, joined, List.forall_mem_cons.mpr ⟨ends, pieces⟩⟩

/-- No piece goes on over the end of another: the comma there is at depth zero. -/
theorem Piece.stops {longer : List Char} (long : Piece 0 longer) (short : Piece 0 piece) : ¬ piece ++ [','] <+: longer :=
  fun begins => long.uncut piece begins short.closed

/-- Two pieces end together where each is followed by a comma. -/
theorem Piece.meets {first second rest after : List Char} (one : Piece 0 first) (other : Piece 0 second)
    (same : first ++ ',' :: rest = second ++ ',' :: after) : first = second ∧ rest = after := by
  rcases List.append_eq_append_iff.mp same with ⟨more, rfl, follows⟩ | ⟨more, rfl, follows⟩
  · cases more with
    | nil => simpa using follows
    | cons c more =>
      obtain ⟨rfl, -⟩ := List.cons.inj follows
      exact absurd ⟨more, by simp⟩ (other.stops one)
  · cases more with
    | nil => simpa using follows.symm
    | cons c more =>
      obtain ⟨rfl, -⟩ := List.cons.inj follows
      exact absurd ⟨more, by simp⟩ (one.stops other)

/-- The first piece is all of the text, or a comma and the text of the other pieces follow it. -/
theorem Cut.split (cut : Cut text (piece :: pieces)) :
    Piece 0 piece ∧ (pieces = [] ∧ piece = text ∨ ∃ rest, piece ++ ',' :: rest = text ∧ Cut rest pieces) := by
  obtain ⟨-, joined, each⟩ := cut
  obtain ⟨first, each⟩ := List.forall_mem_cons.mp each
  refine ⟨first, ?_⟩
  by_cases last : pieces = []
  · subst last
    rw [List.intercalate_singleton] at joined
    exact .inl ⟨rfl, joined⟩
  · rw [List.intercalate_cons_of_ne_nil last, List.append_assoc, List.singleton_append] at joined
    exact .inr ⟨_, joined, last, rfl, each⟩

theorem Cut.unique (one : Cut text pieces) (other : Cut text others) : others = pieces := by
  induction pieces generalizing text others with
  | nil => exact absurd rfl one.some
  | cons piece pieces ih =>
    obtain ⟨first, others, rfl⟩ := List.exists_cons_of_ne_nil other.some
    obtain ⟨own, ends⟩ := one.split
    obtain ⟨their, stops⟩ := other.split
    rcases ends with ⟨rfl, whole⟩ | ⟨rest, split, further⟩ <;> rcases stops with ⟨rfl, all⟩ | ⟨after, cut, later⟩
    · rw [whole, all]
    · have begins : first ++ [','] <+: piece := ⟨after, by simpa [whole] using cut⟩
      exact absurd begins (own.stops their)
    · have begins : piece ++ [','] <+: first := ⟨rest, by simpa [all] using split⟩
      exact absurd begins (their.stops own)
    · obtain ⟨rfl, rfl⟩ := own.meets their (split.trans cut.symm)
      rw [ih further later]

end

/-! What is wrong with a term is never that its parentheses do not balance. -/

section

variable {α β : Type}

/-- If there is a fault, it is in a term. -/
def OfTerm (result : Except SelectorError α) : Prop := result ≠ .error .unbalancedParentheses

theorem OfTerm.pure (value : α) : OfTerm (Pure.pure value) := nofun

theorem OfTerm.bind {first : Except SelectorError α} {next : α → Except SelectorError β} (here : OfTerm first)
    (later : ∀ value, OfTerm (next value)) : OfTerm (first >>= next) := by
  cases first with
  | ok value => exact later value
  | error error =>
    intro same
    apply here
    cases same
    rfl

theorem ofTerm_mapM {read : α → Except SelectorError β} (each : ∀ one, OfTerm (read one)) (given : List α) : OfTerm (given.mapM read) := by
  induction given with
  | nil => exact .pure []
  | cons one rest ih =>
    rw [List.mapM_cons]
    apply (each one).bind
    intro value
    apply ih.bind
    intro values
    exact .pure _

theorem ofTerm_readKey (text : List Char) : OfTerm (readKey text) := by
  unfold readKey
  split
  · exact .pure _
  · nofun

theorem ofTerm_readValue (text : List Char) : OfTerm (readValue text) := by
  unfold readValue
  split
  · exact .pure _
  · nofun

theorem ofTerm_readPair (key value : List Char) : OfTerm (readPair key value) := by
  apply (ofTerm_readKey _).bind
  intro key
  apply (ofTerm_readValue _).bind
  intro value
  exact .pure _

theorem ofTerm_readTerm (term : List Char) : OfTerm (readTerm term) := by
  cases nothing : term.isEmpty with
  | true =>
    rw [List.isEmpty_iff.mp nothing]
    nofun
  | false =>
  unfold readTerm
  simp only [nothing, Bool.false_eq_true, if_false]
  split
  next key membership values found =>
    apply (ofTerm_readKey _).bind
    intro key
    apply (ofTerm_mapM (fun value => ofTerm_readValue (trim value)) _).bind
    intro values
    cases membership <;> exact .pure _
  next =>
  split
  next left right cut =>
    apply (ofTerm_readPair left right).bind
    intro pair
    exact .pure _
  next =>
  split
  next left right cut =>
    apply (ofTerm_readPair left right).bind
    intro pair
    exact .pure _
  next =>
  split
  next key =>
    apply (ofTerm_readKey _).bind
    intro key
    exact .pure _
  next key =>
    apply (ofTerm_readKey _).bind
    intro key
    exact .pure _

/-- A selector's text is refused for its parentheses before any term is looked at. -/
theorem read_unbalanced (text : String) :
    Selector.read text = .error .unbalancedParentheses ↔ terms text.toList = .error .unbalancedParentheses := by
  unfold Selector.read
  cases terms text.toList with
  | error error => simp [bind, Except.bind]
  | ok pieces =>
    have kept : OfTerm (pieces.mapM readTerm) := ofTerm_mapM ofTerm_readTerm pieces
    exact iff_of_false kept nofun

end

/-- A text is refused for its parentheses exactly when they do not balance, whatever else is wrong with it. Otherwise it can be
cut at its commas at depth zero, in one way, and its terms are what is left of the pieces without the white space around them;
a text of white space alone has none. -/
theorem cut_outside_parentheses (text : String) :
    (terms text.toList = .error .unbalancedParentheses ↔ Unbalanced 0 text.toList) ∧
    (Selector.read text = .error .unbalancedParentheses ↔ Unbalanced 0 text.toList) ∧
    (¬ Unbalanced 0 text.toList → ∃ pieces, (∀ others, Cut text.toList others ↔ others = pieces) ∧
      terms text.toList = .ok (if Blank text.toList then [] else pieces.map trim)) := by
  have refused : terms text.toList = .error .unbalancedParentheses ↔ Unbalanced 0 text.toList := by
    rw [← splitTerms_eq_none]
    cases cut : splitTerms 0 text.toList with
    | none => simp [terms, cut]
    | some pieces => simp [terms_of_pieces cut]
  refine ⟨refused, (read_unbalanced text).trans refused, ?_⟩
  intro balanced
  obtain ⟨pieces, found⟩ := Option.ne_none_iff_exists'.mp (mt splitTerms_eq_none.mp balanced)
  have cut := splitTerms_cut found
  refine ⟨pieces, fun others => ⟨cut.unique, ?_⟩, terms_of_pieces found⟩
  rintro rfl
  exact cut

theorem cut_outside_parentheses_set :
    ¬ Unbalanced 0 "zone in (a,b) , !spot".toList ∧
    ∃ pieces, (∀ others, Cut "zone in (a,b) , !spot".toList others ↔ others = pieces) ∧
      pieces.map trim = ["zone in (a,b)".toList, "!spot".toList] := by
  have balanced : ¬ Unbalanced 0 "zone in (a,b) , !spot".toList := by decide
  have found : terms "zone in (a,b) , !spot".toList = .ok ["zone in (a,b)".toList, "!spot".toList] := by decide
  obtain ⟨-, -, cuts⟩ := cut_outside_parentheses "zone in (a,b) , !spot"
  obtain ⟨pieces, only, same⟩ := cuts balanced
  rw [found, if_neg (by decide)] at same
  exact ⟨balanced, pieces, only, (Except.ok.inj same).symm⟩

end PeerPool.Proofs.SelectorPieces
