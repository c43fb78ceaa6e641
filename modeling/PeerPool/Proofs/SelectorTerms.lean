import Mathlib.Data.List.Forall2
import PeerPool.Proofs.LabelNames

/-! The terms of selectors as a grammar, and the reader that decides it. The reader tries the
shapes in an order and cuts a term at the first operator it finds; since no key and no value has
a sign in it, the first operator is the only one, and no two shapes fit one text. -/

namespace PeerPool.Proofs.SelectorTerms
open Text Selector TextPieces LabelNames

/-- A word with white space around it, if any. -/
inductive Padded {α : Type} (reads : List Char → α → Prop) : List Char → α → Prop
  | around {before word after : List Char} {result : α} :
    Blank before → reads word result → Blank after → Padded reads (before ++ word ++ after) result

def Key (text : List Char) (key : String) : Prop := text ∈ keys ∧ text = key.toList

def Value (text : List Char) (value : String) : Prop := text ∈ values ∧ text = value.toList

/-- The operator of a term about a set. -/
def word : Membership → List Char
  | .within => ['i', 'n']
  | .outside => ['n', 'o', 't', 'i', 'n']

def requirement (key : String) (values : List String) : Membership → Requirement
  | .within => .oneOf key values
  | .outside => .noneOf key values

/-- A term, without the white space around it, and what it asks for. -/
inductive Term : List Char → Requirement → Prop
  | present {name : List Char} {key : String} : Key name key → Term name (.present key)
  | absent {gap name : List Char} {key : String} : Blank gap → Key name key → Term ('!' :: (gap ++ name)) (.absent key)
  | equals {name before sign after text : List Char} {key value : String} :
    Key name key → Blank before → sign ∈ [['='], ['=', '=']] → Blank after → Value text value →
    Term (name ++ before ++ sign ++ (after ++ text)) (.equals key value)
  | notEquals {name before after text : List Char} {key value : String} :
    Key name key → Blank before → Blank after → Value text value →
    Term (name ++ before ++ ['!', '='] ++ (after ++ text)) (.notEquals key value)
  | member {name gap spread : List Char} {key : String} {pieces : List (List Char)} {values : List String}
    (membership : Membership) : Key name key → gap ≠ [] → Blank gap → Blank spread →
    pieces ≠ [] → List.Forall₂ (Padded Value) pieces values →
    Term (name ++ gap ++ word membership ++ spread ++ '(' :: ([','].intercalate pieces ++ [')']))
      (requirement key values membership)

section

variable {α : Type} {reads : List Char → α → Prop} {before text after : List Char} {result : α}

theorem Padded.refl (known : reads text result) : Padded reads text result := by
  have around : Padded reads ([] ++ text ++ []) result := .around .nil known .nil
  rwa [List.nil_append, List.append_nil] at around

theorem Padded.more (leads : Blank before) (padded : Padded reads text result) (trails : Blank after) :
    Padded reads (before ++ text ++ after) result := by
  obtain ⟨first, known, last⟩ := padded
  have around := Padded.around (leads.append first) known (last.append trails)
  simpa only [List.append_assoc] using around

theorem Padded.of_trim (padded : Padded reads (trim text) result) : Padded reads text result := by
  obtain ⟨before, after, leads, trails, same⟩ := trim_split text
  exact same ▸ padded.more leads trails

theorem trim_around (leads : Blank before) (trails : Blank after) : trim (before ++ text ++ after) = trim text := by
  rw [trim_append_right _ trails, trim_append_left leads]

theorem padded_iff (solid : ∀ {text result}, reads text result → Solid text) :
    Padded reads text result ↔ reads (trim text) result := by
  constructor
  · rintro ⟨leads, known, trails⟩
    rwa [trim_around leads trails, trim_solid (solid known)]
  · exact fun known => (Padded.refl known).of_trim

end

section

variable {text : List Char} {key value : String}

theorem Key.solid (known : Key text key) : Solid text := (keys_plain known.1).solid

theorem Value.solid (known : Value text value) : Solid text := (values_plain known.1).solid

theorem Key.written (known : Key text key) : key.toList ∈ keys := known.2 ▸ known.1

theorem Value.written (known : Value text value) : value.toList ∈ values := known.2 ▸ known.1

theorem Key.ne_nil (known : Key text key) : text ≠ [] := keys_ne_nil known.1

theorem ofList_eq_iff : String.ofList text = value ↔ text = value.toList := by
  constructor
  · rintro rfl
    exact String.toList_ofList.symm
  · rintro rfl
    exact String.ofList_toList

theorem readKey_iff : readKey text = .ok key ↔ Key text key := by
  rw [readKey, Key, ← isKey_iff, ← ofList_eq_iff]
  split
  next known => rw [Except.ok.injEq, and_iff_right known]
  next unknown => simp [unknown]

theorem readValue_iff : readValue text = .ok value ↔ Value text value := by
  rw [readValue, Value, ← isValue_iff, ← ofList_eq_iff]
  split
  next known => rw [Except.ok.injEq, and_iff_right known]
  next unknown => simp [unknown]

theorem padded_key : Padded Key text key ↔ Key (trim text) key := padded_iff Key.solid

theorem padded_value : Padded Value text value ↔ Value (trim text) value := padded_iff Value.solid

theorem Key.before (known : Key text key) {after : List Char} (blank : Blank after) : Padded Key (text ++ after) key := by
  have around : Padded Key ([] ++ text ++ after) key := .around .nil known blank
  exact around

theorem Value.after (known : Value text value) {before : List Char} (blank : Blank before) : Padded Value (trimEnd (before ++ text)) value := by
  rw [padded_value, trim_trimEnd, trim_append_left blank, trim_solid known.solid]
  exact known

theorem readPair_iff {left right : List Char} : readPair left right = .ok (key, value) ↔ Padded Key left key ∧ Padded Value right value := by
  rw [padded_key, padded_value, ← readKey_iff, ← readValue_iff, readPair]
  cases readKey (trim left) with
  | error => simp [bind, Except.bind]
  | ok => cases readValue (trim right) <;> simp [bind, Except.bind, pure, Except.pure]

end

theorem mapM_ok_iff {α β ε : Type} {read : α → Except ε β} {given : List α} {results : List β} :
    given.mapM read = .ok results ↔ List.Forall₂ (read · = .ok ·) given results := by
  induction given generalizing results with
  | nil => cases results <;> simp [pure, Except.pure]
  | cons one rest ih =>
    rw [List.mapM_cons]
    cases first : read one with
    | error => cases results <;> simp [first, bind, Except.bind]
    | ok =>
      cases later : rest.mapM read <;> cases results <;> simp [first, later, ← ih, bind, Except.bind, pure, Except.pure]

/-! Terms about sets are told by the parenthesis they end with. -/

section

variable {term inner name gap spread : List Char} {membership : Membership}

/-- Not cut off by the parentheses of a set. -/
def Uncut (inner : List Char) : Prop := '(' ∉ inner ∧ ')' ∉ inner

theorem setValues?_iff {text : List Char} : setValues? text = some inner ↔
    ∃ spread, Blank spread ∧ Uncut inner ∧ spread ++ '(' :: (inner ++ [')']) = text := by
  constructor
  · intro found
    unfold setValues? at found
    split at found
    next rest opened =>
      split at found
      next closed =>
        split at found
        next => cases found
        next uncut =>
          cases found
          obtain ⟨spread, blank, same⟩ := trimStart_split text
          have ends : rest.dropLast ++ [')'] = rest := List.dropLast_append_getLast? _ closed
          refine ⟨spread, blank, ?_, by rw [ends, ← opened, same]⟩
          simp only [List.any_eq_true, Bool.or_eq_true, decide_eq_true_eq, not_exists, not_and] at uncut
          exact ⟨fun member => uncut _ member (.inl rfl), fun member => uncut _ member (.inr rfl)⟩
      next => cases found
    next => cases found
  · rintro ⟨spread, blank, ⟨opened, closed⟩, rfl⟩
    have uncut : (inner.any fun c => c = '(' || c = ')') = false := by
      rw [List.any_eq_false]
      intro c member found
      rcases Bool.or_eq_true_iff.mp found with found | found
      · exact opened (of_decide_eq_true found ▸ member)
      · exact closed (of_decide_eq_true found ▸ member)
    have opening : isWhiteSpace '(' = false := rfl
    rw [setValues?, trimStart_append blank, trimStart_cons opening]
    simp only [List.getLast?_concat, List.dropLast_concat, uncut]
    rfl

theorem name_parts (solid : Solid name) (some : gap ≠ []) (blank : Blank gap) (rest : List Char) :
    (name ++ (gap ++ rest)).takeWhile (!isWhiteSpace ·) = name ∧ (name ++ (gap ++ rest)).dropWhile (!isWhiteSpace ·) = gap ++ rest := by
  obtain ⟨c, more, rfl⟩ := List.exists_cons_of_ne_nil some
  have within : ∀ c ∈ name, (!isWhiteSpace c) = true := fun c member => by rw [solid c member]; rfl
  have stops : (!isWhiteSpace c) ≠ true := by rw [blank c (List.mem_cons_self ..)]; decide
  constructor
  · rw [List.takeWhile_append_of_pos within, List.cons_append, List.takeWhile_cons_of_neg (p := (!isWhiteSpace ·)) stops, List.append_nil]
  · rw [List.dropWhile_append_of_pos within, List.cons_append, List.dropWhile_cons_of_neg (p := (!isWhiteSpace ·)) stops]

/-- The parts of a term about a set, its words not looked into yet. -/
structure SetTerm (term name : List Char) (membership : Membership) (inner : List Char) : Prop where
  some : name ≠ []
  solid : Solid name
  uncut : Uncut inner
  parts : ∃ gap spread, gap ≠ [] ∧ Blank gap ∧ Blank spread ∧
    name ++ gap ++ word membership ++ spread ++ '(' :: (inner ++ [')']) = term

theorem setTerm_of_word {rest : List Char} (named : term.takeWhile (!isWhiteSpace ·) ≠ [])
    (operator : trimStart (term.dropWhile (!isWhiteSpace ·)) = word membership ++ rest) (values : setValues? rest = some inner) :
    SetTerm term (term.takeWhile (!isWhiteSpace ·)) membership inner := by
  have whole := List.takeWhile_append_dropWhile (p := (!isWhiteSpace ·)) (l := term)
  obtain ⟨gap, blank, same⟩ := trimStart_split (term.dropWhile (!isWhiteSpace ·))
  obtain ⟨spread, spreads, uncut, rfl⟩ := setValues?_iff.mp values
  rw [operator] at same
  refine ⟨named, fun c member => by simpa using List.mem_takeWhile_imp member, uncut, gap, spread, ?_, blank, spreads, ?_⟩
  · -- what follows the name is white space, and no operator begins with that
    rintro rfl
    have first := List.head?_dropWhile_not (!isWhiteSpace ·) term
    have letters : isWhiteSpace 'i' = false ∧ isWhiteSpace 'n' = false := ⟨rfl, rfl⟩
    rw [← same] at first
    cases membership <;> simp [word, letters] at first
  · simpa only [List.append_assoc] using congrArg (term.takeWhile (!isWhiteSpace ·) ++ ·) same |>.trans whole

theorem setTerm?_iff : setTerm? term = some (name, membership, inner) ↔ SetTerm term name membership inner := by
  constructor
  · intro found
    unfold setTerm? at found
    simp only at found
    split at found
    next => cases found
    next parts =>
      have named : term.takeWhile (!isWhiteSpace ·) ≠ [] := fun none => parts (by simp [none])
      split at found
      next rest operator =>
        obtain ⟨_, values, same⟩ := Option.map_eq_some_iff.mp found
        cases same
        exact setTerm_of_word named operator values
      next rest operator =>
        obtain ⟨_, values, same⟩ := Option.map_eq_some_iff.mp found
        cases same
        exact setTerm_of_word named operator values
      next => cases found
  · rintro ⟨some, solid, uncut, gap, spread, separated, blank, spreads, rfl⟩
    have values := setValues?_iff.mpr ⟨spread, spreads, uncut, rfl⟩
    have apart := name_parts solid separated blank (word membership ++ (spread ++ '(' :: (inner ++ [')'])))
    have gaps : (gap ++ (word membership ++ (spread ++ '(' :: (inner ++ [')'])))).isEmpty = false := by
      simp [separated]
    have starts : isWhiteSpace 'i' = false ∧ isWhiteSpace 'n' = false := ⟨rfl, rfl⟩
    simp only [List.append_assoc, setTerm?, apart, gaps, trimStart_append blank]
    rw [if_neg (by simp [some])]
    cases membership with
    | within => simp [word, trimStart_cons starts.1, values]
    | outside => simp [word, trimStart_cons starts.2, values]

end

/-! What is left when a term is cut at its operator. -/

/-- Without a sign of any operator or of a set. -/
def Unsigned (text : List Char) : Prop := ∀ sign ∈ signs, sign ∉ text

section

variable {left right text : List Char}

theorem Unsigned.append (first : Unsigned left) (second : Unsigned right) : Unsigned (left ++ right) := by
  intro sign member inside
  exact (List.mem_append.mp inside).elim (first sign member) (second sign member)

theorem Unsigned.trimEnd (unsigned : Unsigned text) : Unsigned (Text.trimEnd text) :=
  fun sign member inside => unsigned sign member (mem_trimEnd inside)

theorem Key.unsigned {key : String} (known : Key text key) : Unsigned text := fun _ => (keys_plain known.1).unsigned

theorem Value.unsigned {value : String} (known : Value text value) : Unsigned text := fun _ => (values_plain known.1).unsigned

theorem blank_signs (blank : Blank text) : Unsigned text := fun _ => blank_unsigned blank

theorem pieces_unsigned {pieces : List (List Char)} {values : List String} (each : List.Forall₂ (Padded Value) pieces values) :
    ∀ piece ∈ pieces, Unsigned piece := by
  induction each with
  | nil => exact List.forall_mem_nil _
  | cons padded _ ih =>
    obtain ⟨leads, value, trails⟩ := padded
    exact List.forall_mem_cons.mpr ⟨((blank_signs leads).append value.unsigned).append (blank_signs trails), ih⟩

theorem joined_without {pieces : List (List Char)} (unsigned : ∀ piece ∈ pieces, Unsigned piece) {sign : Char} (member : sign ∈ signs)
    (other : sign ≠ ',') : sign ∉ [','].intercalate pieces := by
  intro inside
  rcases mem_intercalate inside with comma | ⟨piece, one, inside⟩
  · exact other (List.mem_singleton.mp comma)
  · exact unsigned piece one sign member inside

theorem setTerm?_none (unclosed : ')' ∉ text) : setTerm? text = none := by
  cases found : setTerm? text with
  | none => rfl
  | some parts =>
    obtain ⟨_, _, _, gap, spread, _, _, _, same⟩ := setTerm?_iff.mp found
    exact absurd (same ▸ by simp) unclosed

theorem splitOnce_absent {c : Char} {others : List Char} (absent : c ∉ text) : splitOnce (c :: others) text = none :=
  splitOnce_none fun inside => absent (inside.subset (List.mem_cons_self ..))

theorem readTerm_present (named : text ≠ []) (unsigned : Unsigned text) : readTerm text = (.present ·) <$> readKey text := by
  have present : text.isEmpty = false := by simpa using named
  have unmarked (key : List Char) : text ≠ '!' :: key := fun same => unsigned '!' (by decide) (same ▸ List.mem_cons_self ..)
  rw [readTerm, present, setTerm?_none (unsigned _ (by decide)), splitOnce_absent (unsigned '!' (by decide)),
    splitOnce_absent (unsigned '=' (by decide)), splitOnce_absent (unsigned '=' (by decide))]
  · rfl
  · exact unmarked

theorem readTerm_absent (unsigned : Unsigned text) : readTerm ('!' :: text) = (.absent ·) <$> readKey (trim text) := by
  have outside {sign : Char} (member : sign ∈ signs) (other : sign ≠ '!') : sign ∉ '!' :: text :=
    List.not_mem_cons_of_ne_of_not_mem other (unsigned sign member)
  have unequal : '=' ∉ '!' :: text := outside (by decide) (by decide)
  have whole : ¬ ['!', '='] <:+: '!' :: text := fun inside => unequal (inside.subset (by decide : '=' ∈ ['!', '=']))
  unfold readTerm
  rw [setTerm?_none (outside (by decide) (by decide)), splitOnce_none whole, splitOnce_absent unequal, splitOnce_absent unequal]
  rfl

theorem readTerm_notEquals (first : Unsigned left) (second : Unsigned right) :
    readTerm (left ++ ['!', '='] ++ right) = (fun pair => .notEquals pair.1 pair.2) <$> readPair left right := by
  have present : (left ++ ['!', '='] ++ right).isEmpty = false := by simp
  have unclosed : ')' ∉ left ++ ['!', '='] ++ right := by simp [first ')' (by decide), second ')' (by decide)]
  unfold readTerm
  rw [present, setTerm?_none unclosed, splitOnce_append (first '!' (by decide))]
  rfl

/-- The longer sign is looked for first, so it is not taken for the shorter one; and the shorter
one alone is not the longer one. -/
theorem splitOnce_equals (first : '=' ∉ left) (second : '=' ∉ right) {sign : List Char} (known : sign ∈ [['='], ['=', '=']]) :
    (splitOnce ['=', '='] (left ++ sign ++ right)).or (splitOnce ['='] (left ++ sign ++ right)) = some (left, right) := by
  rcases List.mem_cons.mp known with rfl | longer
  · have once : (left ++ ['='] ++ right).count '=' = 1 := by
      rw [List.count_append, List.count_append, List.count_eq_zero_of_not_mem first, List.count_eq_zero_of_not_mem second]
      rfl
    have single : ¬ ['=', '='] <:+: left ++ ['='] ++ right := fun inside => absurd (once ▸ inside.sublist.count_le '=') (by decide)
    rw [splitOnce_none single, splitOnce_append first, Option.none_or]
  · rw [List.mem_singleton.mp longer, splitOnce_append first, Option.some_or]

theorem readTerm_equals (first : Unsigned left) (second : Unsigned right) {sign : List Char} (known : sign ∈ [['='], ['=', '=']]) :
    readTerm (left ++ sign ++ right) = (fun pair => .equals pair.1 pair.2) <$> readPair left right := by
  have only : ∀ sign ∈ [['='], ['=', '=']], sign ≠ [] ∧ '!' ∉ sign ∧ ')' ∉ sign := by decide
  obtain ⟨some, unmarked, unclosed⟩ := only sign known
  have present : (left ++ sign ++ right).isEmpty = false := by simp [some]
  have unclosed : ')' ∉ left ++ sign ++ right := by simp [first ')' (by decide), second ')' (by decide), unclosed]
  have positive : '!' ∉ left ++ sign ++ right := by simp [first '!' (by decide), second '!' (by decide), unmarked]
  unfold readTerm
  rw [present, setTerm?_none unclosed, splitOnce_absent positive, splitOnce_equals (first '=' (by decide)) (second '=' (by decide)) known]
  rfl

theorem readTerm_member {name inner : List Char} {membership : Membership} (parts : SetTerm text name membership inner) :
    readTerm text = do
      let key ← readKey name
      let values ← (separate ',' inner).mapM fun value => readValue (trim value)
      return requirement key values membership := by
  have present : text.isEmpty = false := by
    obtain ⟨gap, spread, _, _, _, rfl⟩ := parts.parts
    simp
  unfold readTerm
  rw [present, setTerm?_iff.mpr parts]
  cases membership <;> rfl

end

/-! Each way of reading a term takes it for one of the shapes, and each shape is read that way. -/

section

variable {text : List Char} {asked : Requirement}

theorem bind_ok {α β ε : Type} {first : Except ε α} {next : α → Except ε β} {result : β} :
    (do next (← first)) = .ok result ↔ ∃ value, first = .ok value ∧ next value = .ok result := by
  cases first <;> simp [bind, Except.bind]

theorem readTerm_sound (read : readTerm text = .ok asked) : Padded Term text asked := by
  cases found : setTerm? text with
  | some parts =>
    have set := setTerm?_iff.mp found
    rw [readTerm_member set] at read
    obtain ⟨key, named, read⟩ := bind_ok.mp read
    obtain ⟨values, listed, same⟩ := bind_ok.mp read
    cases same
    obtain ⟨gap, spread, some, blank, spreads, rfl⟩ := set.parts
    have each : List.Forall₂ (Padded Value) (separate ',' parts.2.2) values :=
      (mapM_ok_iff.mp listed).imp fun _ _ read => padded_value.mpr (readValue_iff.mp read)
    have term := Term.member parts.2.1 (readKey_iff.mp named) some blank spreads (separate_ne_nil ',' _) each
    rw [intercalate_separate] at term
    exact .refl term
  | none =>
    unfold readTerm at read
    simp only [found] at read
    split at read
    next => cases read
    next =>
    split at read
    next left right cut =>
      obtain ⟨⟨key, value⟩, pair, same⟩ := bind_ok.mp read
      cases same
      rw [← splitOnce_some cut]
      obtain ⟨⟨leads, name, before⟩, after, spelled, trails⟩ := readPair_iff.mp pair
      have padded := Padded.around leads (Term.notEquals name before after spelled) trails
      simpa only [List.append_assoc] using padded
    next =>
    split at read
    next left right cut =>
      obtain ⟨⟨key, value⟩, pair, same⟩ := bind_ok.mp read
      cases same
      obtain ⟨sign, known, parts⟩ : ∃ sign, sign ∈ [['='], ['=', '=']] ∧ left ++ sign ++ right = text := by
        rcases Option.or_eq_some_iff.mp cut with longer | ⟨_, shorter⟩
        · exact ⟨['=', '='], by decide, splitOnce_some longer⟩
        · exact ⟨['='], by decide, splitOnce_some shorter⟩
      obtain ⟨⟨leads, name, before⟩, after, spelled, trails⟩ := readPair_iff.mp pair
      have padded := Padded.around leads (Term.equals name before known after spelled) trails
      rw [← parts]
      simpa only [List.append_assoc] using padded
    next =>
    split at read
    next rest =>
      obtain ⟨key, named, same⟩ := bind_ok.mp read
      cases same
      obtain ⟨leads, name, trails⟩ := padded_key.mpr (readKey_iff.mp named)
      have padded := Padded.around .nil (Term.absent leads name) trails
      simpa only [List.append_assoc, List.nil_append, List.cons_append] using padded
    next =>
      obtain ⟨key, named, same⟩ := bind_ok.mp read
      cases same
      exact .refl (.present (readKey_iff.mp named))

theorem readTerm_complete (term : Term text asked) : readTerm (trim text) = .ok asked := by
  cases term with
  | present name =>
    rw [trim_solid name.solid, readTerm_present name.ne_nil name.unsigned, readKey_iff.mpr name]
    rfl
  | @absent gap name key blank known =>
    have kept : trim ('!' :: (gap ++ name)) = '!' :: (gap ++ name) :=
      trim_ends (List.cons_ne_nil '!' []) (by decide) gap known.ne_nil known.solid
    rw [kept, readTerm_absent ((blank_signs blank).append known.unsigned), trim_append_left blank, trim_solid known.solid,
      readKey_iff.mpr known]
    rfl
  | equals name before known after value =>
    have solid : ∀ sign ∈ [['='], ['=', '=']], sign ≠ [] ∧ Solid sign := by decide
    rw [trim_between name.ne_nil name.solid _ (solid _ known).1 (solid _ known).2,
      readTerm_equals (name.unsigned.append (blank_signs before)) ((blank_signs after).append value.unsigned).trimEnd known,
      readPair_iff.mpr ⟨name.before before, value.after after⟩]
    rfl
  | notEquals name before after value =>
    rw [trim_between name.ne_nil name.solid _ (List.cons_ne_nil '!' ['=']) (by decide),
      readTerm_notEquals (name.unsigned.append (blank_signs before)) ((blank_signs after).append value.unsigned).trimEnd,
      readPair_iff.mpr ⟨name.before before, value.after after⟩]
    rfl
  | @member name gap spread key pieces values membership known some blank spreads listed each =>
    have unsigned := pieces_unsigned each
    have uncut : Uncut ([','].intercalate pieces) :=
      ⟨joined_without unsigned (by decide) (by decide), joined_without unsigned (by decide) (by decide)⟩
    have set : SetTerm _ name membership _ := ⟨known.ne_nil, known.solid, uncut, gap, spread, some, blank, spreads, rfl⟩
    have kept := trim_ends known.ne_nil known.solid (gap ++ word membership ++ spread ++ '(' :: [','].intercalate pieces)
      (List.cons_ne_nil ')' []) (by decide)
    have values : (pieces.mapM fun value => readValue (trim value)) = .ok values :=
      mapM_ok_iff.mpr (each.imp fun _ _ padded => readValue_iff.mpr (padded_value.mp padded))
    simp only [List.append_assoc, List.cons_append] at kept set ⊢
    rw [kept, readTerm_member set, readKey_iff.mpr known, separate_intercalate listed fun piece one => unsigned piece one ',' (by decide)]
    simp [values, bind, Except.bind, pure, Except.pure]

theorem readTerm_iff : readTerm (trim text) = .ok asked ↔ Padded Term text asked := by
  constructor
  · exact fun read => (readTerm_sound read).of_trim
  · rintro ⟨leads, term, trails⟩
    rw [trim_around leads trails]
    exact readTerm_complete term

end

end PeerPool.Proofs.SelectorTerms
