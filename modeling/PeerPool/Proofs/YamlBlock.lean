import PeerPool.Proofs.YamlScalars

/-! What a block is written as scans into the tokens of the block: one for each text and
mark, with the starts and ends of collections that only the indentation shows. -/

namespace PeerPool.Proofs.YamlBlock
open Yaml Block YamlCharacters YamlLines YamlLexer YamlPlain YamlSingle YamlDouble YamlLiteral YamlScalars

mutual

/-- The tokens of a node behind a key or mark. Items behind a key stand as far left as it
does, so nothing shows their start or end. -/
def nodeTokens (place : Place) : Block → List Token
  | .word value => [.scalar .plain value]
  | .text value => [.scalar (.ofText value) value]
  | .list items =>
    if items.isEmpty then [.flowSequenceStart, .flowSequenceEnd]
    else
      match place with
      | .key => itemTokens items
      | .mark => .blockSequenceStart :: itemTokens items ++ [.blockEnd]
  | .record entries =>
    if entries.isEmpty then [.flowMappingStart, .flowMappingEnd]
    else .blockMappingStart :: entryTokens entries ++ [.blockEnd]

def itemTokens : List Block → List Token
  | [] => []
  | item :: rest => .item :: nodeTokens .mark item ++ itemTokens rest

def entryTokens : List (String × Block) → List Token
  | [] => []
  | (key, value) :: rest =>
    .key :: .scalar (.ofText key) key :: .value ::
      nodeTokens (if isSimpleKey key then .key else .mark) value ++ entryTokens rest

end

mutual

/-- The words of the block can be written as they are. -/
def WordsFit : Block → Prop
  | .word value => fitsPlain value.toList = true
  | .text _ => True
  | .list items => ItemsFit items
  | .record entries => EntriesFit entries

def ItemsFit : List Block → Prop
  | [] => True
  | item :: rest => WordsFit item ∧ ItemsFit rest

def EntriesFit : List (String × Block) → Prop
  | [] => True
  | (_, value) :: rest => WordsFit value ∧ EntriesFit rest

end

theorem endLine_begins {text : List Char} (begins : Begins text) : Begins (endLine text) := by
  unfold endLine
  split
  · exact begins
  · exact begins.append _

theorem writeItems_begins {items : List Block} (some : items.isEmpty = false) (column : Nat) :
    Begins (writeItems column items) := by
  cases items with
  | nil => cases some
  | cons item rest => exact .token Marks.item.startsToken

theorem writeEntries_begins {entries : List (String × Block)} (some : entries.isEmpty = false) (column : Nat) :
    Begins (writeEntries column entries) := by
  cases entries with
  | nil => cases some
  | cons entry rest =>
    rw [writeEntries]
    split
    · exact ((writeText_begins _ _).append _).append _
    · exact .token Marks.key.startsToken

theorem writeAt_atGap (place : Place) (indent : Nat) (node : Block) (tail : List Char) :
    atGap (writeAt place indent node ++ tail) = true := by
  cases node with
  | word value => rfl
  | text value => rfl
  | list items =>
    cases place <;>
    · rw [writeAt]
      split <;> rfl
  | record entries =>
    cases place <;>
    · rw [writeAt]
      split <;> rfl

/-- A key that is no simple one stands behind a mark of its own, on a line of its own. -/
theorem run_marked_key {column : Nat} {stack outer : List Nat} {tokens begun : List Token} {lexer : Lexer} {key : String}
    {rest : List Char} (opens : Opens column .blockMappingStart stack tokens outer begun) (ends : atGap rest = true)
    (settled : settle lexer = some (ready column true stack tokens
      ('?' :: ' ' :: (endLine (writeText (column + 2) key) ++ (spaces column ++ ':' :: rest))))) :
    lexer.run =
      (ready (column + 1) true (column :: outer) (.value :: .scalar (.ofText key) key :: .key :: begun) rest).run := by
  have colon : Begins (':' :: rest) := .token Marks.value.startsToken
  have text := (endLine_begins (writeText_begins (column + 2) key)).append (spaces column ++ ':' :: rest)
  have asked := run_mark .key opens rfl settled
  obtain ⟨asking, keyed, scanned⟩ := run_text (Nat.lt_add_of_pos_right (Nat.succ_pos 1)) (colon.outdented column)
    (settle_spaces text (column + 1) 1 true (by simp; omega) _)
  have answered := run_mark .value (.already outer _) ends (keyed.trans (settle_line colon column outer _))
  exact asked.trans (scanned.trans answered)

mutual

theorem run_node {indent last : Nat} {keyAllowed : Bool} {stack : List Nat} {tokens : List Token} {tail : List Char}
    (place : Place) (right : indent < last) (free : place = .mark → last = indent + 1 ∧ keyAllowed = true)
    (below : Outdented indent tail) (node : Block) (fits : WordsFit node) :
    ∃ after, Stands after (indent :: stack) ((nodeTokens place node).reverse ++ tokens) tail ∧
      (ready last keyAllowed (indent :: stack) tokens (writeAt place indent node ++ tail)).run = after.run := by
  have settled {text : List Char} (begins : Begins text) :
      settle (ready last keyAllowed (indent :: stack) tokens (' ' :: text)) =
        some (ready (last + 1) keyAllowed (indent :: stack) tokens text) :=
    settle_spaces begins last 1 keyAllowed (by simp; omega) tokens
  have optional : (indent :: stack).head? ≠ some (last + 1) := by
    simp only [List.head?_cons, ne_eq, Option.some.injEq]
    omega
  -- Only items behind a key stand as far left as the key does. Everything else that takes
  -- lines of its own is indented, so its end shows where the text stands further left again.
  cases node with
  | word value =>
    rw [WordsFit] at fits
    obtain ⟨c, rest, opens⟩ := fitsPlain_cons fits
    have begins : Begins value.toList := by
      rw [opens] at fits ⊢
      exact .token (startsToken fits)
    obtain ⟨after, stands, runs⟩ := run_plain (Nat.lt_succ_of_lt right) below fits (settled (begins.append ('\n' :: tail)))
    refine ⟨after, ?_, ?_⟩
    · simpa [nodeTokens] using stands
    · simpa [writeAt] using runs
  | text value =>
    have begins := endLine_begins (writeText_begins (indent + 2) value)
    obtain ⟨after, stands, runs⟩ := run_text (Nat.lt_succ_of_lt right) below (settled (begins.append tail))
    refine ⟨after, ?_, ?_⟩
    · simpa [nodeTokens] using stands
    · simpa [writeAt] using runs
  | list items =>
    rw [WordsFit] at fits
    cases empty : items.isEmpty with
    | true =>
      obtain ⟨after, stands, runs⟩ := run_brackets .sequence optional below
        (settled (.token Brackets.sequence.startsToken.1))
      refine ⟨after, ?_, ?_⟩
      · cases place <;> simpa [nodeTokens, empty] using stands
      · cases place <;> simpa [writeAt, empty] using runs
    | false =>
      cases place with
      | key =>
        have begins := (writeItems_begins empty indent).append tail
        obtain ⟨after, stands, runs⟩ := run_items (.already stack tokens) below items fits empty
          (settle_next_line begins last indent keyAllowed (by simp) tokens)
        refine ⟨after, ?_, ?_⟩
        · simpa [nodeTokens, empty] using stands
        · simpa [writeAt, empty] using runs
      | mark =>
        obtain ⟨rfl, rfl⟩ := free rfl
        have begins := (writeItems_begins empty (indent + 2)).append tail
        have outside : indent < indent + 2 := by omega
        obtain ⟨after, stands, runs⟩ := run_items (.anew (by simp) tokens) (below.weaken (Nat.le_of_lt outside)) items fits
          empty (settled begins)
        refine ⟨after, ?_, ?_⟩
        · simpa [nodeTokens, empty] using stands.close outside below
        · simpa [writeAt, empty] using runs
  | record entries =>
    rw [WordsFit] at fits
    have outside : indent < indent + 2 := by omega
    cases empty : entries.isEmpty with
    | true =>
      obtain ⟨after, stands, runs⟩ := run_brackets .mapping optional below
        (settled (.token Brackets.mapping.startsToken.1))
      refine ⟨after, ?_, ?_⟩
      · cases place <;> simpa [nodeTokens, empty] using stands
      · cases place <;> simpa [writeAt, empty] using runs
    | false =>
      have begins := (writeEntries_begins empty (indent + 2)).append tail
      have within : ∀ head ∈ (indent :: stack).head?, head < indent + 2 := by simp
      cases place with
      | key =>
        obtain ⟨after, stands, runs⟩ := run_entries (.anew within tokens) (below.weaken (Nat.le_of_lt outside)) entries
          fits empty (settle_next_line begins last (indent + 2) keyAllowed (fun head first => Nat.le_of_lt (within head first)) tokens)
        refine ⟨after, ?_, ?_⟩
        · simpa [nodeTokens, empty] using stands.close outside below
        · simpa [writeAt, empty] using runs
      | mark =>
        obtain ⟨rfl, rfl⟩ := free rfl
        obtain ⟨after, stands, runs⟩ := run_entries (.anew within tokens) (below.weaken (Nat.le_of_lt outside)) entries
          fits empty (settled begins)
        refine ⟨after, ?_, ?_⟩
        · simpa [nodeTokens, empty] using stands.close outside below
        · simpa [writeAt, empty] using runs

theorem run_items {column : Nat} {stack outer : List Nat} {tokens begun : List Token} {lexer : Lexer} {tail : List Char}
    (opens : Opens column .blockSequenceStart stack tokens outer begun) (below : Outdented column tail)
    (items : List Block) (fits : ItemsFit items) (some : items.isEmpty = false)
    (settled : settle lexer = Option.some (ready column true stack tokens (writeItems column items ++ tail))) :
    ∃ after, Stands after (column :: outer) ((itemTokens items).reverse ++ begun) tail ∧ lexer.run = after.run := by
  cases items with
  | nil => cases some
  | cons item rest =>
    rw [ItemsFit] at fits
    rw [writeItems, List.cons_append, List.cons_append, List.append_assoc] at settled
    have marked := run_mark .item opens (writeAt_atGap _ _ _ _) settled
    cases last : rest.isEmpty with
    | true =>
      obtain ⟨after, stands, runs⟩ := run_node .mark (Nat.lt_succ_self column) (fun _ => ⟨rfl, rfl⟩) below item fits.1
      rw [List.isEmpty_iff.mp last] at marked ⊢
      refine ⟨after, ?_, marked.trans runs⟩
      simpa [itemTokens] using stands
    | false =>
      have begins := (writeItems_begins last column).append tail
      obtain ⟨after, stands, runs⟩ := run_node .mark (Nat.lt_succ_self column) (fun _ => ⟨rfl, rfl⟩)
        (begins.outdented column) item fits.1
      obtain ⟨final, ends, finishes⟩ := run_items (.already outer _) below rest fits.2 last
        (stands.trans (settle_line begins column outer _))
      refine ⟨final, ?_, ?_⟩
      · simpa [itemTokens] using ends
      · rw [← finishes, ← runs, marked]
        simp [last]

theorem run_entries {column : Nat} {stack outer : List Nat} {tokens begun : List Token} {lexer : Lexer} {tail : List Char}
    (opens : Opens column .blockMappingStart stack tokens outer begun) (below : Outdented column tail)
    (entries : List (String × Block)) (fits : EntriesFit entries) (some : entries.isEmpty = false)
    (settled : settle lexer = Option.some (ready column true stack tokens (writeEntries column entries ++ tail))) :
    ∃ after, Stands after (column :: outer) ((entryTokens entries).reverse ++ begun) tail ∧ lexer.run = after.run := by
  cases entries with
  | nil => cases some
  | cons entry rest =>
    obtain ⟨key, value⟩ := entry
    rw [EntriesFit] at fits
    rw [writeEntries, List.append_assoc] at settled
    have further : ∃ follow, follow = (if rest.isEmpty then [] else spaces column ++ writeEntries column rest) ++ tail ∧
        Outdented column follow := by
      refine ⟨_, rfl, ?_⟩
      cases last : rest.isEmpty with
      | true => exact below
      | false => simpa using ((writeEntries_begins last column).append tail).outdented column
    obtain ⟨follow, follow_eq, beneath⟩ := further
    rw [← follow_eq] at settled
    -- The key, in either of its forms, and its value
    have first : ∃ after, Stands after (column :: outer)
        ((nodeTokens (if isSimpleKey key then .key else .mark) value).reverse ++
          .value :: .scalar (.ofText key) key :: .key :: begun) follow ∧ lexer.run = after.run := by
      cases simple : isSimpleKey key with
      | true =>
        simp only [simple, if_true, List.append_assoc, List.cons_append] at settled
        obtain ⟨last, right, held⟩ := run_key simple (writeAt_atGap _ _ _ _) (Nat.succ_pos _) opens settled
        obtain ⟨after, stands, runs⟩ := run_node .key right nofun beneath value fits.1
        exact ⟨after, stands, held.trans runs⟩
      | false =>
        simp only [simple, Bool.false_eq_true, if_false, List.append_assoc, List.cons_append, List.nil_append] at settled
        have keyed := run_marked_key opens (writeAt_atGap _ _ _ _) settled
        obtain ⟨after, stands, runs⟩ := run_node .mark (Nat.lt_succ_self column) (fun _ => ⟨rfl, rfl⟩) beneath value fits.1
        exact ⟨after, stands, keyed.trans runs⟩
    obtain ⟨after, stands, runs⟩ := first
    cases last : rest.isEmpty with
    | true =>
      rw [last, if_pos rfl, List.nil_append] at follow_eq
      rw [follow_eq] at stands
      rw [List.isEmpty_iff.mp last]
      refine ⟨after, ?_, runs⟩
      simpa [entryTokens] using stands
    | false =>
      have begins := (writeEntries_begins last column).append tail
      rw [last, if_neg Bool.false_ne_true, List.append_assoc] at follow_eq
      rw [follow_eq] at stands
      obtain ⟨final, ends, finishes⟩ := run_entries (.already outer _) below rest fits.2 last
        (stands.trans (settle_line begins column outer _))
      refine ⟨final, ?_, runs.trans finishes⟩
      simpa [entryTokens] using ends

end

theorem writeText_printable (indent : Nat) (text : String) : Printable (writeText indent text) := by
  have written := written indent text
  generalize Style.ofText text = style, writeText indent text = body at written
  cases written with
  | plain fits => exact fun c member => (fitsPlain_line fits c member).1
  | single fits line =>
    simp only [fitsSingle, Bool.and_eq_true, List.all_eq_true] at fits
    exact .cons (by decide) (writeSingleFrom_printable _ _ fits.1.1)
  | literal fits lines =>
    simp only [fitsLiteral, Bool.and_eq_true, List.all_eq_true] at fits
    exact (literalHeader_printable _).append (writeLiteralFrom_printable _ _ fits.1.1)
  | double =>
    refine .cons (by decide) (.append ?_ (.cons (by decide) .nil))
    intro c member
    obtain ⟨d, -, escaped⟩ := List.mem_flatMap.mp member
    exact escape_printable d c escaped

theorem endLine_printable {text : List Char} (printable : Printable text) : Printable (endLine text) := by
  unfold endLine
  split
  · exact printable
  · exact printable.append (.cons (by decide) .nil)

mutual

theorem writeAt_printable (place : Place) (indent : Nat) (node : Block) (fits : WordsFit node) :
    Printable (writeAt place indent node) := by
  have newline : Printable ['\n'] := .cons (by decide) .nil
  cases node with
  | word value =>
    rw [WordsFit] at fits
    exact (Printable.cons (by decide) fun c member => (fitsPlain_line fits c member).1).append newline
  | text value => exact .cons (by decide) (endLine_printable (writeText_printable _ _))
  | list items =>
    rw [WordsFit] at fits
    cases place <;>
    · rw [writeAt]
      split
      · exact .cons (by decide) (.cons (by decide) (.cons (by decide) newline))
      · first
          | exact .cons (by decide) ((Printable.spaces _).append (writeItems_printable _ items fits))
          | exact .cons (by decide) (writeItems_printable _ items fits)
  | record entries =>
    rw [WordsFit] at fits
    cases place <;>
    · rw [writeAt]
      split
      · exact .cons (by decide) (.cons (by decide) (.cons (by decide) newline))
      · first
          | exact .cons (by decide) ((Printable.spaces _).append (writeEntries_printable _ entries fits))
          | exact .cons (by decide) (writeEntries_printable _ entries fits)

theorem writeItems_printable (column : Nat) (items : List Block) (fits : ItemsFit items) :
    Printable (writeItems column items) := by
  cases items with
  | nil => exact .nil
  | cons item rest =>
    rw [ItemsFit] at fits
    rw [writeItems]
    refine (Printable.cons (by decide) (writeAt_printable _ _ item fits.1)).append ?_
    split
    · exact .nil
    · exact (Printable.spaces _).append (writeItems_printable _ rest fits.2)

theorem writeEntries_printable (column : Nat) (entries : List (String × Block)) (fits : EntriesFit entries) :
    Printable (writeEntries column entries) := by
  cases entries with
  | nil => exact .nil
  | cons entry rest =>
    obtain ⟨key, value⟩ := entry
    rw [EntriesFit] at fits
    have text := writeText_printable (column + 2) key
    rw [writeEntries]
    refine Printable.append ?_ ?_
    · split
      · exact text.append (.cons (by decide) (writeAt_printable _ _ value fits.1))
      · exact (((Printable.cons (by decide) (.cons (by decide) .nil)).append (endLine_printable text)).append
          (.spaces _)).append (.cons (by decide) (writeAt_printable _ _ value fits.1))
    · split
      · exact .nil
      · exact (Printable.spaces _).append (writeEntries_printable _ rest fits.2)

end

theorem scan_printable {text : List Char} (printable : Printable text) :
    Token.scan text = (atLine [] [] text).run := by
  have whole : text.all isReadable = true := List.all_eq_true.mpr fun c member => readable (printable c member)
  rw [Token.scan, if_pos whole, unifyBreaks_eq printable]
  rfl

theorem toList_write (entries : List (String × Block)) : (Block.record entries).write.toList =
    if entries.isEmpty then ['\x7b', '\x7d', '\n'] else writeEntries 0 entries := by
  rw [write]
  split
  · rfl
  · exact String.toList_ofList

/-- A document that holds a record is printable, and it begins with a token. -/
theorem write_opens {entries : List (String × Block)} (fits : EntriesFit entries) :
    Printable (Block.record entries).write.toList ∧ Begins (Block.record entries).write.toList := by
  rw [toList_write]
  cases empty : entries.isEmpty with
  | true => exact ⟨by simp [Printable]; decide, .token Brackets.mapping.startsToken.1⟩
  | false => exact ⟨writeEntries_printable 0 entries fits, writeEntries_begins empty 0⟩

/-- The written form of a record, as a document of its own, scans into its tokens. -/
theorem scan_record (entries : List (String × Block)) (fits : EntriesFit entries) :
    Token.scan (Block.record entries).write.toList = some (nodeTokens .mark (.record entries)) := by
  obtain ⟨printable, begins⟩ := write_opens fits
  have settled := settle_start begins
  rw [scan_printable printable]
  rw [toList_write] at settled ⊢
  cases empty : entries.isEmpty with
  | true =>
    simp only [empty, if_true] at settled ⊢
    obtain ⟨after, stands, runs⟩ := run_brackets .mapping (by simp) (.ended : Outdented 0 []) settled
    rw [runs, stands.run]
    simp [nodeTokens, empty]
  | false =>
    simp only [empty, Bool.false_eq_true, if_false] at settled ⊢
    rw [← List.append_nil (writeEntries 0 entries)] at settled ⊢
    obtain ⟨after, stands, runs⟩ := run_entries (.anew (by simp) []) .ended entries fits empty settled
    rw [runs, stands.run]
    simp [nodeTokens, empty]

end PeerPool.Proofs.YamlBlock
