import PeerPool.Proofs.YamlBlock
import PeerPool.Yaml.Document

/-! The tokens of a block parse into the tree of the block, and a record that is written
as a document reads back as that tree. -/

namespace PeerPool.Proofs.YamlTree
open Yaml Block YamlBlock

/-- What may follow a node: behind a key no further item, because that one would belong to
the node's own. -/
def Follows (place : Place) (rest : List Token) : Prop := place = .key → Node.startsItem rest = false

theorem entryTokens_follows (place : Place) (entries : List (String × Block)) (rest : List Token) :
    Follows place (entryTokens entries ++ .blockEnd :: rest) := by
  intro
  cases entries with
  | nil => rfl
  | cons entry entries => rfl

/-- A node's own tokens are never taken for a node that is left out. -/
theorem nodeTokens_present (place : Place) (node : Block) (rest : List Token) :
    Node.endsBlock (nodeTokens place node ++ rest) = false ∧
    (place = .mark → (Node.startsItem (nodeTokens place node ++ rest) ||
      decide ((nodeTokens place node ++ rest).head? = some .blockEnd)) = false) := by
  cases node with
  | word value => simp [nodeTokens, Node.endsBlock, Node.startsItem]
  | text value => simp [nodeTokens, Node.endsBlock, Node.startsItem]
  | list items =>
    cases place <;> cases items <;> simp [nodeTokens, itemTokens, Node.endsBlock, Node.startsItem]
  | record entries =>
    cases place <;> cases entries <;> simp [nodeTokens, Node.endsBlock, Node.startsItem]

theorem itemTokens_starts {items : List Block} (some : items.isEmpty = false) : ∃ more, itemTokens items = .item :: more := by
  cases items with
  | nil => cases some
  | cons item items => exact ⟨_, rfl⟩

mutual

theorem parse_node (handles : TagHandles) {fuel : Nat} (dashes : Bool) (place : Place) (node : Block) (rest : List Token)
    (dashed : place = .key → dashes = true) (follows : Follows place rest)
    (enough : 2 * (nodeTokens place node).length + 2 ≤ fuel) :
    Node.parse handles fuel true dashes (nodeTokens place node ++ rest) = some (node.toNode, rest) := by
  obtain ⟨fuel, rfl⟩ : ∃ left, fuel = left + 1 := ⟨fuel - 1, by omega⟩
  cases node with
  | word value => rfl
  | text value => rfl
  | list items =>
    cases empty : items.isEmpty with
    | true =>
      rw [List.isEmpty_iff.mp empty]
      cases place <;> rfl
    | false =>
      cases place with
      | key =>
        have inner : nodeTokens .key (.list items) = itemTokens items := by simp [nodeTokens, empty]
        rw [inner] at enough ⊢
        have parsed := parse_flat handles items rest (follows rfl) (show 2 * (itemTokens items).length + 1 ≤ fuel by omega)
        obtain ⟨more, starts⟩ := itemTokens_starts empty
        rw [starts, List.cons_append] at parsed ⊢
        simp [Node.parse, Node.properties, dashed rfl, Node.startsItem, parsed, toNode]
      | mark =>
        have inner : nodeTokens .mark (.list items) = .blockSequenceStart :: itemTokens items ++ [.blockEnd] := by
          simp [nodeTokens, empty]
        rw [inner] at enough ⊢
        simp only [List.length_append, List.length_cons, List.length_nil] at enough
        have parsed := parse_items handles items rest (show 2 * (itemTokens items).length + 1 ≤ fuel by omega)
        simp [Node.parse, Node.properties, parsed, toNode]
  | record entries =>
    cases empty : entries.isEmpty with
    | true =>
      rw [List.isEmpty_iff.mp empty]
      cases place <;> rfl
    | false =>
      have inner : nodeTokens place (.record entries) = .blockMappingStart :: entryTokens entries ++ [.blockEnd] := by
        cases place <;> simp [nodeTokens, empty]
      rw [inner] at enough ⊢
      simp only [List.length_append, List.length_cons, List.length_nil] at enough
      have parsed := parse_entries handles entries rest (show 2 * (entryTokens entries).length + 1 ≤ fuel by omega)
      simp [Node.parse, Node.properties, parsed, toNode]

theorem parse_flat (handles : TagHandles) {fuel : Nat} (items : List Block) (rest : List Token)
    (ends : Node.startsItem rest = false) (enough : 2 * (itemTokens items).length + 1 ≤ fuel) :
    Node.flatItems handles fuel (itemTokens items ++ rest) = some (toNodes items, rest) := by
  obtain ⟨fuel, rfl⟩ : ∃ left, fuel = left + 1 := ⟨fuel - 1, by omega⟩
  cases items with
  | nil =>
    cases rest with
    | nil => rfl
    | cons token rest => cases token <;> first | rfl | cases ends
  | cons item items =>
    rw [itemTokens, List.cons_append, List.length_cons, List.length_append] at enough
    have first := parse_node handles false .mark item (itemTokens items ++ rest) nofun nofun
      (show 2 * (nodeTokens .mark item).length + 2 ≤ fuel by omega)
    have later := parse_flat handles items rest ends (show 2 * (itemTokens items).length + 1 ≤ fuel by omega)
    obtain ⟨notBlock, notItem⟩ := nodeTokens_present .mark item (itemTokens items ++ rest)
    have present := (Bool.or_eq_false_iff.mp (notItem rfl)).1
    simp [itemTokens, Node.flatItems, notBlock, present, first, later, toNodes]

theorem parse_items (handles : TagHandles) {fuel : Nat} (items : List Block) (rest : List Token)
    (enough : 2 * (itemTokens items).length + 1 ≤ fuel) :
    Node.blockItems handles fuel (itemTokens items ++ .blockEnd :: rest) = some (toNodes items, rest) := by
  obtain ⟨fuel, rfl⟩ : ∃ left, fuel = left + 1 := ⟨fuel - 1, by omega⟩
  cases items with
  | nil => rfl
  | cons item items =>
    rw [itemTokens, List.cons_append, List.length_cons, List.length_append] at enough
    have present := (nodeTokens_present .mark item (itemTokens items ++ .blockEnd :: rest)).2 rfl
    have first := parse_node handles false .mark item (itemTokens items ++ .blockEnd :: rest) nofun nofun
      (show 2 * (nodeTokens .mark item).length + 2 ≤ fuel by omega)
    have later := parse_items handles items rest (show 2 * (itemTokens items).length + 1 ≤ fuel by omega)
    rw [itemTokens, toNodes, List.cons_append, List.cons_append, List.append_assoc, Node.blockItems, present,
      if_neg Bool.false_ne_true, first]
    simp only [Option.bind_eq_bind, Option.bind_some, later, Option.pure_def]

theorem parse_entries (handles : TagHandles) {fuel : Nat} (entries : List (String × Block)) (rest : List Token)
    (enough : 2 * (entryTokens entries).length + 1 ≤ fuel) :
    Node.blockEntries handles fuel (entryTokens entries ++ .blockEnd :: rest) = some (toEntries entries, rest) := by
  obtain ⟨fuel, rfl⟩ : ∃ left, fuel = left + 1 := ⟨fuel - 1, by omega⟩
  cases entries with
  | nil => rfl
  | cons entry entries =>
    obtain ⟨key, value⟩ := entry
    simp only [entryTokens, List.cons_append, List.length_cons, List.length_append] at enough
    obtain ⟨fuel, rfl⟩ : ∃ left, fuel = left + 1 := ⟨fuel - 1, by omega⟩
    generalize place_eq : (if isSimpleKey key then Place.key else .mark) = place at enough
    have present := (nodeTokens_present place value (entryTokens entries ++ .blockEnd :: rest)).1
    have first := parse_node handles true place value (entryTokens entries ++ .blockEnd :: rest) (fun _ => rfl)
      (entryTokens_follows place entries rest) (show 2 * (nodeTokens place value).length + 2 ≤ fuel by omega)
    have later := parse_entries handles entries rest (show 2 * (entryTokens entries).length + 1 ≤ fuel + 1 by omega)
    have keyed : Node.parse handles (fuel + 1) true true (.scalar (.ofText key) key :: .value ::
        (nodeTokens place value ++ (entryTokens entries ++ .blockEnd :: rest))) =
      some (.scalar none ⟨.ofText key, none, key⟩,
        .value :: (nodeTokens place value ++ (entryTokens entries ++ .blockEnd :: rest))) := rfl
    have valued : Node.blockValue handles (fuel + 1) (.value ::
        (nodeTokens place value ++ (entryTokens entries ++ .blockEnd :: rest))) =
      some (value.toNode, entryTokens entries ++ .blockEnd :: rest) := by
      rw [Node.blockValue, present]
      exact first
    have spelled : entryTokens ((key, value) :: entries) ++ .blockEnd :: rest = .key :: .scalar (.ofText key) key ::
        .value :: (nodeTokens place value ++ (entryTokens entries ++ .blockEnd :: rest)) := by
      simp [entryTokens, place_eq]
    rw [spelled, toEntries, Node.blockEntries, if_neg (by simp [Node.endsBlock]), keyed]
    simp only [Option.bind_eq_bind, Option.bind_some, valued, later, Option.pure_def]

end

mutual

/-- A tree without anchors and aliases is the same by name and by number. -/
theorem number_toNode (names : AnchorNames) (node : Block) :
    Node.number names node.toNode = some (node.toNode, names) := by
  cases node with
  | word value => rfl
  | text value => rfl
  | list items => simp [toNode, Node.number, AnchorNames.bind?, numberItems_toNodes names items]
  | record entries => simp [toNode, Node.number, AnchorNames.bind?, numberEntries_toEntries names entries]

theorem numberItems_toNodes (names : AnchorNames) (items : List Block) :
    Node.numberItems names (toNodes items) = some (toNodes items, names) := by
  cases items with
  | nil => rfl
  | cons item items =>
    simp [toNodes, Node.numberItems, number_toNode names item, numberItems_toNodes names items]

theorem numberEntries_toEntries (names : AnchorNames) (entries : List (String × Block)) :
    Node.numberEntries names (toEntries entries) = some (toEntries entries, names) := by
  cases entries with
  | nil => rfl
  | cons entry entries =>
    obtain ⟨key, value⟩ := entry
    simp [toEntries, Node.numberEntries, Node.number, AnchorNames.bind?, number_toNode names value,
      numberEntries_toEntries names entries]

end

theorem tree_record (entries : List (String × Block)) :
    Document.tree (nodeTokens .mark (.record entries)) = some (Block.record entries).toNode := by
  have parsed := parse_node defaultHandles false .mark (.record entries) [] nofun nofun
    (show _ ≤ 4 * (nodeTokens .mark (.record entries)).length + 4 by omega)
  rw [List.append_nil] at parsed
  have starts : ∃ start rest, nodeTokens .mark (.record entries) = start :: rest ∧
      (start = .flowMappingStart ∨ start = .blockMappingStart) := by
    cases entries with
    | nil => exact ⟨_, _, rfl, .inl rfl⟩
    | cons entry entries => exact ⟨_, _, rfl, .inr rfl⟩
  obtain ⟨start, rest, spelled, rfl | rfl⟩ := starts
  · rw [spelled, List.length_cons] at parsed
    rw [spelled]
    simp [Document.tree, Document.directives, parsed, Document.isOver]
  · rw [spelled, List.length_cons] at parsed
    rw [spelled]
    simp [Document.tree, Document.directives, parsed, Document.isOver]

/-- A written record reads back as its tree. -/
theorem read?_write (entries : List (String × Block)) (fits : EntriesFit entries) :
    Document.read? (Block.record entries).write = some ⟨some (Block.record entries).toNode⟩ := by
  have more : nodeTokens .mark (.record entries) ≠ [] := by
    cases entries <;> simp [nodeTokens]
  simp [Document.read?, scan_record entries fits, more, tree_record, number_toNode]

end PeerPool.Proofs.YamlTree
