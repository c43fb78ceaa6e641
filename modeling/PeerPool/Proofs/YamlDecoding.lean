import PeerPool.Config.Encode
import PeerPool.Proofs.Distinct
import PeerPool.Proofs.Numerals
import PeerPool.Proofs.YamlPlain
import PeerPool.Yaml.Decode

/-! Decoders undo encoders. A written tree has no aliases, so what is read off it depends
neither on the document around it nor on how many aliases may be followed. -/

namespace PeerPool.Proofs.YamlDecoding
open Distinct Yaml YamlCharacters Numerals

/-- The decoder reads this value, in whatever document. -/
def Decodes {α : Type} (decoder : Decoder α) (value : α) : Prop :=
  ∀ reading budget, decoder reading budget = some (value, budget)

section

variable {α β γ : Type}

theorem Decodes.pure (value : α) : Decodes (Pure.pure value) value := fun _ _ => rfl

theorem Decodes.bind {decoder : Decoder α} {next : α → Decoder β} {value : α} {result : β} (first : Decodes decoder value)
    (later : Decodes (next value) result) : Decodes (decoder >>= next) result := by
  intro reading budget
  change (decoder reading budget).bind (fun found => next found.1 reading found.2) = _
  rw [first, Option.bind_some, later]

theorem Decodes.ofOption {found : Option α} {value : α} (present : found = some value) :
    Decodes (Decoder.ofOption found) value := by
  intro reading budget
  rw [Decoder.ofOption, present]
  rfl

theorem Decodes.mapM {decode : α → Decoder β} {encode : γ → α} {result : γ → β} {values : List γ}
    (each : ∀ value ∈ values, Decodes (decode (encode value)) (result value)) :
    Decodes ((values.map encode).mapM decode) (values.map result) := by
  induction values with
  | nil => exact .pure []
  | cons value values ih =>
    rw [List.map_cons, List.mapM_cons]
    refine (each value (by simp)).bind ((ih ?_).bind (.pure _))
    exact fun other member => each other (List.mem_cons_of_mem _ member)

end

theorem decodes_text (text : String) : Decodes (Decoder.text (Block.text text).toNode) text := fun _ _ => rfl

theorem decodes_word (type word : String) : Decodes (Decoder.word type (Block.word word).toNode) word := fun _ _ => rfl

theorem natural?_word (value : Nat) : natural? (String.ofList (Text.decimal value)) = some value := by
  obtain ⟨c, rest, spelled, zero⟩ := decimal_leading value
  have read := natural?_decimal value
  have plus : c ≠ '+' := by
    obtain ⟨digit, small, rfl⟩ := mem_toDigits (by decide) (show c ∈ Text.decimal value by simp [spelled])
    have unsigned : ∀ digit < 10, digit.digitChar ≠ '+' := by decide
    exact unsigned digit small
  rw [natural?, String.toList_ofList]
  rw [spelled] at read ⊢
  have unsigned : unsigned? (c :: rest) = some value := by
    by_cases none : value = 0
    · subst none
      cases spelled
      decide
    · have leads : c ≠ '0' := fun same => none (zero same)
      unfold unsigned?
      split <;> simp_all
  split
  next same =>
    cases same
    exact absurd rfl plus
  next => exact unsigned

theorem decodes_natural {value bound : Nat} (small : value < bound) :
    Decodes (Decoder.natural bound (encodeNat value).toNode) value := by
  refine (decodes_word "int" _).bind (.ofOption ?_)
  rw [natural?_word, Option.filter_some, if_pos (by simpa using small)]

theorem decodes_bool (value : Bool) : Decodes (Decoder.bool (encodeBool value).toNode) value := by
  refine (decodes_word "bool" _).bind (.ofOption ?_)
  cases value <;> decide

theorem plain_unambiguous {text : String} (plain : Style.ofText text = .plain) : isAmbiguous text = false := by
  unfold Style.ofText at plain
  simp only at plain
  split at plain
  next => split at plain <;> cases plain
  next =>
    split at plain
    next clear => simpa using (Bool.and_eq_true_iff.mp clear).1
    next => split at plain <;> cases plain

/-- A scalar that is written for a text is never taken for nothing. -/
theorem saysNothing?_text (text : String) : Decoder.saysNothing? ⟨.ofText text, none, text⟩ = some false := by
  by_cases plain : Style.ofText text = .plain
  · have clear := plain_unambiguous plain
    simp only [isAmbiguous, Bool.or_eq_false_iff] at clear
    simp [Decoder.saysNothing?, plain, clear]
  · simp [Decoder.saysNothing?, plain]

theorem decodes_optional {α : Type} {decode : Node Nat → Decoder α} {scalar : Scalar} {value : α}
    (claims : Decoder.saysNothing? scalar = some false) (decodes : Decodes (decode (.scalar none scalar)) value) :
    Decodes (Decoder.optional decode (.scalar none scalar)) (some value) := by
  refine (Decodes.pure (Node.scalar none scalar)).bind ((Decodes.ofOption claims).bind ?_)
  exact decodes.bind (.pure _)

theorem toNodes_map {α : Type} (encode : α → Block) (values : List α) :
    (Block.toNodes (values.map encode) : List (Node Nat)) = values.map fun value => (encode value).toNode := by
  induction values with
  | nil => rfl
  | cons value values ih => rw [List.map_cons, Block.toNodes, ih, List.map_cons]

theorem decodes_list {α : Type} {decode : Node Nat → Decoder α} {encode : α → Block} {values : List α}
    (each : ∀ value ∈ values, Decodes (decode (encode value).toNode) value) :
    Decodes (Decoder.list decode (Block.list (values.map encode)).toNode) values := by
  have items : Decodes (Decoder.items (Block.list (values.map encode)).toNode)
      (values.map fun value => (encode value).toNode) := by
    rw [Block.toNode, toNodes_map]
    exact fun _ _ => rfl
  have mapped : Decodes ((values.map fun value => (encode value).toNode).mapM decode) (values.map id) := .mapM each
  rw [List.map_id] at mapped
  exact items.bind mapped

theorem toEntries_map {α : Type} (encode : α → Block) (entries : List (String × α)) :
    (Block.toEntries (entries.map fun (name, value) => (name, encode value)) : List (Node Nat × Node Nat)) =
      entries.map fun (name, value) => ((Block.text name).toNode, (encode value).toNode) := by
  induction entries with
  | nil => rfl
  | cons entry entries ih =>
    rw [List.map_cons, Block.toEntries, ih]
    rfl

theorem decodes_dict (entries : List (String × String)) :
    Decodes (Decoder.dict Decoder.text (Block.record (entries.map fun (name, value) => (name, .text value))).toNode)
      entries := by
  have found : Decodes (Decoder.entries (Block.record (entries.map fun (name, value) => (name, .text value))).toNode)
      (entries.map fun (name, value) => ((Block.text name).toNode, (Block.text value).toNode)) := by
    rw [Block.toNode, toEntries_map]
    exact fun _ _ => rfl
  have mapped : Decodes ((entries.map fun (name, value) => ((Block.text name).toNode, (Block.text value).toNode)).mapM
      fun entry => do return (← Decoder.text entry.1, ← Decoder.text entry.2)) (entries.map id) :=
    .mapM fun entry _ => (decodes_text entry.1).bind ((decodes_text entry.2).bind (.pure _))
  rw [List.map_id] at mapped
  exact found.bind mapped

/-- What is there of the entries of a record, as it is read back. -/
def present (entries : List (String × Option Block)) : List (String × Node Nat) :=
  entries.filterMap fun (name, value) => value.map fun block => (name, block.toNode)

theorem toEntries_present (entries : List (String × Option Block)) :
    (Block.toEntries (entries.filterMap fun (name, value) => value.map (name, ·)) : List (Node Nat × Node Nat)) =
      (present entries).map fun (name, node) => ((Block.text name).toNode, node) := by
  induction entries with
  | nil => rfl
  | cons entry entries ih =>
    obtain ⟨name, _ | block⟩ := entry
    · simpa [present] using ih
    · simpa [present, Block.toEntries, Block.toNode] using ih

theorem present_names (entries : List (String × Option Block)) :
    ((present entries).map Prod.fst).Sublist (entries.map Prod.fst) := by
  induction entries with
  | nil => exact .slnil
  | cons entry entries ih =>
    obtain ⟨name, _ | block⟩ := entry
    · exact ih.cons name
    · exact ih.cons_cons name

theorem decodes_fields {entries : List (String × Option Block)} {known : List String}
    (names : entries.map Prod.fst = known) (distinct : known.Nodup) :
    Decodes (Decoder.fields known (presentEntries entries).toNode) (present entries) := by
  have found : Decodes (Decoder.entries (presentEntries entries).toNode)
      ((present entries).map fun (name, node) => ((Block.text name).toNode, node)) := by
    rw [presentEntries, Block.toNode, toEntries_present]
    exact fun _ _ => rfl
  have mapped : Decodes (((present entries).map fun (name, node) => ((Block.text name).toNode, node)).mapM
      fun entry => do return (← Decoder.text entry.1, entry.2)) ((present entries).map id) :=
    .mapM fun entry _ => (decodes_text entry.1).bind (.pure _)
  rw [List.map_id] at mapped
  have sublist := names ▸ present_names entries
  have allowed : ((present entries).map Prod.fst).all known.contains = true := by
    apply List.all_eq_true.mpr
    exact fun name member => by simpa using sublist.subset member
  have once := eraseDups_eq (distinct.sublist sublist)
  refine found.bind (mapped.bind ?_)
  simp only [allowed, once]
  exact .pure _

theorem lookup_none_of_not_mem {α : Type} {entries : List (String × α)} {name : String}
    (absent : name ∉ entries.map Prod.fst) : entries.lookup name = none := by
  apply List.lookup_eq_none_iff.mpr
  intro entry member
  have differs : name ≠ entry.1 := fun same => absent (same ▸ List.mem_map_of_mem member)
  simpa using differs

theorem lookup_present {entries : List (String × Option Block)} (distinct : (entries.map Prod.fst).Nodup) (name : String) :
    (present entries).lookup name = (entries.lookup name).join.map Block.toNode := by
  induction entries with
  | nil => rfl
  | cons entry entries ih =>
    obtain ⟨first, value⟩ := entry
    obtain ⟨fresh, distinct⟩ := List.nodup_cons.mp distinct
    have later := ih distinct
    by_cases same : name = first
    · subst same
      cases value with
      | none =>
        have absent := lookup_none_of_not_mem fun member => fresh ((present_names entries).subset member)
        simpa [present] using absent
      | some block => simp [present]
    · have differs : (name == first) = false := beq_eq_false_iff_ne.mpr same
      cases value <;> simpa [present, List.lookup_cons, differs] using later

section

variable {entries : List (String × Option Block)} {name : String} {α : Type} {decode : Node Nat → Decoder α}

theorem decodes_required {block : Block} {value : α} (distinct : (entries.map Prod.fst).Nodup)
    (given : entries.lookup name = some (some block)) (decodes : Decodes (decode block.toNode) value) :
    Decodes (Decoder.required (present entries) name decode) value := by
  rw [Decoder.required, lookup_present distinct, given]
  exact decodes

theorem decodes_defaulted {default value : α} {block? : Option Block} (distinct : (entries.map Prod.fst).Nodup)
    (given : entries.lookup name = some block?) (absent : block? = none → value = default)
    (decodes : ∀ block ∈ block?, Decodes (decode block.toNode) value) :
    Decodes (Decoder.defaulted (present entries) name default decode) value := by
  rw [Decoder.defaulted, lookup_present distinct, given]
  cases block? with
  | none =>
    rw [absent rfl]
    exact .pure default
  | some block => exact decodes block rfl

theorem decodes_stated {block : Block} {default value : α} (distinct : (entries.map Prod.fst).Nodup)
    (given : entries.lookup name = some (some block)) (decodes : Decodes (decode block.toNode) value) :
    Decodes (Decoder.defaulted (present entries) name default decode) value := by
  refine decodes_defaulted distinct given nofun ?_
  rintro _ ⟨⟩
  exact decodes

/-- A field that is left out when there is no value. -/
theorem decodes_given {encode : α → Block} {value? : Option α} (distinct : (entries.map Prod.fst).Nodup)
    (given : entries.lookup name = some (value?.map encode))
    (decodes : ∀ value ∈ value?, Decodes (Decoder.optional decode (encode value).toNode) (some value)) :
    Decodes (Decoder.defaulted (present entries) name none (Decoder.optional decode)) value? := by
  refine decodes_defaulted distinct given (by simp) ?_
  intro block member
  obtain ⟨value, found, rfl⟩ := Option.map_eq_some_iff.mp member
  rw [found]
  exact decodes value found

/-- A list that is left out when it is empty. -/
theorem decodes_some {encode : α → Block} {values : List α} (distinct : (entries.map Prod.fst).Nodup)
    (given : entries.lookup name = some (encodeSome encode values))
    (decodes : ∀ value ∈ values, Decodes (decode (encode value).toNode) value) :
    Decodes (Decoder.defaulted (present entries) name [] (Decoder.list decode)) values := by
  refine decodes_defaulted distinct given ?_ ?_
  · cases values <;> simp [encodeSome]
  · intro block member
    unfold encodeSome at member
    split at member
    · cases member
    · cases member
      exact decodes_list decodes

theorem decodes_bindings {dict : Dict String} (distinct : (entries.map Prod.fst).Nodup)
    (given : entries.lookup name = some (encodeDict dict)) :
    Decodes (Decoder.defaulted (present entries) name [] (Decoder.dict Decoder.text)) dict.entries := by
  refine decodes_defaulted distinct given ?_ ?_
  · cases spelled : dict.entries <;> simp [encodeDict, Dict.isEmpty, spelled]
  · intro block member
    unfold encodeDict at member
    split at member
    · cases member
    · cases member
      exact decodes_dict dict.entries

end

end PeerPool.Proofs.YamlDecoding
