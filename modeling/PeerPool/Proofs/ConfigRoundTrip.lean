import PeerPool.Config.Decode
import PeerPool.Proofs.PassDocument
import PeerPool.Proofs.YamlDecoding
import PeerPool.Proofs.YamlEncoding
import PeerPool.Proofs.YamlTree
import PeerPool.Simulation.Memory

/-! A configuration that is written reads back as itself, whatever its texts hold, and so
does one that is saved in a cluster and loaded from there. -/

namespace PeerPool.Proofs.ConfigRoundTrip
open Yaml YamlCharacters YamlLines YamlBlock YamlDecoding YamlEncoding YamlTree Numerals PassLogic PassDocument Simulation

theorem insertEntry_last {α : Type} {name : String} (value : α) {entries : List (String × α)}
    (least : ∀ entry ∈ entries, entry.1 < name) : Dict.insertEntry name value entries = entries ++ [(name, value)] := by
  induction entries with
  | nil => rfl
  | cons entry entries ih =>
    obtain ⟨other, kept⟩ := entry
    have below : other < name := least (other, kept) (by simp)
    have above : ¬ name < other := fun reverse => String.lt_irrefl name (String.lt_trans reverse below)
    have differs : name ≠ other := by
      rintro rfl
      exact above below
    rw [Dict.insertEntry, if_neg above, if_neg differs, ih fun entry member => least entry (List.mem_cons_of_mem _ member)]
    rfl

theorem foldl_insert {α : Type} (entries : List (String × α)) (dict : Dict α)
    (sorted : (dict.entries ++ entries).Pairwise fun first second => first.1 < second.1) :
    (entries.foldl (fun dict entry => dict.insert entry.1 entry.2) dict).entries = dict.entries ++ entries := by
  induction entries generalizing dict with
  | nil => simp
  | cons entry entries ih =>
    have least : ∀ other ∈ dict.entries, other.1 < entry.1 := fun other member =>
      (List.pairwise_append.mp sorted).2.2 other member entry (by simp)
    have inserted : (dict.insert entry.1 entry.2).entries = dict.entries ++ [entry] := insertEntry_last entry.2 least
    rw [List.foldl_cons, ih _ (by rw [inserted, List.append_assoc]; exact sorted), inserted, List.append_assoc]
    rfl

theorem dict_eq {α : Type} {left right : Dict α} (same : left.entries = right.entries) : left = right := by
  cases left
  cases right
  cases same
  rfl

/-- A map is what its entries make up. -/
theorem ofList_entries {α : Type} (dict : Dict α) : Dict.ofList dict.entries = dict :=
  dict_eq (foldl_insert dict.entries Dict.empty dict.sorted)

theorem decodes_optional_text (text : String) :
    Decodes (Decoder.optional Decoder.text (Block.text text).toNode) (some text) :=
  decodes_optional (saysNothing?_text text) (decodes_text text)

theorem decodes_optional_natural {value bound : Nat} (small : value < bound) :
    Decodes (Decoder.optional (Decoder.natural bound) (encodeNat value).toNode) (some value) := by
  refine decodes_optional ?_ (decodes_natural small)
  have null : isNull (String.ofList (Text.decimal value)) = false := by
    obtain ⟨c, rest, spelled, -⟩ := decimal_leading value
    obtain ⟨digit, below, rfl⟩ := mem_toDigits (by decide) (show c ∈ Text.decimal value by simp [spelled])
    apply Bool.eq_false_iff.mpr
    intro null
    simp only [isNull, List.contains_cons, List.contains_nil, Bool.or_false, Bool.or_eq_true, beq_iff_eq,
      ← String.toList_inj, String.toList_ofList, spelled] at null
    have letter : ∀ digit < 10, digit.digitChar ≠ 'n' ∧ digit.digitChar ≠ 'N' ∧ digit.digitChar ≠ '~' := by decide
    obtain ⟨small, capital, tilde⟩ := letter digit below
    rcases null with null | null | null | null <;> injection null <;> contradiction
  have some : (String.ofList (Text.decimal value)).isEmpty = false := by simp [Text.decimal]
  simp [Decoder.saysNothing?, some, null]

theorem decodes_optional_bool (value : Bool) :
    Decodes (Decoder.optional Decoder.bool (encodeBool value).toNode) (some value) := by
  refine decodes_optional ?_ (decodes_bool value)
  cases value <;> decide

theorem decodes_expression (expression : MatchExpression) :
    Decodes (MatchExpression.decode expression.encode.toNode) expression := by
  have distinct : MatchExpression.fieldNames.Nodup := by decide
  refine .bind (decodes_fields rfl distinct) ?_
  refine .bind (decodes_required distinct rfl (decodes_text _)) ?_
  refine .bind (decodes_required distinct rfl (decodes_text _)) ?_
  exact .bind (decodes_some distinct rfl fun text _ => decodes_text text) (.pure _)

theorem decodes_selector (selector : NodeSelector) : Decodes (NodeSelector.decode selector.encode.toNode) selector := by
  have distinct : NodeSelector.fieldNames.Nodup := by decide
  refine .bind (decodes_fields rfl distinct) ?_
  refine .bind (decodes_bindings distinct rfl) ?_
  rw [ofList_entries]
  exact .bind (decodes_some distinct rfl fun expression _ => decodes_expression expression) (.pure _)

theorem decodes_peer (peer : Peer) : Decodes (Peer.decode peer.encode.toNode) peer := by
  have distinct : Peer.fieldNames.Nodup := by decide
  have port : some (peer.port.map fun port => encodeNat port.toNat) =
      some ((peer.port.map UInt16.toNat).map encodeNat) := by
    rw [Option.map_map]
    rfl
  have small : ∀ value ∈ peer.port.map UInt16.toNat,
      Decodes (Decoder.optional (Decoder.natural UInt16.size) (encodeNat value).toNode) (some value) := by
    intro value member
    obtain ⟨port, -, rfl⟩ := Option.map_eq_some_iff.mp member
    exact decodes_optional_natural port.toNat_lt
  refine .bind (decodes_fields rfl distinct) ?_
  refine .bind (decodes_required distinct rfl (decodes_natural peer.localAsn.toNat_lt)) ?_
  refine .bind (decodes_required distinct rfl (decodes_natural peer.peerAsn.toNat_lt)) ?_
  refine .bind (decodes_required distinct rfl (decodes_text _)) ?_
  refine .bind (decodes_given distinct port small) ?_
  refine .bind (decodes_given distinct rfl fun text _ => decodes_optional_text text) ?_
  refine .bind (decodes_given distinct rfl fun text _ => decodes_optional_text text) ?_
  refine .bind (decodes_given distinct rfl fun text _ => decodes_optional_text text) ?_
  refine .bind (decodes_given distinct rfl fun text _ => decodes_optional_text text) ?_
  refine .bind (decodes_some distinct rfl fun selector _ => decodes_selector selector) ?_
  have whole : (peer.port.map UInt16.toNat).map UInt16.ofNat = peer.port := by
    cases peer.port <;> simp
  simp only [UInt32.ofNat_toNat, whole]
  exact .pure peer

theorem decodes_pool (pool : AddressPool) : Decodes (AddressPool.decode pool.encode.toNode) pool := by
  have distinct : AddressPool.fieldNames.Nodup := by decide
  refine .bind (decodes_fields rfl distinct) ?_
  refine .bind (decodes_required distinct rfl (decodes_text _)) ?_
  refine .bind (decodes_required distinct rfl (decodes_text _)) ?_
  refine .bind (decodes_stated distinct rfl (decodes_list fun text _ => decodes_text text)) ?_
  refine .bind (decodes_given distinct rfl fun value _ => decodes_optional_bool value) ?_
  exact .bind (decodes_given distinct rfl fun value _ => decodes_optional_bool value) (.pure _)

theorem decodes_config (config : Config) : Decodes (Config.decode config.encode.toNode) config := by
  have distinct : Config.fieldNames.Nodup := by decide
  refine .bind (decodes_fields rfl distinct) ?_
  refine .bind (decodes_some distinct rfl fun peer _ => decodes_peer peer) ?_
  refine .bind (decodes_bindings distinct rfl) ?_
  rw [ofList_entries]
  exact .bind (decodes_some distinct rfl fun pool _ => decodes_pool pool) (.pure _)

theorem fits_expression (expression : MatchExpression) : WordsFit expression.encode := by
  apply fits_present
  simp only [List.forall_mem_cons, List.not_mem_nil, false_implies, implies_true, and_true]
  exact ⟨fits_stated (text_fits _), fits_stated (text_fits _), fits_some text_fits⟩

theorem fits_selector (selector : NodeSelector) : WordsFit selector.encode := by
  apply fits_present
  simp only [List.forall_mem_cons, List.not_mem_nil, false_implies, implies_true, and_true]
  exact ⟨fits_bindings _ _, fits_some fits_expression⟩

theorem fits_peer (peer : Peer) : WordsFit peer.encode := by
  apply fits_present
  simp only [List.forall_mem_cons, List.not_mem_nil, false_implies, implies_true, and_true]
  exact ⟨fits_stated (fits_number _), fits_stated (fits_number _), fits_stated (text_fits _),
    fits_map fun port => fits_number port.toNat, fits_map text_fits, fits_map text_fits,
    fits_map text_fits, fits_map text_fits, fits_some fits_selector⟩

theorem fits_pool (pool : AddressPool) : WordsFit pool.encode := by
  apply fits_present
  simp only [List.forall_mem_cons, List.not_mem_nil, false_implies, implies_true, and_true]
  exact ⟨fits_stated (text_fits _), fits_stated (text_fits _), fits_stated (fits_list text_fits _), fits_map fits_bool, fits_map fits_bool⟩

theorem fits_config (config : Config) : WordsFit config.encode := by
  apply fits_present
  simp only [List.forall_mem_cons, List.not_mem_nil, false_implies, implies_true, and_true]
  exact ⟨fits_some fits_peer, fits_bindings _ _, fits_some fits_pool⟩

/-- What a document begins with is not left out as white space. -/
theorem not_filler {text : List Char} (printable : Printable text) (begins : Begins text) :
    text.all Config.isFiller = false := by
  cases begins with
  | @token c rest starts =>
    have feeds : c ≠ '\x0c' ∧ c ≠ '\r' := by
      have shown := printable c (by simp)
      constructor <;>
      · rintro rfl
        exact absurd shown (by decide)
    have newline : c ≠ '\n' := by
      rintro rfl
      exact absurd starts.not_break (by decide)
    simp [Config.isFiller, starts.not_space, starts.not_tab, newline, feeds]

theorem read_write (config : Config) : Config.read config.write = .ok config := by
  have fits := fits_config config
  obtain ⟨printable, begins⟩ := write_opens fits
  have filler : config.write.toList.all Config.isFiller = false := not_filler printable begins
  have document : Document.read? config.write = some ⟨some config.encode.toNode⟩ := read?_write _ fits
  rw [Config.read, filler, if_neg Bool.false_ne_true, document]
  simp [Config.ofDocument?, Decoder.run, decodes_config config _ _]

theorem readBytes_toUTF8 (text : String) : Config.readBytes text.toUTF8 = Config.read text := by
  have valid : String.fromUTF8? text.toUTF8 = some text := dif_pos text.isValidUTF8
  rw [Config.readBytes, valid]

theorem readBytes_write (config : Config) : Config.readBytes config.write.toUTF8 = .ok config := by
  rw [readBytes_toUTF8]
  exact read_write config

/-- The patch of a configuration leaves the text that it carries. -/
theorem patchDocument_configPatch (document : Option String) (text : String) :
    patchDocument document (configPatch text) = some text := by
  cases document <;> rfl

theorem saved_config_loads (config : Config) :
    Config.readBytes config.write.toUTF8 = .ok config ∧
    ∀ (name : String) (memory : Memory),
      let healthy := { memory with faults := { memory.faults with load := false, patch := false } }
      ((do Pass.save name config; Pass.load name : Pass Config).run.trace Memory.answer healthy).value = .ok config := by
  refine ⟨readBytes_write config, fun name memory => ?_⟩
  intro healthy
  have patched : Memory.answer healthy (.patchDocument name (configPatch config.write)) =
      (.ok (), { healthy with document := some config.write }) := by
    rw [← patchDocument_configPatch memory.document config.write]
    rfl
  have saved : effect Memory.answer healthy (Pass.save name config) =
      (.ok (), { healthy with document := some config.write }) := by
    rw [effect_save, patched]
    rfl
  have loaded : (effect Memory.answer { healthy with document := some config.write } (Pass.load name)).1 = .ok config := by
    rw [effect_load]
    change (Config.read config.write).mapError PassError.invalidDocument = .ok config
    rw [read_write]
    rfl
  have both := effect_bind Memory.answer healthy (Pass.save name config) fun _ => Pass.load name
  rw [saved] at both
  exact (congrArg Prod.fst both).trans loaded

end PeerPool.Proofs.ConfigRoundTrip
