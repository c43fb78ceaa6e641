import PeerPool.Config.Encode
import PeerPool.Proofs.Numerals
import PeerPool.Proofs.YamlBlock

/-! Numbers and truth values are words that can be written as they are, and encoders write
no other words. -/

namespace PeerPool.Proofs.YamlEncoding
open Yaml YamlCharacters YamlBlock Numerals

theorem hasPair_of_not {first second : Char → Bool} {text : List Char} (none : ∀ c ∈ text, first c = false) :
    hasPair first second text = false := by
  induction text with
  | nil => rfl
  | cons c rest ih =>
    have later := ih fun d member => none d (List.mem_cons_of_mem _ member)
    cases rest with
    | nil => rfl
    | cons d rest => simp [hasPair, none c (by simp), later]

/-- A character of the words that are written as they are. -/
def isWordly (c : Char) : Bool :=
  isPrintable c && !isGap c && !isFlowIndicator c &&
  !(['#', '&', '*', '!', '|', '>', '\'', '"', '%', '@', '\x60', '-', '?', ':', '.'].contains c)

theorem fitsPlain_word {text : List Char} (some : text ≠ []) (wordly : ∀ c ∈ text, isWordly c = true) :
    fitsPlain text = true := by
  have parts : ∀ c ∈ text, isPrintable c = true ∧ isGap c = false ∧ isFlowIndicator c = false ∧
      ['#', '&', '*', '!', '|', '>', '\'', '"', '%', '@', '\x60', '-', '?', ':', '.'].contains c = false := by
    simpa [isWordly, and_assoc] using wordly
  have colon : ∀ c ∈ text, c ≠ ':' := by
    rintro _ member rfl
    exact absurd (parts _ member).2.2.2 (by decide)
  have gaps : ∀ c ∈ text, isGap c = false := fun c member => (parts c member).2.1
  have whole : breaksOff text = false := by
    have last : text.getLast? ≠ Option.some ':' := fun found => colon _ (List.mem_of_getLast? found) rfl
    simp only [breaksOff, hasPair_of_not fun c member => decide_eq_false (colon c member), hasPair_of_not gaps,
      decide_eq_false last, Bool.or_self]
  have last : text.getLast?.any isGap = false := by
    cases found : text.getLast? with
    | none => rfl
    | some c => exact gaps c (List.mem_of_getLast? found)
  have line : text.all (fun c => isPrintable c && !isBreak c) = true := by
    apply List.all_eq_true.mpr
    intro c member
    have gap := gaps c member
    simp only [isGap, Bool.or_eq_false_iff] at gap
    simp [(parts c member).1, gap.2]
  obtain ⟨c, rest, rfl⟩ := List.exists_cons_of_ne_nil some
  obtain ⟨-, gap, flow, marks⟩ := parts c (by simp)
  have opens : opensOtherwise (c :: rest) = false := by
    simp only [List.contains_cons, List.contains_nil, Bool.or_false, Bool.or_eq_false_iff, beq_eq_false_iff_ne] at marks
    simp [opensOtherwise, flow, marks, List.isPrefixOf, Ne.symm]
  simp [fitsPlain, opens, whole, line, last, gap]

theorem fits_number (value : Nat) : WordsFit (encodeNat value) := by
  have wordly : ∀ digit < 10, isWordly digit.digitChar = true := by decide
  rw [encodeNat, WordsFit, String.toList_ofList]
  refine fitsPlain_word Nat.toDigits_ne_nil fun c member => ?_
  obtain ⟨digit, small, rfl⟩ := mem_toDigits (by decide) member
  exact wordly digit small

theorem fits_bool (value : Bool) : WordsFit (encodeBool value) := by
  have wordly : "true".toList.all isWordly = true ∧ "false".toList.all isWordly = true := by decide
  rw [encodeBool, WordsFit]
  cases value with
  | true => exact fitsPlain_word (by decide) (List.all_eq_true.mp wordly.1)
  | false => exact fitsPlain_word (by decide) (List.all_eq_true.mp wordly.2)

theorem fits_items {items : List Block} (each : ∀ item ∈ items, WordsFit item) : ItemsFit items := by
  induction items with
  | nil => rw [ItemsFit]; trivial
  | cons item items ih =>
    rw [ItemsFit]
    exact ⟨each item (by simp), ih fun other member => each other (List.mem_cons_of_mem _ member)⟩

theorem fits_entries {entries : List (String × Block)} (each : ∀ entry ∈ entries, WordsFit entry.2) : EntriesFit entries := by
  induction entries with
  | nil => rw [EntriesFit]; trivial
  | cons entry entries ih =>
    obtain ⟨name, value⟩ := entry
    rw [EntriesFit]
    exact ⟨each (name, value) (by simp), ih fun other member => each other (List.mem_cons_of_mem _ member)⟩

/-- What is written for a field can be written as it is, if there is anything. -/
def FieldFits (field : String × Option Block) : Prop := ∀ block ∈ field.2, WordsFit block

theorem fits_present {fields : List (String × Option Block)} (each : ∀ field ∈ fields, FieldFits field) :
    WordsFit (presentEntries fields) := by
  rw [presentEntries, WordsFit]
  refine fits_entries fun entry member => ?_
  obtain ⟨⟨name, value⟩, inside, given⟩ := List.mem_filterMap.mp member
  obtain ⟨block, found, rfl⟩ := Option.map_eq_some_iff.mp given
  exact each (name, value) inside block found

theorem text_fits (text : String) : WordsFit (.text text) := by
  rw [WordsFit]
  trivial

theorem fits_stated {block : Block} {name : String} (fits : WordsFit block) : FieldFits (name, some block) := by
  rintro _ ⟨⟩
  exact fits

theorem fits_map {α : Type} {encode : α → Block} {name : String} {value? : Option α}
    (each : ∀ value, WordsFit (encode value)) : FieldFits (name, value?.map encode) := by
  intro block found
  obtain ⟨value, -, rfl⟩ := Option.map_eq_some_iff.mp found
  exact each value

theorem fits_list {α : Type} {encode : α → Block} (each : ∀ value, WordsFit (encode value)) (values : List α) :
    WordsFit (.list (values.map encode)) := by
  rw [WordsFit]
  refine fits_items fun item member => ?_
  obtain ⟨value, -, rfl⟩ := List.mem_map.mp member
  exact each value

theorem fits_some {α : Type} {encode : α → Block} {name : String} {values : List α}
    (each : ∀ value, WordsFit (encode value)) : FieldFits (name, encodeSome encode values) := by
  intro block found
  unfold encodeSome at found
  split at found
  · cases found
  · cases found
    exact fits_list each values

theorem fits_bindings (name : String) (dict : Dict String) : FieldFits (name, encodeDict dict) := by
  intro block found
  unfold encodeDict at found
  split at found
  · cases found
  · cases found
    rw [WordsFit]
    refine fits_entries fun entry member => ?_
    obtain ⟨binding, -, rfl⟩ := List.mem_map.mp member
    exact text_fits binding.2

end PeerPool.Proofs.YamlEncoding
