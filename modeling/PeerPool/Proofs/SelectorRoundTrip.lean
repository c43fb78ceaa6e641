import Mathlib.Data.List.TFAE
import Mathlib.Tactic.TFAE
import PeerPool.Proofs.SelectorGrammar

/-! Selectors written and read back. Writing spells every requirement in one of the shapes that
reading knows, so nothing but the spelling of a text is lost by reading and writing it. -/

namespace PeerPool.Proofs.SelectorRoundTrip
open Text Selector TextPieces LabelNames SelectorTerms SelectorGrammar

/-- A requirement about keys and values that can be written; a set that is asked for has members. -/
def Writable : Requirement → Prop
  | .equals key value | .notEquals key value => key.toList ∈ keys ∧ value.toList ∈ values
  | .oneOf key members | .noneOf key members => key.toList ∈ keys ∧ members ≠ [] ∧ ∀ value ∈ members, value.toList ∈ values
  | .present key | .absent key => key.toList ∈ keys

instance (text : List Char) : Decidable (text ∈ keys) := decidable_of_iff _ isKey_iff

instance (text : List Char) : Decidable (text ∈ values) := decidable_of_iff _ isValue_iff

instance : (asked : Requirement) → Decidable (Writable asked)
  | .equals key value | .notEquals key value => inferInstanceAs (Decidable (key.toList ∈ keys ∧ value.toList ∈ values))
  | .oneOf key members | .noneOf key members =>
    inferInstanceAs (Decidable (key.toList ∈ keys ∧ members ≠ [] ∧ ∀ value ∈ members, value.toList ∈ values))
  | .present key | .absent key => inferInstanceAs (Decidable (key.toList ∈ keys))

section

variable {text : List Char} {asked : Requirement} {selector : Selector}

theorem members_writable {pieces : List (List Char)} {members : List String} (each : List.Forall₂ (Padded Value) pieces members) :
    ∀ value ∈ members, value.toList ∈ values := by
  induction each with
  | nil => exact List.forall_mem_nil _
  | cons padded _ ih =>
    obtain ⟨_, value, _⟩ := padded
    exact List.forall_mem_cons.mpr ⟨value.written, ih⟩

theorem writable_of_term (term : Term text asked) : Writable asked := by
  cases term with
  | present name => exact name.written
  | absent _ name => exact name.written
  | equals name _ _ _ value => exact ⟨name.written, value.written⟩
  | notEquals name _ _ value => exact ⟨name.written, value.written⟩
  | member membership name _ _ _ listed each =>
    have some := List.length_pos_iff.mp (each.length_eq ▸ List.length_pos_iff.mpr listed)
    cases membership <;> exact ⟨name.written, some, members_writable each⟩

theorem writable_of_denotes (denotes : Denotes text selector) : ∀ asked ∈ selector, Writable asked := by
  cases denotes with
  | blank => exact List.forall_mem_nil _
  | terms _ each =>
    clear * - each
    induction each with
    | nil => exact List.forall_mem_nil _
    | cons padded _ ih =>
      obtain ⟨_, term, _⟩ := padded
      exact List.forall_mem_cons.mpr ⟨writable_of_term term, ih⟩

theorem values_read {members : List String} (known : ∀ value ∈ members, value.toList ∈ values) :
    List.Forall₂ (Padded Value) (members.map String.toList) members :=
  List.forall₂_map_left_iff.mpr (List.forall₂_same.mpr fun value member => .refl ⟨known value member, rfl⟩)

theorem term_set {key : String} {members : List String} (membership : Membership) (name : key.toList ∈ keys) (some : members ≠ [])
    (known : ∀ value ∈ members, value.toList ∈ values) :
    Term (key.toList ++ (' ' :: word membership ++ [' ', '(']) ++ (",".intercalate members).toList ++ [')'])
      (requirement key members membership) := by
  have blank : Blank [' '] := by decide
  have term := Term.member membership ⟨name, rfl⟩ (List.cons_ne_nil ' ' []) blank blank (mt List.map_eq_nil_iff.mp some) (values_read known)
  have comma : ",".toList = [','] := rfl
  simpa only [String.toList_intercalate, comma, List.append_assoc, List.cons_append, List.nil_append] using term

theorem term_write (writable : Writable asked) : Term asked.write.toList asked := by
  cases asked with
  | present key => exact .present ⟨writable, rfl⟩
  | absent key =>
    rw [Requirement.write, String.toList_append]
    exact .absent .nil ⟨writable, rfl⟩
  | equals key value =>
    have term := Term.equals ⟨writable.1, rfl⟩ .nil (List.mem_cons_self ..) .nil ⟨writable.2, rfl⟩
    rw [List.append_nil, List.nil_append] at term
    rw [Requirement.write, String.toList_append, String.toList_append]
    exact term
  | notEquals key value =>
    have term := Term.notEquals ⟨writable.1, rfl⟩ .nil .nil ⟨writable.2, rfl⟩
    rw [List.append_nil, List.nil_append] at term
    rw [Requirement.write, String.toList_append, String.toList_append]
    exact term
  | oneOf key members =>
    rw [Requirement.write, String.toList_append, String.toList_append, String.toList_append]
    exact term_set .within writable.1 writable.2.1 writable.2.2
  | noneOf key members =>
    rw [Requirement.write, String.toList_append, String.toList_append, String.toList_append]
    exact term_set .outside writable.1 writable.2.1 writable.2.2

theorem denotes_write (writable : ∀ asked ∈ selector, Writable asked) : Denotes selector.write.toList selector := by
  have spelled : selector.write.toList = [','].intercalate (selector.map fun asked => asked.write.toList) := by
    rw [Selector.write, String.toList_intercalate, List.map_map]
    rfl
  rw [spelled]
  by_cases empty : selector = []
  · subst empty
    exact .blank .nil
  · refine .terms (mt List.map_eq_nil_iff.mp empty) (List.forall₂_map_left_iff.mpr (List.forall₂_same.mpr ?_))
    exact fun asked member => .refl (term_write (writable asked member))

/-- What has been read and what can be written are the same selectors, and they come back as they are. -/
theorem write_reads_back (selector : Selector) :
    [∀ asked ∈ selector, Writable asked, ∃ text, Selector.read text = .ok selector, Selector.read selector.write = .ok selector].TFAE := by
  tfae_have 1 → 3 := fun writable => read_complete (denotes_write writable)
  tfae_have 3 → 2 := fun found => ⟨_, found⟩
  tfae_have 2 → 1 := fun ⟨_, found⟩ => writable_of_denotes (read_sound found)
  tfae_finish

/-- Keys with the names of operators, a value of nothing and a set with nothing in it twice. -/
theorem operator_names_read_back :
    let selector : Selector := [.equals "in" "", .noneOf "notin" ["", "a", ""], .absent "in"]
    selector.write = "in=,notin notin (,a,),!in" ∧ Selector.read selector.write = .ok selector :=
  ⟨by decide, ((write_reads_back _).out 0 2).mp (by decide)⟩

end

end PeerPool.Proofs.SelectorRoundTrip
