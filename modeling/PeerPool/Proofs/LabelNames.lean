import Mathlib.Computability.Language
import PeerPool.Proofs.TextPieces
import PeerPool.Selector.Read

/-! The keys and the values of labels as regular languages. They have nothing in them that a
selector is put together with: no white space, no comma, no parenthesis and no operator. -/

namespace PeerPool.Proofs.LabelNames
open Text Selector TextPieces
open scoped Computability

/-- One character of a class. -/
def anyOf (allowed : Char → Bool) : Language Char := {text | ∃ c, allowed c = true ∧ text = [c]}

/-- A letter or digit, behind which there may be more and some marks, up to a letter or digit. -/
def names (marks : List Char) : Language Char :=
  anyOf isAlphanumeric * (1 + (anyOf fun c => isAlphanumeric c || marks.contains c)∗ * anyOf isAlphanumeric)

def keys : Language Char := (1 + names ['-', '.'] * {['/']}) * names ['-', '_', '.']

def values : Language Char := 1 + names ['-', '_', '.']

theorem mem_anyOf_star {allowed : Char → Bool} {text : List Char} : text ∈ (anyOf allowed)∗ ↔ ∀ c ∈ text, allowed c = true := by
  rw [Language.mem_kstar]
  constructor
  · rintro ⟨pieces, rfl, single⟩ c member
    obtain ⟨piece, inside, member⟩ := List.mem_flatten.mp member
    obtain ⟨d, known, rfl⟩ := single piece inside
    exact List.mem_singleton.mp member ▸ known
  · intro all
    refine ⟨text.map fun c => [c], (List.flatMap_singleton' text).symm, ?_⟩
    · intro piece member
      obtain ⟨c, inside, rfl⟩ := List.mem_map.mp member
      exact ⟨c, all c inside, rfl⟩

theorem mem_names {marks text : List Char} :
    text ∈ names marks ↔ ∃ c rest, text = c :: rest ∧ isAlphanumeric c = true ∧
      (rest = [] ∨ ∃ middle d, rest = middle ++ [d] ∧ (∀ c ∈ middle, (isAlphanumeric c || marks.contains c) = true) ∧
        isAlphanumeric d = true) := by
  simp only [names, Language.mem_mul, Language.mem_add, Language.mem_one, mem_anyOf_star]
  constructor
  · rintro ⟨_, ⟨c, first, rfl⟩, rest, tail, rfl⟩
    refine ⟨c, rest, rfl, first, tail.imp_right ?_⟩
    rintro ⟨middle, inside, _, ⟨d, last, rfl⟩, rfl⟩
    exact ⟨middle, d, rfl, inside, last⟩
  · rintro ⟨c, rest, rfl, first, tail⟩
    refine ⟨[c], ⟨c, first, rfl⟩, rest, tail.imp_right ?_, rfl⟩
    rintro ⟨middle, d, rfl, inside, last⟩
    exact ⟨middle, inside, [d], ⟨d, last, rfl⟩, rfl⟩

theorem isName_iff {marks text : List Char} : isName marks text = true ↔ text ∈ names marks := by
  rw [mem_names, isName]
  constructor
  · intro named
    obtain ⟨⟨first, last⟩, inside⟩ : ((text.head?.any isAlphanumeric = true ∧ text.getLast?.any isAlphanumeric = true) ∧
        ∀ c ∈ text, (isAlphanumeric c || marks.contains c) = true) := by simpa using named
    cases text with
    | nil => cases first
    | cons c rest =>
      refine ⟨c, rest, rfl, first, ?_⟩
      rcases List.eq_nil_or_concat' rest with rfl | ⟨middle, d, rfl⟩
      · exact .inl rfl
      · refine .inr ⟨middle, d, rfl, fun c member => inside c ?_, ?_⟩
        · exact List.mem_cons_of_mem _ (List.mem_append_left _ member)
        · simpa [List.getLast?_cons] using last
  · rintro ⟨c, rest, rfl, first, rfl | ⟨middle, d, rfl, inside, last⟩⟩
    · simp [first]
    · simp only [Bool.and_eq_true, List.all_eq_true]
      refine ⟨⟨first, by simpa [List.getLast?_cons] using last⟩, ?_⟩
      intro other member
      rcases List.mem_cons.mp member with rfl | member
      · rw [first, Bool.true_or]
      · rcases List.mem_append.mp member with member | member
        · exact inside other member
        · rw [List.mem_singleton.mp member, last, Bool.true_or]

theorem isValue_iff {text : List Char} : isValue text = true ↔ text ∈ values := by
  rw [isValue, Bool.or_eq_true, isName_iff, List.isEmpty_iff, values, Language.mem_add, Language.mem_one]

theorem mem_keys {text : List Char} : text ∈ keys ↔
    text ∈ names ['-', '_', '.'] ∨ ∃ domain ∈ names ['-', '.'], ∃ name ∈ names ['-', '_', '.'], domain ++ ['/'] ++ name = text := by
  rw [keys, Language.mem_mul]
  constructor
  · rintro ⟨start, led, name, named, rfl⟩
    rcases (Language.mem_add _ _ _).mp led with nothing | led
    · rw [(Language.mem_one _).mp nothing]
      exact .inl named
    · obtain ⟨domain, inside, _, slash, rfl⟩ := Language.mem_mul.mp led
      cases Set.mem_singleton_iff.mp slash
      exact .inr ⟨domain, inside, name, named, rfl⟩
  · rintro (named | ⟨domain, inside, name, named, rfl⟩)
    · exact ⟨[], (Language.mem_add _ _ _).mpr (.inl rfl), text, named, rfl⟩
    · refine ⟨domain ++ ['/'], (Language.mem_add _ _ _).mpr (.inr ?_), name, named, rfl⟩
      exact Language.mem_mul.mpr ⟨domain, inside, ['/'], Set.mem_singleton _, rfl⟩

/-- What keys and values are made of. -/
def isLabel (c : Char) : Bool := isAlphanumeric c || ['-', '_', '.', '/'].contains c

/-- Made of nothing that stands between keys and values. -/
def Plain (text : List Char) : Prop := ∀ c ∈ text, isLabel c = true

theorem names_within {marks text : List Char} (named : text ∈ names marks) :
    text ≠ [] ∧ ∀ c ∈ text, (isAlphanumeric c || marks.contains c) = true := by
  have inside := isName_iff.mpr named
  rw [isName, Bool.and_eq_true, List.all_eq_true] at inside
  refine ⟨?_, inside.2⟩
  rintro rfl
  cases inside.1

theorem isLabel_of_mark {marks : List Char} {c : Char} (known : marks ⊆ ['-', '_', '.', '/'])
    (inside : (isAlphanumeric c || marks.contains c) = true) : isLabel c = true := by
  rw [isLabel, Bool.or_eq_true, List.contains_iff_mem]
  rw [Bool.or_eq_true, List.contains_iff_mem] at inside
  exact inside.imp_right fun member => known member

theorem names_plain {marks text : List Char} (known : marks ⊆ ['-', '_', '.', '/']) (named : text ∈ names marks) : Plain text :=
  fun c member => isLabel_of_mark known ((names_within named).2 c member)

theorem values_plain {text : List Char} (value : text ∈ values) : Plain text := by
  rcases (Language.mem_add _ _ _).mp value with nothing | named
  · rw [(Language.mem_one _).mp nothing]
    exact List.forall_mem_nil _
  · exact names_plain (by decide) named

theorem keys_plain {text : List Char} (key : text ∈ keys) : Plain text := by
  rcases mem_keys.mp key with named | ⟨domain, inside, name, named, rfl⟩
  · exact names_plain (by decide) named
  · refine List.forall_mem_append.mpr ⟨List.forall_mem_append.mpr ⟨names_plain (by decide) inside, ?_⟩, names_plain (by decide) named⟩
    exact List.forall_mem_singleton.mpr rfl

theorem keys_ne_nil {text : List Char} (key : text ∈ keys) : text ≠ [] := by
  rcases mem_keys.mp key with named | ⟨domain, _, name, named, rfl⟩
  · exact (names_within named).1
  · exact List.append_ne_nil_of_right_ne_nil _ (names_within named).1

/-- The name of a key begins behind its slash, and there is one at most. -/
theorem no_slash {marks text : List Char} (other : '/' ∉ marks) (named : text ∈ names marks) : '/' ∉ text := by
  intro member
  rcases Bool.or_eq_true_iff.mp ((names_within named).2 _ member) with letter | mark
  · cases letter
  · exact other (List.contains_iff_mem.mp mark)

theorem isKey_iff {text : List Char} : isKey text = true ↔ text ∈ keys := by
  rw [mem_keys, isKey]
  split
  next domain name found =>
    rw [Bool.and_eq_true, isName_iff, isName_iff]
    constructor
    · rintro ⟨inside, named⟩
      exact .inr ⟨domain, inside, name, named, splitOnce_some found⟩
    · rintro (named | ⟨other, inside, rest, named, same⟩)
      · have slash : '/' ∈ text := splitOnce_some found ▸ by simp
        exact absurd slash (no_slash (by decide) named)
      · have here : splitOnce ['/'] (other ++ ['/'] ++ rest) = some (other, rest) := splitOnce_append (no_slash (by decide) inside) rest
        rw [same, found] at here
        cases here
        exact ⟨inside, named⟩
  next missing =>
    rw [isName_iff]
    refine ⟨.inl, ?_⟩
    rintro (named | ⟨domain, inside, name, named, rfl⟩)
    · exact named
    · rw [splitOnce_append (no_slash (by decide) inside) name] at missing
      cases missing

theorem label_solid {c : Char} (label : isLabel c = true) : isWhiteSpace c = false := by
  have between {least greatest : Char} (known : (decide (least ≤ c) && decide (c ≤ greatest)) = true) :
      least.toNat ≤ c.toNat ∧ c.toNat ≤ greatest.toNat := by
    rw [Bool.and_eq_true, decide_eq_true_eq, decide_eq_true_eq] at known
    exact known.imp UInt32.le_iff_toNat_le.mp UInt32.le_iff_toNat_le.mp
  have visible : '!'.toNat ≤ c.toNat ∧ c.toNat ≤ '~'.toNat := by
    rcases Bool.or_eq_true_iff.mp label with letter | mark
    · rcases Bool.or_eq_true_iff.mp letter with letter | digit
      · rcases Bool.or_eq_true_iff.mp letter with lower | upper
        · exact (between lower).imp (le_trans (by decide)) (le_trans · (by decide))
        · exact (between upper).imp (le_trans (by decide)) (le_trans · (by decide))
      · exact (between digit).imp (le_trans (by decide)) (le_trans · (by decide))
    · have marks : ['-', '_', '.', '/'].all fun c => '!'.toNat ≤ c.toNat ∧ c.toNat ≤ '~'.toNat := by decide
      exact of_decide_eq_true (List.all_eq_true.mp marks c (List.contains_iff_mem.mp mark))
  have first : '!'.toNat = 33 := rfl
  have last : '~'.toNat = 126 := rfl
  simp only [isWhiteSpace, Bool.or_eq_false_iff, Bool.and_eq_false_iff, decide_eq_false_iff_not]
  omega

theorem Plain.solid {text : List Char} (plain : Plain text) : Solid text := fun c member => label_solid (plain c member)

/-- The characters that selectors are put together with. -/
def signs : List Char := ['!', '=', ',', '(', ')']

theorem signless {text : List Char} {kind : Char → Bool} (others : signs.all (!kind ·)) (known : ∀ c ∈ text, kind c = true)
    {sign : Char} (member : sign ∈ signs) : sign ∉ text := by
  intro inside
  have other : (!kind sign) = true := List.all_eq_true.mp others sign member
  rw [known sign inside] at other
  cases other

theorem Plain.unsigned {text : List Char} (plain : Plain text) {sign : Char} (member : sign ∈ signs) : sign ∉ text :=
  signless (by decide) plain member

theorem blank_unsigned {text : List Char} (blank : Blank text) {sign : Char} (member : sign ∈ signs) : sign ∉ text :=
  signless (by decide) blank member

end PeerPool.Proofs.LabelNames
