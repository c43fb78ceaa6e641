import PeerPool.Text.Number

/-! Texts of 32-bit numbers: digits with a plus sign before them or none, and what is wrong
with any other text. The reader goes from left to right, so digits that denote too much are
told before a character behind them that is no digit. -/

namespace PeerPool.Proofs.BoundedNumbers
open Text

/-- What decimal digits denote behind others that denote a number. -/
def numberFrom (number : Nat) (digits : List Char) : Nat :=
  digits.foldl (fun number c => number * 10 + (c.toNat - '0'.toNat)) number

/-- What decimal digits denote. -/
def numberOf (digits : List Char) : Nat := numberFrom 0 digits

def Sign (text : List Char) : Prop := text = [] ∨ text = ['+']

def Digits (text : List Char) : Prop := ∀ c ∈ text, isDigit c = true

/-- A sign or none and digits, at least one, that denote the word. -/
def Denotes (text : String) (word : UInt32) : Prop :=
  ∃ sign digits, text.toList = sign ++ digits ∧ Sign sign ∧ digits ≠ [] ∧ Digits digits ∧ numberOf digits = word.toNat

/-- The text begins with digits that denote more than a word holds. -/
def Excessive (text : String) : Prop :=
  ∃ sign digits rest, text.toList = sign ++ digits ++ rest ∧ Sign sign ∧ Digits digits ∧ UInt32.size ≤ numberOf digits

/-- Why a text denotes no word. -/
def Misread (text : String) : NumberError → Prop
  | .empty => text = ""
  | .tooLarge => Excessive text
  | .invalidDigit => text ≠ "" ∧ ¬ Excessive text ∧ ∀ word, ¬ Denotes text word

theorem numberFrom_cons (number : Nat) (c : Char) (rest : List Char) :
    numberFrom number (c :: rest) = numberFrom (number * 10 + (c.toNat - '0'.toNat)) rest := List.foldl_cons ..

theorem le_numberFrom (number : Nat) (digits : List Char) : number ≤ numberFrom number digits := by
  induction digits generalizing number with
  | nil => exact Nat.le_refl number
  | cons c rest ih =>
    calc number ≤ number * 10 + (c.toNat - '0'.toNat) := by omega
      _ ≤ numberFrom number (c :: rest) := ih _

theorem digitIn?_ten (c : Char) : digitIn? 10 c = if isDigit c then some (c.toNat - '0'.toNat) else none := by
  unfold digitIn? digitValue? isDigit
  split
  next digit =>
    have most : c.toNat ≤ '9'.toNat := UInt32.le_iff_toNat_le.mp (Char.le_def.mp (of_decide_eq_true (Bool.and_eq_true_iff.mp digit).2))
    have small : c.toNat - '0'.toNat < 10 := Nat.lt_succ_of_le (Nat.sub_le_sub_right most _)
    exact Option.filter_eq_some_iff.mpr ⟨rfl, decide_eq_true small⟩
  next =>
    -- Letters stand for ten and more.
    have large (value : Nat) : (some (value + 10)).filter (· < 10) = none := by simp
    split
    · exact large _
    · split
      · exact large _
      · rfl

section

variable {bound value : Nat}

theorem boundedFrom_cons {c : Char} (rest : List Char) : boundedFrom bound value (c :: rest) =
    if isDigit c then
      if value * 10 + (c.toNat - '0'.toNat) < bound then boundedFrom bound (value * 10 + (c.toNat - '0'.toNat)) rest
      else .error .tooLarge
    else .error .invalidDigit := by
  rw [boundedFrom, digitIn?_ten]
  by_cases digit : isDigit c = true
  · simp only [digit, if_true]
  · simp only [digit, Bool.false_eq_true, if_false]

theorem boundedFrom_ok_iff (small : value < bound) {text : List Char} {number : Nat} :
    boundedFrom bound value text = .ok number ↔ Digits text ∧ numberFrom value text = number ∧ number < bound := by
  induction text generalizing value with
  | nil =>
    constructor
    · rintro ⟨⟩
      exact ⟨List.forall_mem_nil _, rfl, small⟩
    · rintro ⟨_, rfl, _⟩
      rfl
  | cons c rest ih =>
    rw [boundedFrom_cons, Digits, List.forall_mem_cons]
    by_cases digit : isDigit c = true
    · rw [if_pos digit]
      by_cases fits : value * 10 + (c.toNat - '0'.toNat) < bound
      · rw [if_pos fits, ih fits, numberFrom_cons]
        constructor
        · rintro ⟨digits, denotes⟩
          exact ⟨⟨digit, digits⟩, denotes⟩
        · rintro ⟨⟨_, digits⟩, denotes⟩
          exact ⟨digits, denotes⟩
      · rw [if_neg fits]
        refine ⟨nofun, ?_⟩
        rintro ⟨_, rfl, less⟩
        exact absurd (Nat.lt_of_le_of_lt (le_numberFrom _ rest) less) fits
    · rw [if_neg digit]
      exact ⟨nofun, fun ⟨⟨first, _⟩, _⟩ => absurd first digit⟩

theorem boundedFrom_tooLarge_iff (small : value < bound) {text : List Char} : boundedFrom bound value text = .error .tooLarge ↔
    ∃ digits rest, text = digits ++ rest ∧ Digits digits ∧ bound ≤ numberFrom value digits := by
  induction text generalizing value with
  | nil =>
    refine ⟨nofun, ?_⟩
    rintro ⟨digits, rest, whole, _, large⟩
    cases (List.append_eq_nil_iff.mp whole.symm).1
    exact absurd large (Nat.not_le_of_lt small)
  | cons c rest ih =>
    -- The digits of a text that begins with one go on behind it, unless there are none, and
    -- then they denote no more than what is known to be small.
    have begins : (∃ digits behind, c :: rest = digits ++ behind ∧ Digits digits ∧ bound ≤ numberFrom value digits) ↔
        isDigit c = true ∧ ∃ digits behind, rest = digits ++ behind ∧ Digits digits ∧
          bound ≤ numberFrom (value * 10 + (c.toNat - '0'.toNat)) digits := by
      constructor
      · rintro ⟨_ | ⟨first, digits⟩, behind, whole, every, large⟩
        · exact absurd large (Nat.not_le_of_lt small)
        · cases whole
          obtain ⟨digit, every⟩ := List.forall_mem_cons.mp every
          exact ⟨digit, digits, behind, rfl, every, large⟩
      · rintro ⟨digit, digits, behind, rfl, every, large⟩
        exact ⟨c :: digits, behind, rfl, List.forall_mem_cons.mpr ⟨digit, every⟩, large⟩
    rw [boundedFrom_cons, begins]
    by_cases digit : isDigit c = true
    · rw [if_pos digit, and_iff_right digit]
      by_cases fits : value * 10 + (c.toNat - '0'.toNat) < bound
      · rw [if_pos fits, ih fits]
      · rw [if_neg fits]
        exact ⟨fun _ => ⟨[], rest, rfl, List.forall_mem_nil _, Nat.le_of_not_lt fits⟩, fun _ => rfl⟩
    · rw [if_neg digit]
      exact ⟨nofun, fun ⟨first, _⟩ => absurd first digit⟩

theorem boundedFrom_not_empty {text : List Char} : boundedFrom bound value text ≠ .error .empty := by
  induction text generalizing value with
  | nil => exact nofun
  | cons c rest ih =>
    rw [boundedFrom_cons]
    split
    · split
      · exact ih
      · exact nofun
    · exact nofun

end

/-- The text behind its sign. -/
def unsigned : List Char → List Char
  | '+' :: rest => rest
  | text => text

theorem unsigned_bare {text : List Char} (bare : ∀ rest, text ≠ '+' :: rest) : unsigned text = text := by
  unfold unsigned
  split
  next rest => exact absurd rfl (bare rest)
  next => rfl

theorem unsigned_split (text : List Char) : ∃ sign, Sign sign ∧ text = sign ++ unsigned text := by
  unfold unsigned
  split
  · exact ⟨['+'], .inr rfl, rfl⟩
  · exact ⟨[], .inl rfl, rfl⟩

theorem unsigned_digits {sign digits : List Char} (rest : List Char) (signed : Sign sign) (filled : digits ≠ []) (every : Digits digits) :
    unsigned (sign ++ digits ++ rest) = digits ++ rest := by
  rcases signed with rfl | rfl
  · obtain ⟨c, others, rfl⟩ := List.exists_cons_of_ne_nil filled
    apply unsigned_bare
    intro _ same
    cases same
    exact absurd (every '+' (List.mem_cons_self ..)) (by decide)
  · rfl

section

variable {text : String}

theorem denotes_iff {word : UInt32} : Denotes text word ↔
    unsigned text.toList ≠ [] ∧ Digits (unsigned text.toList) ∧ numberOf (unsigned text.toList) = word.toNat := by
  constructor
  · rintro ⟨sign, digits, whole, signed, filled, every, denotes⟩
    have same := unsigned_digits [] signed filled every
    rw [List.append_nil, List.append_nil, ← whole] at same
    rw [same]
    exact ⟨filled, every, denotes⟩
  · rintro ⟨filled, every, denotes⟩
    obtain ⟨sign, signed, whole⟩ := unsigned_split text.toList
    exact ⟨sign, _, whole, signed, filled, every, denotes⟩

theorem excessive_iff : Excessive text ↔
    ∃ digits rest, unsigned text.toList = digits ++ rest ∧ Digits digits ∧ UInt32.size ≤ numberOf digits := by
  constructor
  · rintro ⟨sign, digits, rest, whole, signed, every, large⟩
    have filled : digits ≠ [] := by
      rintro rfl
      exact absurd large (by decide)
    exact ⟨digits, rest, whole ▸ unsigned_digits rest signed filled every, every, large⟩
  · rintro ⟨digits, rest, behind, every, large⟩
    obtain ⟨sign, signed, whole⟩ := unsigned_split text.toList
    exact ⟨sign, digits, rest, by rw [whole, behind, List.append_assoc], signed, every, large⟩

theorem word32_eq (filled : text ≠ "") : word32 text =
    if unsigned text.toList = [] then .error .invalidDigit
    else (boundedFrom UInt32.size 0 (unsigned text.toList)).map UInt32.ofNat := by
  unfold word32
  split
  next empty => exact absurd (String.toList_eq_nil_iff.mp empty) filled
  next plus => rw [plus]; rfl
  next minus => rw [minus]; rfl
  next rest alone signed => rw [signed, unsigned, if_neg alone]
  next some _ _ bare => rw [unsigned_bare bare, if_neg some]

theorem word32_ok_iff {word : UInt32} : word32 text = .ok word ↔ Denotes text word := by
  rw [denotes_iff]
  by_cases empty : text = ""
  · subst empty
    exact ⟨nofun, fun ⟨filled, _⟩ => absurd rfl filled⟩
  rw [word32_eq empty]
  by_cases none : unsigned text.toList = []
  · rw [if_pos none]
    exact ⟨nofun, fun ⟨filled, _⟩ => absurd none filled⟩
  rw [if_neg none, and_iff_right none]
  constructor
  · intro read
    generalize result : boundedFrom UInt32.size 0 (unsigned text.toList) = bounded at read
    cases bounded with
    | error error => cases read
    | ok number =>
      obtain ⟨every, denotes, less⟩ := (boundedFrom_ok_iff (by decide)).mp result
      cases read
      exact ⟨every, denotes.trans (UInt32.toNat_ofNat_of_lt less).symm⟩
  · rintro ⟨every, denotes⟩
    have result : boundedFrom UInt32.size 0 (unsigned text.toList) = .ok word.toNat :=
      (boundedFrom_ok_iff (by decide)).mpr ⟨every, denotes, word.toNat_lt⟩
    rw [result, Except.map, UInt32.ofNat_toNat]

/-- What is wrong with a text is found in its digits, unless there are none. -/
theorem word32_refuses {error : NumberError} (filled : text ≠ "") (other : error ≠ .invalidDigit) :
    word32 text = .error error ↔ boundedFrom UInt32.size 0 (unsigned text.toList) = .error error := by
  rw [word32_eq filled]
  by_cases none : unsigned text.toList = []
  · rw [if_pos none, none]
    refine ⟨?_, nofun⟩
    rintro ⟨⟩
    exact absurd rfl other
  · rw [if_neg none]
    cases boundedFrom UInt32.size 0 (unsigned text.toList) with
    | ok number => exact ⟨nofun, nofun⟩
    | error cause => exact ⟨fun same => by cases same; rfl, fun same => by cases same; rfl⟩

theorem word32_empty_iff : word32 text = .error .empty ↔ text = "" := by
  by_cases empty : text = ""
  · subst empty
    exact ⟨fun _ => rfl, fun _ => rfl⟩
  · rw [word32_refuses empty (by decide)]
    exact ⟨fun read => absurd read boundedFrom_not_empty, fun same => absurd same empty⟩

theorem word32_tooLarge_iff : word32 text = .error .tooLarge ↔ Excessive text := by
  have found : boundedFrom UInt32.size 0 (unsigned text.toList) = .error .tooLarge ↔ _ := boundedFrom_tooLarge_iff (by decide)
  rw [excessive_iff]
  by_cases empty : text = ""
  · subst empty
    exact ⟨nofun, fun excess => by cases found.mpr excess⟩
  · rw [word32_refuses empty (by decide)]
    exact found

theorem word32_error_iff {error : NumberError} : word32 text = .error error ↔ Misread text error := by
  cases error with
  | empty => exact word32_empty_iff
  | tooLarge => exact word32_tooLarge_iff
  | invalidDigit =>
    -- What is read is a word or one of three errors, and this is the one left.
    rw [Misread, Ne, ← word32_tooLarge_iff, ← word32_empty_iff]
    simp only [← word32_ok_iff]
    rcases word32 text with (_ | _ | _) | word <;> simp

end

end PeerPool.Proofs.BoundedNumbers
