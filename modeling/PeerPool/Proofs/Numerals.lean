import PeerPool.Text.Number

/-! Numbers read back from their digits, in every base that the digits are used for. -/

namespace PeerPool.Proofs.Numerals
open Text

theorem digitsFrom?_append (base : Nat) (first rest : List Char) (value : Nat) :
    digitsFrom? base value (first ++ rest) =
      (digitsFrom? base value first).bind fun value => digitsFrom? base value rest := by
  induction first generalizing value with
  | nil => rfl
  | cons c first ih =>
    simp only [List.cons_append, digitsFrom?]
    cases digitIn? base c with
    | none => rfl
    | some digit => exact ih _

theorem digitValue?_digitChar : ∀ digit < 16, digitValue? digit.digitChar = some digit := by decide

section

variable {base : Nat} (several : 1 < base) (known : base ≤ 16)
include known

theorem digitIn?_digitChar {digit : Nat} (small : digit < base) : digitIn? base digit.digitChar = some digit := by
  simp [digitIn?, digitValue?_digitChar digit (Nat.lt_of_lt_of_le small known), small]

include several

theorem digitsFrom?_toDigits (value : Nat) : digitsFrom? base 0 (Nat.toDigits base value) = some value := by
  induction value using Nat.strongRecOn with
  | ind value ih =>
    by_cases small : value < base
    · rw [Nat.toDigits_of_lt_base small]
      simp [digitsFrom?, digitIn?_digitChar known small]
    · have large : base ≤ value := Nat.le_of_not_lt small
      have less : value / base < value := Nat.div_lt_self (by omega) several
      have digit := digitIn?_digitChar known (Nat.mod_lt value (Nat.lt_of_succ_lt several))
      rw [Nat.toDigits_of_base_le several large, digitsFrom?_append, ih _ less]
      simp only [Option.bind_some, digitsFrom?, digit, Option.some.injEq]
      rw [Nat.mul_comm, Nat.div_add_mod]

theorem natural?_toDigits (value : Nat) : natural? base (Nat.toDigits base value) = some value := by
  have some : (Nat.toDigits base value).isEmpty = false := by simp
  rw [natural?, some, if_neg Bool.false_ne_true, digitsFrom?_toDigits several known]

end

theorem natural?_decimal (value : Nat) : natural? 10 (decimal value) = some value :=
  natural?_toDigits (by decide) (by decide) value

theorem mem_toDigits {base : Nat} (several : 1 < base) {value : Nat} {c : Char} (member : c ∈ Nat.toDigits base value) :
    ∃ digit < base, c = digit.digitChar := by
  induction value using Nat.strongRecOn with
  | ind value ih =>
    by_cases small : value < base
    · rw [Nat.toDigits_of_lt_base small, List.mem_singleton] at member
      exact ⟨value, small, member⟩
    · have large : base ≤ value := Nat.le_of_not_lt small
      have less : value / base < value := Nat.div_lt_self (by omega) several
      rw [Nat.toDigits_of_base_le several large, List.mem_append, List.mem_singleton] at member
      rcases member with member | last
      · exact ih _ less member
      · exact ⟨value % base, Nat.mod_lt value (by omega), last⟩

/-- Only zero itself begins with a zero. -/
theorem decimal_leading (value : Nat) : ∃ c rest, decimal value = c :: rest ∧ (c = '0' → value = 0) := by
  induction value using Nat.strongRecOn with
  | ind value ih =>
    by_cases small : value < 10
    · have zero : ∀ digit < 10, digit.digitChar = '0' → digit = 0 := by decide
      exact ⟨_, _, Nat.toDigits_of_lt_base small, zero value small⟩
    · have large : 10 ≤ value := Nat.le_of_not_lt small
      obtain ⟨c, rest, spelled, leads⟩ := ih (value / 10) (by omega)
      refine ⟨c, rest ++ [(value % 10).digitChar], ?_, ?_⟩
      · rw [decimal, Nat.toDigits_of_base_le (by decide) large, ← decimal, spelled, List.cons_append]
      · intro zero
        have none := leads zero
        omega

end PeerPool.Proofs.Numerals
