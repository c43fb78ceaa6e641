import PeerPool.Proofs.AddressRoundTrip

/-! Texts that denote addresses of version 4. A number between points has no superfluous zeros,
so each such address has one text only, and that is the one it is written in. -/

namespace PeerPool.Proofs.CanonicalAddresses
open Text Address Numerals AddressRoundTrip TextPieces

theorem digitChar_of_digitIn? {c : Char} {digit : Nat} (read : digitIn? 10 c = some digit) : digit < 10 ∧ c = digit.digitChar := by
  obtain ⟨read, small⟩ := Option.filter_eq_some_iff.mp read
  have small : digit < 10 := of_decide_eq_true small
  refine ⟨small, ?_⟩
  have chars : ∀ digit < 10, digit.digitChar = Char.ofNat ('0'.toNat + digit) := by decide
  rw [chars digit small]
  unfold digitValue? at read
  split at read
  next numeral =>
    obtain ⟨least, _⟩ := Bool.and_eq_true_iff.mp numeral
    have least : '0'.toNat ≤ c.toNat := UInt32.le_iff_toNat_le.mp (Char.le_def.mp (of_decide_eq_true least))
    cases read
    rw [Nat.add_sub_cancel' least, Char.ofNat_toNat]
  next =>
    -- Letters stand for ten and more.
    split at read
    · cases read
      omega
    · split at read
      · cases read
        omega
      · cases read

/-- Digits that are read on from a number which is not zero are written behind it. -/
theorem decimal_of_digitsFrom? {text : List Char} {before value : Nat} (positive : 0 < before)
    (read : digitsFrom? 10 before text = some value) : decimal value = decimal before ++ text := by
  induction text generalizing before with
  | nil =>
    cases read
    rw [List.append_nil]
  | cons c rest ih =>
    rw [digitsFrom?] at read
    split at read
    next digit known =>
      obtain ⟨small, rfl⟩ := digitChar_of_digitIn? known
      have last : decimal (before * 10 + digit) = decimal before ++ [digit.digitChar] := by
        rw [decimal, Nat.toDigits_of_base_le (by decide) (by omega), ← decimal]
        have whole : (before * 10 + digit) / 10 = before := by omega
        have part : (before * 10 + digit) % 10 = digit := by omega
        rw [whole, part]
      rw [ih (by omega) read, last, List.append_assoc, List.singleton_append]
    next => cases read

theorem decimal_of_octet? {text : List Char} {value : UInt8} (read : octet? text = some value) : text = decimal value.toNat := by
  unfold octet? at read
  split at read
  next => cases read
  next proper =>
    obtain ⟨number, digits, read⟩ := Option.bind_eq_some_iff.mp read
    split at read
    next small =>
      cases read
      rw [UInt8.toNat_ofNat_of_lt' small]
      cases text with
      | nil => exact absurd rfl proper
      | cons c rest =>
        rw [natural?, List.isEmpty_cons, if_neg Bool.false_ne_true, digitsFrom?] at digits
        split at digits
        next digit known =>
          obtain ⟨_, rfl⟩ := digitChar_of_digitIn? known
          rw [Nat.zero_mul, Nat.zero_add] at digits
          rcases Nat.eq_zero_or_pos digit with rfl | positive
          · -- A zero in front of other digits would be superfluous.
            cases rest with
            | nil =>
              cases digits
              rfl
            | cons => exact absurd (by simp) proper
          · rw [decimal_of_digitsFrom? positive digits, decimal, Nat.toDigits_of_lt_base (by omega), List.singleton_append]
        next => cases digits
    next => cases read

theorem writeV4_of_octets? {text : List Char} {a b c d : UInt8} (read : octets? text = some (a, b, c, d)) : text = writeV4 a b c d := by
  unfold octets? at read
  split at read
  next first second third fourth pieces =>
    have joined := intercalate_separate '.' text
    rw [pieces] at joined
    simp only [Option.bind_eq_bind, Option.bind_eq_some_iff] at read
    obtain ⟨a, readA, b, readB, c, readC, d, readD, same⟩ := read
    cases same
    rw [← joined, decimal_of_octet? readA, decimal_of_octet? readB, decimal_of_octet? readC, decimal_of_octet? readD]
    simp [List.intercalate, writeV4]
  next => cases read

theorem write_of_read?_v4 {text : String} {a b c d : UInt8} (read : Address.read? text = some (.v4 a b c d)) :
    text = (Address.v4 a b c d).write := by
  rw [read?, readChars?] at read
  split at read
  next numbers =>
    cases read
    rw [write, writeChars, ← writeV4_of_octets? numbers, String.ofList_toList]
  next =>
    obtain ⟨groups, _, made⟩ := Option.bind_eq_some_iff.mp read
    unfold ofGroups? at made
    split at made <;> cases made

/-- The text of an address with a prefix length. -/
def prefixed (text : String) (length : UInt8) : String := text ++ "/" ++ String.ofList (decimal length.toNat)

theorem no_slash (value : Nat) : '/' ∉ decimal value := by
  intro member
  have digits : ∀ digit < 10, digit.digitChar ≠ '/' := by decide
  obtain ⟨digit, small, same⟩ := mem_toDigits (by decide) member
  exact digits digit small same.symm

theorem slash_inside {c : Char} {digits more rest : List Char} (same : '/' :: digits = c :: more ++ '/' :: rest) : '/' ∈ digits := by
  rw [(List.cons.inj same).2]
  exact List.mem_append_right _ (List.mem_cons_self ..)

/-- The prefix length begins behind the last slash. -/
theorem prefixed_inj {first second : String} {m n : UInt8} : prefixed first m = prefixed second n ↔ first = second ∧ m = n := by
  constructor
  · intro same
    have same : first.toList ++ '/' :: decimal m.toNat = second.toList ++ '/' :: decimal n.toNat := by
      simpa [prefixed] using congrArg String.toList same
    -- What one of the texts has more than the other would put a slash among the digits.
    obtain ⟨texts, digits⟩ : first.toList = second.toList ∧ decimal m.toNat = decimal n.toNat := by
      rcases List.append_eq_append_iff.mp same with ⟨_ | ⟨c, more⟩, longer, rest⟩ | ⟨_ | ⟨c, more⟩, longer, rest⟩
      · simp_all
      · exact absurd (slash_inside rest) (no_slash m.toNat)
      · simp_all
      · exact absurd (slash_inside rest) (no_slash n.toNat)
    have numbers := (natural?_decimal m.toNat).symm.trans ((congrArg (natural? 10) digits).trans (natural?_decimal n.toNat))
    exact ⟨String.toList_inj.mp texts, UInt8.toNat_inj.mp (Option.some.inj numbers)⟩
  · rintro ⟨rfl, rfl⟩
    rfl

end PeerPool.Proofs.CanonicalAddresses
