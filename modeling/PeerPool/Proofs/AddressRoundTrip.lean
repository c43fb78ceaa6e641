import Mathlib.Data.List.Basic
import PeerPool.Address.Read
import PeerPool.Address.Write
import PeerPool.Proofs.Numerals
import PeerPool.Proofs.TextPieces

/-! An address is read back from its canonical text. Groups are separated by colons, so a
pair of them marks the run of zeros that was left out, and points occur only where an
address of version 4 is written. -/

namespace PeerPool.Proofs.AddressRoundTrip
open Text Address Numerals TextPieces

/-- A digit is none of the marks that stand between numbers. -/
theorem digit_not_mark {base : Nat} (several : 1 < base) (known : base ≤ 16) {value : Nat} :
    '.' ∉ Nat.toDigits base value ∧ ':' ∉ Nat.toDigits base value := by
  have digits : ∀ digit < 16, digit.digitChar ≠ '.' ∧ digit.digitChar ≠ ':' := by decide
  constructor
  · intro member
    obtain ⟨digit, small, same⟩ := mem_toDigits several member
    exact (digits digit (by omega)).1 same.symm
  · intro member
    obtain ⟨digit, small, same⟩ := mem_toDigits several member
    exact (digits digit (by omega)).2 same.symm

theorem no_point (value : Nat) : '.' ∉ decimal value := (digit_not_mark (by decide) (by decide)).1

theorem no_colon (value : Nat) : ':' ∉ decimal value := (digit_not_mark (by decide) (by decide)).2

theorem octet_decimal (value : UInt8) : octet? (decimal value.toNat) = some value := by
  have small : value.toNat < 256 := value.toNat_lt
  have short : (decimal value.toNat).length ≤ 3 := by
    rw [decimal, Nat.length_toDigits_le_iff (by decide) (by decide)]
    omega
  obtain ⟨c, rest, spelled, leads⟩ := decimal_leading value.toNat
  have alone : 1 < (decimal value.toNat).length → c ≠ '0' := by
    rintro several rfl
    rw [leads rfl] at several
    exact absurd several (by decide)
  have proper : ((decimal value.toNat).isEmpty || 3 < (decimal value.toNat).length ||
      (1 < (decimal value.toNat).length && (decimal value.toNat).head? = some '0')) = false := by
    rw [spelled] at short alone ⊢
    simp only [List.isEmpty_cons, List.head?_cons, Option.some.injEq, Bool.false_or, Bool.or_eq_false_iff,
      Bool.and_eq_false_iff, decide_eq_false_iff_not]
    exact ⟨by omega, Decidable.not_or_of_imp alone⟩
  rw [octet?, proper, if_neg Bool.false_ne_true, natural?_decimal]
  simp [small]

/-- The numbers of an address of version 4, between points. -/
theorem separate_writeV4 (a b c d : UInt8) :
    separate '.' (writeV4 a b c d) = [decimal a.toNat, decimal b.toNat, decimal c.toNat, decimal d.toNat] := by
  simp only [writeV4, List.append_assoc, List.cons_append]
  rw [separate_append (no_point _), separate_append (no_point _), separate_append (no_point _), separate_piece (no_point _)]

theorem octets_writeV4 (a b c d : UInt8) : octets? (writeV4 a b c d) = some (a, b, c, d) := by
  rw [octets?, separate_writeV4]
  simp [octet_decimal]

/-- What holds no point is no address of version 4. -/
theorem octets_pointless {text : List Char} (pointless : '.' ∉ text) : octets? text = none := by
  rw [octets?, separate_piece pointless]

theorem group_writeGroup (group : UInt16) : group? (writeGroup group) = some group := by
  have small : group.toNat < 16 ^ 4 := group.toNat_lt
  have short : ¬ 4 < (writeGroup group).length := by
    rw [writeGroup, Nat.not_lt, Nat.length_toDigits_le_iff (by decide) (by decide)]
    exact small
  rw [group?, if_neg short, writeGroup, natural?_toDigits (by decide) (by decide)]
  simp

theorem writeGroup_no_point (group : UInt16) : '.' ∉ writeGroup group := (digit_not_mark (by decide) (by decide)).1

theorem writeGroup_no_colon (group : UInt16) : ':' ∉ writeGroup group := (digit_not_mark (by decide) (by decide)).2

theorem writeGroup_ne_nil (group : UInt16) : writeGroup group ≠ [] := by
  simp [writeGroup]

theorem writeGroups_no_point (groups : List UInt16) : '.' ∉ writeGroups groups := by
  induction groups with
  | nil => exact List.not_mem_nil
  | cons group rest ih =>
    cases rest with
    | nil => exact writeGroup_no_point group
    | cons next rest =>
      rw [writeGroups, List.mem_append, List.mem_cons, not_or, not_or]
      · exact ⟨writeGroup_no_point group, by decide, ih⟩
      · exact List.cons_ne_nil next rest

theorem separate_writeGroups (group : UInt16) (rest : List UInt16) :
    separate ':' (writeGroups (group :: rest)) = (group :: rest).map writeGroup := by
  induction rest generalizing group with
  | nil => exact separate_piece (writeGroup_no_colon group)
  | cons next rest ih =>
    rw [writeGroups, separate_append (writeGroup_no_colon group), ih]
    · rfl
    · exact List.cons_ne_nil next rest

theorem groupList_map (groups : List UInt16) : groupList? (groups.map writeGroup) = some groups := by
  induction groups with
  | nil => rfl
  | cons group rest ih =>
    cases rest with
    | nil =>
      rw [List.map_singleton, groupList?, embedded?, octets_pointless (writeGroup_no_point group), group_writeGroup]
      rfl
    | cons next rest =>
      rw [List.map_cons, List.map_cons, groupList?, group_writeGroup, ← List.map_cons, ih]
      · rfl
      · exact List.cons_ne_nil _ _

theorem side_writeGroups (groups : List UInt16) : side? (writeGroups groups) = some groups := by
  cases groups with
  | nil => rfl
  | cons group rest =>
    have some : (writeGroups (group :: rest)).isEmpty = false := by
      cases rest <;> simp [writeGroups, writeGroup_ne_nil]
    rw [side?, some, if_neg Bool.false_ne_true, separate_writeGroups, groupList_map]

/-- The mark of the zeros that are left out. -/
def gap : List Char := [':', ':']

theorem gap_other {c : Char} (other : c ≠ ':') (rest : List Char) :
    splitOnce gap (c :: rest) = (splitOnce gap rest).map fun (before, after) => (c :: before, after) := by
  simp [splitOnce, gap, List.isPrefixOf?, Ne.symm other]

theorem gap_single {c : Char} (other : c ≠ ':') (rest : List Char) : splitOnce gap (':' :: c :: rest) =
    (splitOnce gap (c :: rest)).map fun (before, after) => (':' :: before, after) := by
  rw [splitOnce]
  simp [gap, List.isPrefixOf?, Ne.symm other]

theorem gap_here (rest : List Char) : splitOnce gap (':' :: ':' :: rest) = some ([], rest) := by
  simp [splitOnce, gap, List.isPrefixOf?]

theorem gap_word {word : List Char} (inside : ':' ∉ word) (rest : List Char) :
    splitOnce gap (word ++ rest) = (splitOnce gap rest).map fun (before, after) => (word ++ before, after) := by
  induction word with
  | nil => simp
  | cons c word ih =>
    rw [List.mem_cons, not_or] at inside
    rw [List.cons_append, gap_other (Ne.symm inside.1), ih inside.2, Option.map_map]
    rfl

theorem writeGroups_head (group : UInt16) (rest : List UInt16) :
    ∃ c text, writeGroups (group :: rest) = c :: text ∧ c ≠ ':' := by
  obtain ⟨c, text, spelled⟩ := List.exists_cons_of_ne_nil (writeGroup_ne_nil group)
  have inside := writeGroup_no_colon group
  rw [spelled, List.mem_cons, not_or] at inside
  cases rest with
  | nil => exact ⟨c, text, spelled, Ne.symm inside.1⟩
  | cons next rest =>
    refine ⟨c, text ++ ':' :: writeGroups (next :: rest), ?_, Ne.symm inside.1⟩
    rw [writeGroups, spelled, List.cons_append]
    exact List.cons_ne_nil next rest

/-- Groups hold no gap, and they do not end in a part of one. -/
theorem gap_groups (group : UInt16) (rest : List UInt16) (text : List Char) : splitOnce gap (writeGroups (group :: rest) ++ text) =
    (splitOnce gap text).map fun (before, after) => (writeGroups (group :: rest) ++ before, after) := by
  induction rest generalizing group with
  | nil => exact gap_word (writeGroup_no_colon group) text
  | cons next rest ih =>
    obtain ⟨c, spelled, starts, other⟩ := writeGroups_head next rest
    have later := ih next
    rw [starts] at later
    have unfolded : writeGroups (group :: next :: rest) = writeGroup group ++ ':' :: c :: spelled := by
      rw [writeGroups, starts]
      exact List.cons_ne_nil next rest
    rw [unfolded, List.append_assoc, gap_word (writeGroup_no_colon group), List.cons_append, List.cons_append,
      gap_single other, ← List.cons_append, later, Option.map_map, Option.map_map]
    cases splitOnce gap text with
    | none => rfl
    | some found => simp

theorem split_uncompressed (groups : List UInt16) : splitOnce gap (writeGroups groups) = none := by
  cases groups with
  | nil => rfl
  | cons group rest =>
    have split := gap_groups group rest []
    rwa [List.append_nil] at split

theorem split_compressed (groups : List UInt16) (text : List Char) :
    splitOnce gap (writeGroups groups ++ ':' :: ':' :: text) = some (writeGroups groups, text) := by
  cases groups with
  | nil => exact gap_here text
  | cons group rest =>
    rw [gap_groups, gap_here]
    simp only [Option.map_some, List.append_nil]

theorem leadingZeros_spec (groups : List UInt16) :
    groups = List.replicate (leadingZeros groups) 0 ++ groups.drop (leadingZeros groups) := by
  induction groups with
  | nil => rfl
  | cons group rest ih =>
    by_cases zero : group = 0
    · subst zero
      have counted : leadingZeros (0 :: rest) = leadingZeros rest + 1 := by simp [leadingZeros]
      rw [counted, List.replicate_succ, List.cons_append, List.drop_succ_cons, ← ih]
    · have counted : leadingZeros (group :: rest) = 0 := by simp [leadingZeros, zero]
      rw [counted]
      rfl

/-- The run of zeros that is found is one. -/
theorem longestZeros_spec (groups : List UInt16) :
    groups = groups.take (longestZeros groups).1 ++ List.replicate (longestZeros groups).2 0 ++
      groups.drop ((longestZeros groups).1 + (longestZeros groups).2) := by
  induction groups with
  | nil => rfl
  | cons group rest ih =>
    rw [longestZeros]
    simp only
    split
    · rw [List.take_zero, List.nil_append, Nat.zero_add]
      exact leadingZeros_spec (group :: rest)
    · rw [List.take_succ_cons, Nat.add_right_comm, List.drop_succ_cons, List.cons_append, List.cons_append, ← ih]

theorem groups_writeCompressed {groups : List UInt16} (full : groups.length = 8) :
    groups? (writeCompressed groups) = some groups := by
  have spec := longestZeros_spec groups
  rw [writeCompressed]
  generalize longestZeros groups = run at spec ⊢
  obtain ⟨start, length⟩ := run
  dsimp only at spec ⊢
  split
  -- As many zeros are put back as were left out, since there are eight groups in all.
  next long =>
    have counted := congrArg List.length spec
    rw [List.length_append, List.length_append, List.length_replicate, full] at counted
    have front : front? (writeGroups (groups.take start)) = some (groups.take start) := by
      rw [front?, List.contains_eq_mem, decide_eq_false (writeGroups_no_point _), if_neg Bool.false_ne_true, side_writeGroups]
    rw [groups?, ← gap, split_compressed]
    simp only [front, side_writeGroups, Option.bind_eq_bind, Option.bind_some]
    rw [if_pos (by omega)]
    have left : 8 - (groups.take start).length - (groups.drop (start + length)).length = length := by omega
    rw [left, ← spec]
    rfl
  next =>
    rw [groups?, ← gap, split_uncompressed]
    simp only
    cases groups with
    | nil => cases full
    | cons group rest => rw [separate_writeGroups, groupList_map]

theorem writeCompressed_no_point (groups : List UInt16) : '.' ∉ writeCompressed groups := by
  rw [writeCompressed]
  generalize longestZeros groups = run
  obtain ⟨start, length⟩ := run
  dsimp only
  split
  · rw [List.mem_append, List.mem_cons, List.mem_cons, not_or, not_or, not_or]
    exact ⟨writeGroups_no_point _, by decide, by decide, writeGroups_no_point _⟩
  · exact writeGroups_no_point groups

theorem joinBytes_bytes (group : UInt16) : joinBytes (highByte group) (lowByte group) = group := by
  have small : group.toNat < 65536 := group.toNat_lt
  have eight : UInt16.toNat 8 % 16 = 8 := rfl
  apply UInt16.toNat_inj.mp
  simp only [joinBytes, highByte, lowByte, UInt16.toNat_or, UInt16.toNat_shiftLeft, UInt8.toNat_toUInt16,
    UInt16.toNat_toUInt8, UInt16.toNat_shiftRight, eight]
  have high : (group.toNat >>> 8 % 2 ^ 8) <<< 8 % 2 ^ 16 = (group.toNat / 256) <<< 8 := by
    rw [Nat.shiftRight_eq_div_pow, Nat.shiftLeft_eq, Nat.shiftLeft_eq]
    omega
  rw [high, ← Nat.shiftLeft_add_eq_or_of_lt (Nat.mod_lt _ (by decide)), Nat.shiftLeft_eq]
  omega

theorem writeV4_no_colon (a b c d : UInt8) : ':' ∉ writeV4 a b c d := by
  simp only [writeV4, List.mem_append, List.mem_cons, not_or]
  exact ⟨⟨⟨no_colon _, by decide, no_colon _⟩, by decide, no_colon _⟩, by decide, no_colon _⟩

/-- What an address of version 4 that fills two groups starts with. -/
def mappedStart : List Char := [':', ':', 'f', 'f', 'f', 'f', ':']

/-- An address that stands for one of version 4 is read as the groups that it fills. -/
theorem groups_mapped (high low : UInt16) :
    groups? (mappedStart ++ writeV4 (highByte high) (lowByte high) (highByte low) (lowByte low)) =
      some [0, 0, 0, 0, 0, 0xFFFF, high, low] := by
  have octets := octets_writeV4 (highByte high) (lowByte high) (highByte low) (lowByte low)
  have pure := writeV4_no_colon (highByte high) (lowByte high) (highByte low) (lowByte low)
  generalize writeV4 (highByte high) (lowByte high) (highByte low) (lowByte low) = text at octets pure ⊢
  have embedded : embedded? text = some [high, low] := by
    rw [embedded?, octets]
    simp only [Option.bind_eq_bind, Option.bind_some, joinBytes_bytes]
    rfl
  have split : splitOnce gap (mappedStart ++ text) = some ([], ['f', 'f', 'f', 'f'] ++ ':' :: text) := gap_here _
  have back : side? (['f', 'f', 'f', 'f'] ++ ':' :: text) = some [0xFFFF, high, low] := by
    rw [side?, if_neg (by simp), separate_append (by decide), separate_piece pure, groupList?, groupList?, embedded]
    · rfl
    · exact List.cons_ne_nil text []
  have front : front? [] = some [] := rfl
  rw [groups?, ← gap, split]
  simp only [front, back]
  rfl

/-- The number before the first point is none, for what it starts with. -/
theorem octets_mapped (a b c d : UInt8) : octets? (mappedStart ++ writeV4 a b c d) = none := by
  have pointless : '.' ∉ mappedStart ++ decimal a.toNat := by
    rw [List.mem_append, not_or]
    exact ⟨by decide, no_point _⟩
  have pieces : separate '.' (mappedStart ++ writeV4 a b c d) =
      [mappedStart ++ decimal a.toNat, decimal b.toNat, decimal c.toNat, decimal d.toNat] := by
    simp only [writeV4, List.append_assoc, List.cons_append]
    rw [← List.append_assoc, separate_append pointless, separate_append (no_point _), separate_append (no_point _),
      separate_piece (no_point _)]
  have long : octet? (mappedStart ++ decimal a.toNat) = none := by
    rw [octet?, if_pos]
    have several : 3 < (mappedStart ++ decimal a.toNat).length := by
      rw [List.length_append]
      exact Nat.lt_of_lt_of_le (by decide : 3 < mappedStart.length) (Nat.le_add_right _ _)
    rw [decide_eq_true several, Bool.or_true, Bool.true_or]
  rw [octets?, pieces]
  simp only [long]
  rfl

theorem readChars_writeV6 {groups : List UInt16} (full : groups.length = 8) :
    readChars? (writeV6 groups) = ofGroups? groups := by
  unfold writeV6
  split
  next high low =>
    rw [← mappedStart, readChars?, octets_mapped]
    simp only
    rw [groups_mapped, Option.bind_some]
  next =>
    rw [readChars?, octets_pointless (writeCompressed_no_point groups)]
    simp only
    rw [groups_writeCompressed full, Option.bind_some]

theorem read_write (address : Address) : read? address.write = some address := by
  rw [read?, write, String.toList_ofList]
  cases address with
  | v4 a b c d =>
    rw [writeChars, readChars?, octets_writeV4]
  | v6 groups =>
    have full : groups.toList.length = 8 := groups.length_toList
    rw [writeChars, readChars_writeV6 full, ofGroups?, dif_pos full]
    rfl

theorem write_not_empty (address : Address) : address.write.isEmpty = false := by
  cases empty : address.write.isEmpty with
  | false => rfl
  | true =>
    have nothing := read_write address
    rw [String.isEmpty_iff.mp empty] at nothing
    cases nothing

end PeerPool.Proofs.AddressRoundTrip
