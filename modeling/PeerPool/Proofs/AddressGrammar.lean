import PeerPool.Proofs.CanonicalAddresses

/-! The texts of addresses. An address of version 6 is eight groups between colons, where one run of zeros may be left out
between two colons, and the last two groups may be written as an address of version 4 is. The reader cuts at colons and at
the first gap; no group holds either, so it finds just the groups that are there. -/

namespace PeerPool.Proofs.AddressGrammar
open Text Address Numerals AddressRoundTrip CanonicalAddresses TextPieces

/-- One to four hexadecimal digits, and the number they stand for. -/
def Group (text : List Char) (group : UInt16) : Prop := text.length ≤ 4 ∧ natural? 16 text = some group.toNat

/-- Groups between colons. Where they are mixed, the last two may be written as an address of version 4. -/
inductive Groups (mixed : Bool) : List Char → List UInt16 → Prop where
  | last {text : List Char} {group : UInt16} : Group text group → Groups mixed text [group]
  | embedded {a b c d : UInt8} : mixed = true → Groups mixed (writeV4 a b c d) [joinBytes a b, joinBytes c d]
  | more {text rest : List Char} {group : UInt16} {groups : List UInt16} :
      Group text group → Groups mixed rest groups → Groups mixed (text ++ ':' :: rest) (group :: groups)

/-- Groups beside a gap, of which there may be none. -/
inductive Side (mixed : Bool) : List Char → List UInt16 → Prop where
  | blank : Side mixed [] []
  | filled {text : List Char} {groups : List UInt16} : Groups mixed text groups → Side mixed text groups

/-- The groups of an address of version 6. A gap stands for as many zeros as there is room for, and for one at least. -/
inductive Spelled : List Char → List UInt16 → Prop where
  | full {text : List Char} {groups : List UInt16} : Groups true text groups → Spelled text groups
  | gap {before after : List Char} {front back : List UInt16} {zeros : Nat} :
      Side false before front → Side true after back → 0 < zeros → front.length + zeros + back.length = 8 →
      Spelled (before ++ ':' :: ':' :: after) (front ++ List.replicate zeros 0 ++ back)

/-- What address a text stands for, if any. -/
inductive Denotes : List Char → Address → Prop where
  | v4 {a b c d : UInt8} : Denotes (writeV4 a b c d) (.v4 a b c d)
  | v6 {text : List Char} {groups : Vector UInt16 8} : Spelled text groups.toList → Denotes text (.v6 groups)

section digits

variable {base value number : Nat} {text : List Char}

theorem digitsFrom?_digits (read : digitsFrom? base value text = some number) : ∀ c ∈ text, (digitIn? base c).isSome = true := by
  induction text generalizing value with
  | nil => exact fun _ member => absurd member List.not_mem_nil
  | cons c text ih =>
    rw [digitsFrom?] at read
    split at read
    next digit known => exact List.forall_mem_cons.mpr ⟨by rw [known]; rfl, ih read⟩
    next => cases read

theorem natural?_digits (read : natural? base text = some number) : digitsFrom? base 0 text = some number := by
  unfold natural? at read
  split at read
  next => cases read
  next => exact read

theorem digitsFrom?_lt (read : digitsFrom? base value text = some number) : number < (value + 1) * Nat.pow base text.length := by
  induction text generalizing value with
  | nil =>
    cases read
    exact Nat.lt_of_lt_of_eq (Nat.lt_succ_self _) (Nat.mul_one _).symm
  | cons c text ih =>
    rw [digitsFrom?] at read
    split at read
    next digit known =>
      have small : digit < base := of_decide_eq_true (Option.filter_eq_some_iff.mp known).2
      have next : value * base + digit + 1 ≤ (value + 1) * base := by
        rw [Nat.succ_mul]
        omega
      calc number < (value * base + digit + 1) * Nat.pow base text.length := ih read
        _ ≤ (value + 1) * base * Nat.pow base text.length := Nat.mul_le_mul_right _ next
        _ = (value + 1) * (Nat.pow base text.length * base) := by rw [Nat.mul_assoc, Nat.mul_comm base]
    next => cases read

end digits

section

variable {text : List Char} {group : UInt16}

theorem group?_iff : group? text = some group ↔ Group text group := by
  unfold group? Group
  split
  next long => exact ⟨nofun, fun is => absurd is.1 (Nat.not_le_of_lt long)⟩
  next short =>
    have short : text.length ≤ 4 := Nat.le_of_not_lt short
    constructor
    · intro read
      obtain ⟨number, digits, rfl⟩ := Option.map_eq_some_iff.mp read
      have small : number < 2 ^ 16 := by
        have power : Nat.pow 16 text.length ≤ 2 ^ 16 := Nat.pow_le_pow_right (by decide) short
        have bound := digitsFrom?_lt (natural?_digits digits)
        omega
      refine ⟨short, ?_⟩
      rw [digits, UInt16.toNat_ofNat_of_lt' small]
    · rintro ⟨-, digits⟩
      rw [digits, Option.map_some, UInt16.ofNat_toNat]

theorem Group.digits (is : Group text group) : ∀ c ∈ text, (digitIn? 16 c).isSome = true :=
  digitsFrom?_digits (natural?_digits is.2)

theorem Group.no_mark (is : Group text group) : ':' ∉ text ∧ '.' ∉ text := by
  have marks : (digitIn? 16 ':').isSome = false ∧ (digitIn? 16 '.').isSome = false := by decide
  constructor
  · intro member
    exact Bool.false_ne_true (marks.1.symm.trans (is.digits _ member))
  · intro member
    exact Bool.false_ne_true (marks.2.symm.trans (is.digits _ member))

theorem Group.ne_nil (is : Group text group) : text ≠ [] := by
  rintro rfl
  cases is.2

end

section groups

variable {mixed : Bool} {text : List Char} {groups : List UInt16}

theorem writeV4_cons (a b c d : UInt8) : ∃ first rest, writeV4 a b c d = first :: rest := by
  obtain ⟨first, rest, spelled, -⟩ := decimal_leading a.toNat
  exact ⟨first, _, by rw [writeV4, spelled]; rfl⟩

/-- Groups begin with no colon. -/
theorem Groups.head (is : Groups mixed text groups) : ∃ c rest, text = c :: rest ∧ c ≠ ':' := by
  have start {piece : List Char} (some : piece ≠ []) (colonless : ':' ∉ piece) (more : List Char) :
      ∃ c rest, piece ++ more = c :: rest ∧ c ≠ ':' := by
    obtain ⟨c, rest, rfl⟩ := List.exists_cons_of_ne_nil some
    exact ⟨c, rest ++ more, rfl, fun same => colonless (same ▸ List.mem_cons_self)⟩
  cases is with
  | last group => simpa using start group.ne_nil group.no_mark.1 []
  | @embedded a b c d =>
    obtain ⟨first, rest, spelled⟩ := writeV4_cons a b c d
    have some : writeV4 a b c d ≠ [] := by rw [spelled]; exact List.cons_ne_nil _ _
    simpa using start some (writeV4_no_colon a b c d) []
  | more group => exact start group.ne_nil group.no_mark.1 _

/-- Groups hold no gap, and they do not end in a part of one. -/
theorem Groups.gapless (is : Groups mixed text groups) (rest : List Char) :
    splitOnce gap (text ++ rest) = (splitOnce gap rest).map fun (before, after) => (text ++ before, after) := by
  induction is with
  | last group => exact gap_word group.no_mark.1 rest
  | embedded => exact gap_word (writeV4_no_colon _ _ _ _) rest
  | @more piece later group groups first others ih =>
    obtain ⟨c, spelled, begins, other⟩ := others.head
    rw [List.append_assoc, gap_word first.no_mark.1, List.cons_append]
    rw [begins, List.cons_append] at ih ⊢
    rw [gap_single other, ih, Option.map_map, Option.map_map]
    congr 1
    funext found
    simp

theorem Groups.pure (is : Groups mixed text groups) (pointless : '.' ∉ text) : Groups false text groups := by
  induction is with
  | last group => exact .last group
  | @embedded a b c d =>
    refine absurd ?_ pointless
    simp [writeV4]
  | more first _ ih =>
    rw [List.mem_append, List.mem_cons, not_or, not_or] at pointless
    exact .more first (ih pointless.2.2)

theorem Groups.pointless (is : Groups false text groups) : '.' ∉ text := by
  induction is with
  | last group => exact group.no_mark.2
  | embedded mixed => cases mixed
  | more first _ ih =>
    rw [List.mem_append, List.mem_cons, not_or, not_or]
    exact ⟨first.no_mark.2, by decide, ih⟩

theorem Groups.mix (is : Groups mixed text groups) : Groups true text groups := by
  induction is with
  | last group => exact .last group
  | embedded => exact .embedded rfl
  | more first _ ih => exact .more first ih

theorem groupList_complete (is : Groups mixed text groups) : groupList? (separate ':' text) = some groups := by
  induction is with
  | @last text group is =>
    obtain ⟨colonless, pointless⟩ := is.no_mark
    rw [separate_piece colonless, groupList?, embedded?, octets_pointless pointless, group?_iff.mpr is]
    rfl
  | @embedded a b c d =>
    rw [separate_piece (writeV4_no_colon a b c d), groupList?, embedded?, octets_writeV4]
    rfl
  | @more piece rest group groups first _ ih =>
    rw [separate_append first.no_mark.1, groupList?, group?_iff.mpr first, ih]
    · rfl
    · exact separate_ne_nil ':' rest

theorem groupList_sound {pieces : List (List Char)} (some : pieces ≠ []) (read : groupList? pieces = .some groups) :
    Groups true ([':'].intercalate pieces) groups := by
  induction pieces generalizing groups with
  | nil => exact absurd rfl some
  | cons piece pieces ih =>
    cases pieces with
    | nil =>
      rw [groupList?] at read
      rw [List.intercalate_singleton]
      rcases Option.or_eq_some_iff.mp read with embedded | ⟨-, grouped⟩
      · obtain ⟨⟨a, b, c, d⟩, octets, same⟩ := Option.bind_eq_some_iff.mp embedded
        cases same
        rw [writeV4_of_octets? octets]
        exact .embedded rfl
      · obtain ⟨group, found, rfl⟩ := Option.map_eq_some_iff.mp grouped
        exact .last (group?_iff.mp found)
    | cons next pieces =>
      have others : next :: pieces ≠ [] := List.cons_ne_nil _ _
      rw [groupList?] at read
      · obtain ⟨group, first, read⟩ := Option.bind_eq_some_iff.mp read
        obtain ⟨later, rest, same⟩ := Option.bind_eq_some_iff.mp read
        cases same
        rw [List.intercalate_cons_of_ne_nil others]
        simpa using Groups.more (group?_iff.mp first) (ih others rest)
      · exact others

theorem groupList_iff : groupList? (separate ':' text) = some groups ↔ Groups true text groups := by
  constructor
  · intro read
    have sound := groupList_sound (separate_ne_nil ':' text) read
    rwa [intercalate_separate] at sound
  · exact groupList_complete

theorem side?_iff : side? text = some groups ↔ Side true text groups := by
  unfold side?
  split
  next empty =>
    obtain rfl := List.isEmpty_iff.mp empty
    constructor
    · rintro ⟨⟩
      exact .blank
    · intro is
      cases is with
      | blank => rfl
      | filled is =>
        obtain ⟨c, rest, spelled, -⟩ := is.head
        cases spelled
  next some =>
    rw [groupList_iff]
    constructor
    · exact .filled
    · intro is
      cases is with
      | blank => exact absurd rfl some
      | filled is => exact is

theorem front?_iff : front? text = some groups ↔ Side false text groups := by
  unfold front?
  split
  next point =>
    refine ⟨nofun, fun is => ?_⟩
    have inside : '.' ∈ text := List.contains_iff_mem.mp point
    cases is with
    | blank => cases inside
    | filled is => exact absurd inside is.pointless
  next pointless =>
    have pointless : '.' ∉ text := fun inside => pointless (List.contains_iff_mem.mpr inside)
    rw [side?_iff]
    constructor
    · intro is
      cases is with
      | blank => exact .blank
      | filled is => exact .filled (is.pure pointless)
    · intro is
      cases is with
      | blank => exact .blank
      | filled is => exact .filled is.mix

theorem Side.gapless {before : List Char} {front : List UInt16} (is : Side mixed before front) (after : List Char) :
    splitOnce gap (before ++ ':' :: ':' :: after) = some (before, after) := by
  have here : splitOnce gap (':' :: ':' :: after) = some ([], after) := gap_here after
  cases is with
  | blank => exact here
  | filled is => simp [is.gapless, here]

theorem groups?_iff : groups? text = some groups ↔ Spelled text groups := by
  unfold groups?
  rw [← gap]
  constructor
  · intro read
    split at read
    next => exact .full (groupList_iff.mp read)
    next before after cut =>
      obtain ⟨front, first, read⟩ := Option.bind_eq_some_iff.mp read
      obtain ⟨back, second, read⟩ := Option.bind_eq_some_iff.mp read
      rw [← splitOnce_some cut, gap, List.append_assoc]
      split at read
      next room =>
        cases read
        exact .gap (front?_iff.mp first) (side?_iff.mp second) (by omega) (by omega)
      next => cases read
  · intro is
    cases is with
    | full is =>
      have gapless := is.gapless []
      have none : splitOnce gap [] = none := rfl
      rw [List.append_nil, none, Option.map_none] at gapless
      rw [gapless]
      exact groupList_iff.mpr is
    | @gap before after front back zeros first second some full =>
      have room : front.length + back.length < 8 := by omega
      have left : 8 - front.length - back.length = zeros := by omega
      rw [first.gapless after]
      simp [front?_iff.mpr first, side?_iff.mpr second, room, left]

theorem Spelled.colon (is : Spelled text groups) (full : groups.length = 8) : ':' ∈ text := by
  cases is with
  | full is =>
    cases is with
    | last => cases full
    | embedded => cases full
    | more => simp
  | gap => simp

end groups

/-- A text is read as the address that it stands for, and only such texts are. -/
theorem read_iff {text : String} {address : Address} : Address.read? text = some address ↔ Denotes text.toList address := by
  rw [read?]
  generalize text.toList = text
  unfold readChars?
  constructor
  · intro read
    split at read
    next a b c d octets =>
      cases read
      rw [writeV4_of_octets? octets]
      exact .v4
    next =>
      obtain ⟨groups, spelled, made⟩ := Option.bind_eq_some_iff.mp read
      unfold ofGroups? at made
      split at made
      next full =>
        cases made
        exact .v6 (by simpa using groups?_iff.mp spelled)
      next => cases made
  · intro denotes
    cases denotes with
    | v4 => rw [octets_writeV4]
    | @v6 _ groups is =>
      have full : groups.toList.length = 8 := groups.length_toList
      have none : octets? text = none := by
        apply Option.eq_none_iff_forall_ne_some.mpr
        rintro ⟨a, b, c, d⟩ octets
        rw [writeV4_of_octets? octets] at is
        exact writeV4_no_colon a b c d (is.colon full)
      rw [none]
      simp only [groups?_iff.mpr is, Option.bind_some, ofGroups?, dif_pos full]
      rfl

end PeerPool.Proofs.AddressGrammar
