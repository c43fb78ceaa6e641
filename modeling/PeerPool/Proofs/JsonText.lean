import Mathlib.Data.List.TakeWhile
import Mathlib.Tactic.SplitIfs
import PeerPool.Json.Raw
import PeerPool.Json.Write
import PeerPool.Proofs.Numerals

/-! JSON texts as they are written, taken apart again. A string ends at the quote that is not escaped and a number where
none of its marks can follow, so every value is found where it stands, whatever comes after it. -/

namespace PeerPool.Proofs.JsonText
open Text Json RawJson Numerals

mutual

/-- A value as its text shows it. -/
def toRaw : Json → RawJson
  | .null => .null
  | .bool value => .bool value
  | .int value => .number (writeInt value)
  | .real mantissa exponent => .number (writeInt mantissa ++ 'e' :: writeInt exponent)
  | .str value => .string (value.toList.flatMap escape)
  | .arr items => .array (toRaws items)
  | .obj members => .object (toRawMembers members)

def toRaws : List Json → List RawJson
  | [] => []
  | item :: rest => toRaw item :: toRaws rest

def toRawMembers : List (String × Json) → List (List Char × RawJson)
  | [] => []
  | (name, value) :: rest => (name.toList.flatMap escape, toRaw value) :: toRawMembers rest

end

theorem toRaws_eq (items : List Json) : toRaws items = items.map toRaw := by
  induction items with
  | nil => rfl
  | cons item rest ih => rw [toRaws, ih, List.map_cons]

theorem toRawMembers_eq (members : List (String × Json)) :
    toRawMembers members = members.map fun member => (member.1.toList.flatMap escape, toRaw member.2) := by
  induction members with
  | nil => rfl
  | cons member rest ih => rw [toRawMembers, ih, List.map_cons]

section strings

theorem digitIn?_hexDigit : ∀ value < 16, digitIn? 16 (hexDigit value) = some value := by decide

/-- The ways a character stands in a string. -/
inductive Escaped (c : Char) : List Char → Prop where
  | short {mark : Char} : (mark, c) ∈ [('"', '"'), ('\\', '\\'), ('b', '\x08'), ('f', '\x0c'), ('n', '\n'), ('r', '\r'), ('t', '\t')] →
      Escaped c ['\\', mark]
  | code : c.toNat < 0x20 → Escaped c ['\\', 'u', '0', '0', hexDigit (c.toNat / 16), hexDigit (c.toNat % 16)]
  | plain : c ≠ '"' → c ≠ '\\' → ¬ c.toNat < 0x20 → Escaped c [c]

theorem escaped (c : Char) : Escaped c (escape c) := by
  unfold escape
  split_ifs with quote backslash backspace feed newline carriage tab control
  · exact .short (by simp [quote])
  · exact .short (by simp [backslash])
  · exact .short (by simp [backspace])
  · exact .short (by simp [feed])
  · exact .short (by simp [newline])
  · exact .short (by simp [carriage])
  · exact .short (by simp [tab])
  · exact .code control
  · exact .plain quote backslash control

theorem scanString_escape (c : Char) (rest : List Char) :
    scanString (escape c ++ rest) = (scanString rest).map fun (body, after) => (escape c ++ body, after) := by
  generalize spelled : escape c = text
  have kind := spelled ▸ escaped c
  cases kind with
  | short member =>
    simp only [List.mem_cons, Prod.mk.injEq, List.not_mem_nil, or_false] at member
    rcases member with ⟨rfl, -⟩ | ⟨rfl, -⟩ | ⟨rfl, -⟩ | ⟨rfl, -⟩ | ⟨rfl, -⟩ | ⟨rfl, -⟩ | ⟨rfl, -⟩ <;> rfl
  | code control =>
    have high : c.toNat / 16 < 16 := by omega
    have low : c.toNat % 16 < 16 := by omega
    have zero : digitIn? 16 '0' = some 0 := by decide
    simp [scanString, digitIn?_hexDigit, high, low, zero]
  | plain quote backslash control =>
    rw [List.singleton_append, scanString]
    · simp [backslash, control]
    · exact quote
    · simp [backslash]
    · simp [backslash]

/-- A string ends where it was closed. -/
theorem scanString_closed (text rest : List Char) :
    scanString (text.flatMap escape ++ '"' :: rest) = some (text.flatMap escape, rest) := by
  induction text with
  | nil => rfl
  | cons c text ih => simp [List.flatMap_cons, List.append_assoc, scanString_escape, ih]

/-- A unit that is none is refused, whatever follows it. -/
theorem unescape_unit_none {a b c d : Char} (none : hex4? a b c d = none) (rest : List Char) :
    unescape? ('\\' :: 'u' :: a :: b :: c :: d :: rest) = .none := by
  by_cases pair : ∃ e f g h tail, rest = '\\' :: 'u' :: e :: f :: g :: h :: tail
  · obtain ⟨e, f, g, h, tail, rfl⟩ := pair
    rw [unescape?, none]
  · rw [unescape?, none]
    · rfl
    · exact fun e f g h tail same => pair ⟨e, f, g, h, tail, same⟩

/-- A unit that is no half of a pair stands for a character, whatever follows it. -/
theorem unescape_unit {digit a b d c : Char} {code : Nat} (hex : hex4? digit a b d = some code) (whole : isHighHalf code = false)
    (stands : charOf? code = some c) (rest : List Char) :
    unescape? ('\\' :: 'u' :: digit :: a :: b :: d :: rest) = (unescape? rest).map (c :: ·) := by
  rw [Option.map_eq_bind]
  by_cases pair : ∃ e f g h tail, rest = '\\' :: 'u' :: e :: f :: g :: h :: tail
  · obtain ⟨e, f, g, h, tail, rfl⟩ := pair
    rw [unescape?, hex]
    cases next : hex4? e f g h with
    | none => rw [unescape_unit_none next]; rfl
    | some other => simp only [whole, stands, Bool.false_eq_true, if_false]; rfl
  · rw [unescape?, hex]
    · simp only [Option.bind_eq_bind, Option.bind_some, stands]; rfl
    · exact fun e f g h tail same => pair ⟨e, f, g, h, tail, same⟩

theorem unescape_escape (c : Char) (rest : List Char) : unescape? (escape c ++ rest) = (unescape? rest).map (c :: ·) := by
  generalize spelled : escape c = text
  have kind := spelled ▸ escaped c
  cases kind with
  | short member =>
    rw [Option.map_eq_bind]
    simp only [List.mem_cons, Prod.mk.injEq, List.not_mem_nil, or_false] at member
    rcases member with ⟨rfl, rfl⟩ | ⟨rfl, rfl⟩ | ⟨rfl, rfl⟩ | ⟨rfl, rfl⟩ | ⟨rfl, rfl⟩ | ⟨rfl, rfl⟩ | ⟨rfl, rfl⟩ <;>
    · rw [List.cons_append, List.singleton_append, unescape?]
      · rfl
      · simp
      · simp
  | code control =>
    have high : c.toNat / 16 < 16 := by omega
    have low : c.toNat % 16 < 16 := by omega
    have hex : hex4? '0' '0' (hexDigit (c.toNat / 16)) (hexDigit (c.toNat % 16)) = some c.toNat := by
      have zero : digitIn? 16 '0' = some 0 := by decide
      simp only [hex4?, digitsFrom?, zero, digitIn?_hexDigit _ high, digitIn?_hexDigit _ low, Option.some.injEq]
      omega
    have whole : isHighHalf c.toNat = false := by
      simp only [isHighHalf, Bool.and_eq_false_iff, decide_eq_false_iff_not]
      omega
    have stands : charOf? c.toNat = some c := by
      have valid : c.toNat.isValidChar := c.valid
      rw [charOf?, if_pos valid, Char.ofNat_toNat]
    exact unescape_unit hex whole stands rest
  | plain quote backslash control =>
    rw [List.singleton_append, unescape?, Option.map_eq_bind]
    · rfl
    · exact fun _ _ _ _ _ _ _ _ _ same => absurd same backslash
    · exact fun _ _ _ _ _ same => absurd same backslash
    · exact fun _ _ same => absurd same backslash

/-- What a text is read back as. -/
theorem text?_flatMap (text : String) : text? (text.toList.flatMap escape) = some text := by
  have whole (text : List Char) : unescape? (text.flatMap escape) = some text := by
    induction text with
    | nil => rw [List.flatMap_nil, unescape?]
    | cons c text ih => rw [List.flatMap_cons, unescape_escape, ih, Option.map_some]
  rw [text?, whole, Option.map_some, String.ofList_toList]

end strings

section numbers

/-- What can stand behind a value. -/
def Closed (text : List Char) : Prop := ∀ c ∈ text.head?, c = ',' ∨ c = ']' ∨ c = '\x7d'

theorem isDigit_digitChar : ∀ digit < 10, isDigit digit.digitChar = true := by decide

theorem isDigit_decimal {value : Nat} {c : Char} (member : c ∈ decimal value) : isDigit c = true := by
  obtain ⟨digit, small, rfl⟩ := mem_toDigits (by decide) member
  exact isDigit_digitChar digit small

theorem decimal_ne_mark {mark : Char} (other : isDigit mark = false) (value : Nat) (text later : List Char) :
    decimal value ++ text ≠ mark :: later := by
  intro same
  obtain ⟨c, digits, spelled, -⟩ := decimal_leading value
  have digit : isDigit c = true := isDigit_decimal (spelled ▸ List.mem_cons_self)
  rw [spelled] at same
  rw [(List.cons.inj same).1, other] at digit
  exact Bool.false_ne_true digit

variable {rest : List Char}

/-- The digits of a number end where no digit goes on. -/
theorem digits_decimal (value : Nat) (ends : ∀ c ∈ rest.head?, isDigit c = false) :
    (decimal value ++ rest).takeWhile isDigit = decimal value ∧ (decimal value ++ rest).dropWhile isDigit = rest := by
  have digits : ∀ c ∈ decimal value, isDigit c = true := fun _ => isDigit_decimal
  have taken : rest.takeWhile isDigit = [] ∧ rest.dropWhile isDigit = rest := by
    cases rest with
    | nil => exact ⟨rfl, rfl⟩
    | cons c rest => simp [ends c rfl]
  constructor
  · rw [List.takeWhile_append_of_pos digits, taken.1, List.append_nil]
  · rw [List.dropWhile_append_of_pos digits, taken.2]

theorem scanDigits_decimal (value : Nat) (ends : ∀ c ∈ rest.head?, isDigit c = false) :
    scanDigits (decimal value ++ rest) = some (decimal value, rest) := by
  obtain ⟨taken, dropped⟩ := digits_decimal value ends
  have some : (decimal value).isEmpty = false := by simp [decimal]
  rw [scanDigits, taken, dropped, some, if_neg Bool.false_ne_true]

theorem scanWhole_decimal (value : Nat) (ends : ∀ c ∈ rest.head?, isDigit c = false) :
    scanWhole (decimal value ++ rest) = some (decimal value, rest) := by
  obtain ⟨c, digits, spelled, leads⟩ := decimal_leading value
  by_cases zero : c = '0'
  · obtain rfl := leads zero
    have alone : rest.head?.any isDigit = false := by
      cases rest with
      | nil => rfl
      | cons c rest => exact ends c rfl
    have single : decimal 0 = ['0'] := rfl
    rw [single, List.singleton_append, scanWhole, alone]
    rfl
  · rw [scanWhole]
    · exact scanDigits_decimal value ends
    · intro later same
      rw [spelled] at same
      exact zero (List.cons.inj same).1

/-- A number goes on with its exponent, or it is at its end. -/
theorem scanUnsigned_decimal {text exponent : List Char} (value : Nat) (goes : ∀ c ∈ text.head?, isDigit c = false ∧ c ≠ '.')
    (scanned : scanExponent text = some (exponent, rest)) :
    scanUnsigned (decimal value ++ text) = some (decimal value ++ exponent, rest) := by
  have whole := scanWhole_decimal value fun c first => (goes c first).1
  have fraction : scanFraction text = some ([], text) := by
    rw [scanFraction]
    intro digits same
    exact (goes '.' (by rw [same]; rfl)).2 rfl
  simp [scanUnsigned, whole, fraction, scanned]

theorem scanNumber_writeInt {text exponent : List Char} (value : Int) (goes : ∀ c ∈ text.head?, isDigit c = false ∧ c ≠ '.')
    (scanned : scanExponent text = some (exponent, rest)) :
    scanNumber (writeInt value ++ text) = some (writeInt value ++ exponent, rest) := by
  have unsigned := scanUnsigned_decimal value.natAbs goes scanned
  unfold writeInt
  split
  · rw [List.cons_append, scanNumber, unsigned]
    rfl
  · rw [scanNumber]
    · exact unsigned
    · exact decimal_ne_mark (by decide) _ _

variable (closed : Closed rest)
include closed

theorem Closed.ends : ∀ c ∈ rest.head?, isDigit c = false ∧ c ≠ '.' ∧ c ≠ 'e' ∧ c ≠ 'E' := by
  intro c first
  rcases closed c first with rfl | rfl | rfl <;> decide

theorem Closed.no_exponent : scanExponent rest = some ([], rest) := by
  cases rest with
  | nil => rfl
  | cons c rest =>
    obtain ⟨-, -, small, large⟩ := closed.ends c rfl
    simp [scanExponent, small, large]

theorem scanNumber_int (value : Int) : scanNumber (writeInt value ++ rest) = some (writeInt value, rest) := by
  have scanned := scanNumber_writeInt value (fun c first => ⟨(closed.ends c first).1, (closed.ends c first).2.1⟩) closed.no_exponent
  rwa [List.append_nil] at scanned

theorem scanNumber_real (mantissa exponent : Int) :
    scanNumber (writeInt mantissa ++ 'e' :: writeInt exponent ++ rest) = some (writeInt mantissa ++ 'e' :: writeInt exponent, rest) := by
  have digits := scanDigits_decimal exponent.natAbs fun c first => (closed.ends c first).1
  have scanned : scanExponent ('e' :: writeInt exponent ++ rest) = some ('e' :: writeInt exponent, rest) := by
    unfold writeInt
    split
    · simp [scanExponent, digits]
    · rw [List.cons_append, scanExponent]
      · simp [digits]
      · exact decimal_ne_mark (by decide) _ _
      · exact decimal_ne_mark (by decide) _ _
  rw [List.append_assoc]
  exact scanNumber_writeInt mantissa (by simp; decide) scanned

end numbers

section values

theorem skipSpace_cons {c : Char} (shown : isSpace c = false) (rest : List Char) : skipSpace (c :: rest) = c :: rest := by
  simp [skipSpace, shown]

theorem number_ne {c mark : Char} (begins : c = '-' ∨ isDigit c = true) (other : mark ≠ '-' ∧ isDigit mark = false) : c ≠ mark := by
  rintro rfl
  rcases begins with minus | digit
  · exact other.1 minus
  · exact Bool.false_ne_true (other.2.symm.trans digit)

theorem number_shown {c : Char} (begins : c = '-' ∨ isDigit c = true) : isSpace c = false := by
  have space : c ≠ ' ' := number_ne begins (by decide)
  have tab : c ≠ '\t' := number_ne begins (by decide)
  have newline : c ≠ '\n' := number_ne begins (by decide)
  have carriage : c ≠ '\r' := number_ne begins (by decide)
  simp [isSpace, space, tab, newline, carriage]

theorem writeInt_begins (value : Int) : ∃ c text, writeInt value = c :: text ∧ (c = '-' ∨ isDigit c = true) := by
  unfold writeInt
  split
  · exact ⟨'-', _, rfl, .inl rfl⟩
  · obtain ⟨c, text, spelled, -⟩ := decimal_leading value.natAbs
    exact ⟨c, text, spelled, .inr (isDigit_decimal (spelled ▸ List.mem_cons_self))⟩

/-- A value that begins as a number does is read as one. -/
theorem scanValue_writeInt (value : Int) {text lexeme after : List Char}
    (scanned : scanNumber (writeInt value ++ text) = some (lexeme, after)) (fuel : Nat) :
    scanValue (fuel + 1) (writeInt value ++ text) = some (.number lexeme, after) := by
  obtain ⟨c, digits, spelled, begins⟩ := writeInt_begins value
  rw [spelled, List.cons_append] at scanned ⊢
  rw [scanValue, skipSpace_cons (number_shown begins)]
  -- Every other kind of value begins with a mark of its own.
  split
  case h_7 => rw [scanned, Option.map_some]
  all_goals
    next same => exact absurd (List.cons.inj same).1 (number_ne begins (by decide))

theorem scanName_writeString (name : String) (rest : List Char) :
    scanName (writeString name ++ ':' :: rest) = some (name.toList.flatMap escape, rest) := by
  have colon : isSpace ':' = false := by decide
  have quote : isSpace '"' = false := by decide
  have closed : scanString (name.toList.flatMap escape ++ '"' :: ':' :: rest) = some (name.toList.flatMap escape, ':' :: rest) :=
    scanString_closed _ _
  simp [scanName, writeString, skipSpace_cons quote, closed, skipSpace_cons colon]

/-- A value does not begin as an array ends. -/
theorem writeChars_begins (json : Json) : ∃ c text, writeChars json = c :: text ∧ isSpace c = false ∧ c ≠ ']' := by
  have number (value : Int) (more : List Char) : ∃ c text, writeInt value ++ more = c :: text ∧ isSpace c = false ∧ c ≠ ']' := by
    obtain ⟨c, text, spelled, begins⟩ := writeInt_begins value
    refine ⟨c, text ++ more, ?_, number_shown begins, number_ne begins (by decide)⟩
    rw [spelled, List.cons_append]
  cases json with
  | null => exact ⟨_, _, rfl, by decide⟩
  | bool value => cases value <;> exact ⟨_, _, rfl, by decide⟩
  | int value => simpa [writeChars] using number value []
  | real mantissa exponent => simpa [writeChars] using number mantissa ('e' :: writeInt exponent)
  | str value => exact ⟨_, _, rfl, by decide⟩
  | arr items => exact ⟨_, _, rfl, by decide⟩
  | obj members => exact ⟨_, _, rfl, by decide⟩

theorem writeItems_begins (item : Json) (later : List Json) (rest : List Char) :
    ∃ c text, skipSpace (writeItems (item :: later) ++ rest) = c :: text ∧ c ≠ ']' := by
  obtain ⟨c, text, spelled, shown, bracket⟩ := writeChars_begins item
  obtain ⟨more, spelled⟩ : ∃ more, writeItems (item :: later) = c :: more := by
    cases later with
    | nil => exact ⟨text, by rw [writeItems, spelled]⟩
    | cons next later => exact ⟨text ++ ',' :: writeItems (next :: later), by simp [writeItems, spelled]⟩
  exact ⟨c, more ++ rest, by rw [spelled, List.cons_append, skipSpace_cons shown], bracket⟩

theorem writeMembers_begins (member : String × Json) (later : List (String × Json)) (rest : List Char) :
    ∃ text, skipSpace (writeMembers (member :: later) ++ rest) = '"' :: text := by
  cases later <;> exact ⟨_, rfl⟩

theorem closed_cons {c : Char} (closes : c = ',' ∨ c = ']' ∨ c = '\x7d') (rest : List Char) : Closed (c :: rest) := by
  intro first member
  cases member
  exact closes

-- By induction over the value. Its text is fuel enough: the brackets around items or members pay for the two steps that lead
-- from a value to those inside it.
mutual

theorem scanValue_write (json : Json) {fuel : Nat} {rest : List Char} (closed : Closed rest)
    (enough : (writeChars json).length < fuel) : scanValue fuel (writeChars json ++ rest) = some (toRaw json, rest) := by
  obtain ⟨fuel, rfl⟩ := Nat.exists_eq_add_of_lt (Nat.zero_lt_of_lt enough)
  rw [Nat.zero_add] at enough ⊢
  cases json with
  | null => rfl
  | bool value => cases value <;> rfl
  | int value =>
    rw [writeChars, toRaw]
    exact scanValue_writeInt value (scanNumber_int closed value) fuel
  | real mantissa exponent =>
    have scanned := scanNumber_real closed mantissa exponent
    rw [writeChars, toRaw]
    rw [List.append_assoc] at scanned ⊢
    exact scanValue_writeInt mantissa scanned fuel
  | str value =>
    have quote : isSpace '"' = false := by decide
    have scanned := scanString_closed value.toList rest
    simp [writeChars, writeString, toRaw, scanValue, skipSpace_cons quote, scanned]
  | arr items =>
    cases items with
    | nil => rfl
    | cons item later =>
      have bracket : isSpace '[' = false := by decide
      have within : (writeItems (item :: later)).length + 1 < fuel := by
        simp only [writeChars, List.length_append, List.length_cons, List.length_nil] at enough
        omega
      have scanned := scanItems_write (item :: later) rest rfl within
      obtain ⟨c, text, begins, bracketless⟩ := writeItems_begins item later (']' :: rest)
      simp [writeChars, toRaw, scanValue, skipSpace_cons bracket, scanned, begins, bracketless]
  | obj members =>
    cases members with
    | nil => rfl
    | cons member later =>
      have brace : isSpace '\x7b' = false := by decide
      have within : (writeMembers (member :: later)).length + 1 < fuel := by
        simp only [writeChars, List.length_append, List.length_cons, List.length_nil] at enough
        omega
      have scanned := scanMembers_write (member :: later) rest rfl within
      obtain ⟨text, begins⟩ := writeMembers_begins member later ('\x7d' :: rest)
      simp [writeChars, toRaw, scanValue, skipSpace_cons brace, scanned, begins]

theorem scanItems_write (items : List Json) {fuel : Nat} (rest : List Char) (some : items.isEmpty = false)
    (enough : (writeItems items).length + 1 < fuel) :
    scanItems fuel (writeItems items ++ ']' :: rest) = .some (toRaws items, rest) := by
  obtain ⟨fuel, rfl⟩ := Nat.exists_eq_add_of_lt (Nat.zero_lt_of_lt enough)
  rw [Nat.zero_add] at enough ⊢
  match items with
  | [item] =>
    have within : (writeChars item).length < fuel := by
      rw [writeItems] at enough
      omega
    have scanned := scanValue_write item (closed_cons (.inr (.inl rfl)) rest) within
    have bracket : isSpace ']' = false := by decide
    simp [writeItems, scanItems, scanned, skipSpace_cons bracket, toRaws]
  | item :: next :: later =>
    have within : (writeChars item).length < fuel ∧ (writeItems (next :: later)).length + 1 < fuel := by
      simp only [writeItems, List.length_append, List.length_cons] at enough
      omega
    have scanned := scanValue_write item (closed_cons (.inl rfl) (writeItems (next :: later) ++ ']' :: rest)) within.1
    have others := scanItems_write (next :: later) rest rfl within.2
    have comma : isSpace ',' = false := by decide
    simp [writeItems, scanItems, scanned, skipSpace_cons comma, others, toRaws]

theorem scanMembers_write (members : List (String × Json)) {fuel : Nat} (rest : List Char) (some : members.isEmpty = false)
    (enough : (writeMembers members).length + 1 < fuel) :
    scanMembers fuel (writeMembers members ++ '\x7d' :: rest) = .some (toRawMembers members, rest) := by
  obtain ⟨fuel, rfl⟩ := Nat.exists_eq_add_of_lt (Nat.zero_lt_of_lt enough)
  rw [Nat.zero_add] at enough ⊢
  match members with
  | [(name, value)] =>
    have within : (writeChars value).length < fuel := by
      simp only [writeMembers, List.length_append, List.length_cons] at enough
      omega
    have scanned := scanValue_write value (closed_cons (.inr (.inr rfl)) rest) within
    have brace : isSpace '\x7d' = false := by decide
    have named := scanName_writeString name (writeChars value ++ '\x7d' :: rest)
    simp [writeMembers, scanMembers, named, scanned, skipSpace_cons brace, toRawMembers]
  | (name, value) :: next :: later =>
    have within : (writeChars value).length < fuel ∧ (writeMembers (next :: later)).length + 1 < fuel := by
      simp only [writeMembers, List.length_append, List.length_cons] at enough
      omega
    have scanned := scanValue_write value (closed_cons (.inl rfl) (writeMembers (next :: later) ++ '\x7d' :: rest)) within.1
    have others := scanMembers_write (next :: later) rest rfl within.2
    have comma : isSpace ',' = false := by decide
    have named := scanName_writeString name (writeChars value ++ ',' :: (writeMembers (next :: later) ++ '\x7d' :: rest))
    simp [writeMembers, scanMembers, named, scanned, skipSpace_cons comma, others, toRawMembers]

end

/-- What is written is taken apart into the same parts. -/
theorem ofText_write (json : Json) : RawJson.ofText? json.write.toList = some (toRaw json) := by
  have ended : Closed [] := nofun
  have scanned := scanValue_write json ended (Nat.lt_succ_self _)
  rw [List.append_nil] at scanned
  rw [write, String.toList_ofList, RawJson.ofText?, scanned]
  rfl

end values

section reading

theorem parts_decimal (value : Nat) {text : List Char} (goes : ∀ c ∈ text.head?, isDigit c = false ∧ c ≠ '.') :
    Decimal.parts (decimal value ++ text) = (decimal value, [], text) := by
  obtain ⟨taken, dropped⟩ := digits_decimal value fun c first => (goes c first).1
  unfold Decimal.parts
  rw [taken, dropped]
  split
  next => exact absurd rfl (goes '.' rfl).2
  next => rfl

theorem decimal_read (value : Nat) {text : List Char} {exponent : Int} (goes : ∀ c ∈ text.head?, isDigit c = false ∧ c ≠ '.')
    (found : Decimal.exponent? text = some exponent) : Decimal.read? (decimal value ++ text) = some ⟨value, exponent⟩ := by
  simp [Decimal.read?, parts_decimal value goes, natural?_decimal, found]

theorem exponent?_writeInt (value : Int) : Decimal.exponent? ('e' :: writeInt value) = some value := by
  have unsigned {mark : Char} (other : isDigit mark = false) (later : List Char) : decimal value.natAbs ≠ mark :: later := by
    rw [← List.append_nil (decimal value.natAbs)]
    exact decimal_ne_mark other _ _ _
  unfold writeInt
  split
  next negative =>
    have signed : -(value.natAbs : Int) = value := by omega
    rw [Decimal.exponent?, natural?_decimal]
    exact congrArg some signed
  next positive =>
    have signed : (value.natAbs : Int) = value := by omega
    rw [Decimal.exponent?, natural?_decimal]
    · exact congrArg some signed
    · exact unsigned (by decide)
    · exact unsigned (by decide)

/-- A number is whole unless it goes on behind its digits, and its sign is kept. -/
theorem number?_writeInt (value : Int) {text : List Char} {exponent : Int} (goes : ∀ c ∈ text.head?, isDigit c = false ∧ c ≠ '.')
    (found : Decimal.exponent? text = some exponent) : number? (writeInt value ++ text) =
      if text.all isDigit && -Int.pow 2 63 ≤ value && value < Int.pow 2 64 then some (.int value)
      else if Decimal.exceedsDouble ⟨value.natAbs, exponent⟩ then none else some (.real value exponent) := by
  have read := decimal_read value.natAbs goes found
  have digits : (decimal value.natAbs).all isDigit = true := List.all_eq_true.mpr fun _ => isDigit_decimal
  unfold number?
  generalize Int.pow 2 63 = low, Int.pow 2 64 = high
  by_cases negative : value < 0
  · have signed : -(value.natAbs : Int) = value := by omega
    have nonzero : value.natAbs ≠ 0 := by omega
    rw [writeInt, if_pos negative]
    simp only [List.cons_append, read, List.all_append, digits, signed, nonzero, decide_false, Bool.and_false, Bool.not_false,
      Bool.true_and, Bool.and_true, if_true]
  · have signed : (value.natAbs : Int) = value := by omega
    rw [writeInt, if_neg negative]
    split
    next minus lexeme same =>
      split at same
      next later marked => exact absurd marked (decimal_ne_mark (by decide) _ _ _)
      next =>
        cases same
        simp only [read, List.all_append, digits, signed, Bool.false_and, Bool.not_false, Bool.true_and, Bool.and_true,
          Bool.false_eq_true, if_false]

theorem number?_int {value : Int} (low : -Int.pow 2 63 ≤ value) (high : value < Int.pow 2 64) :
    number? (writeInt value) = some (.int value) := by
  have read := @number?_writeInt value [] 0 nofun rfl
  rw [List.append_nil] at read
  rw [read, if_pos]
  simp only [List.all_nil, Bool.true_and, Bool.and_eq_true, decide_eq_true_eq]
  exact ⟨low, high⟩

theorem number?_real {mantissa exponent : Int} (fits : Decimal.exceedsDouble ⟨mantissa.natAbs, exponent⟩ = false) :
    number? (writeInt mantissa ++ 'e' :: writeInt exponent) = some (.real mantissa exponent) := by
  have goes : ∀ c ∈ ('e' :: writeInt exponent).head?, isDigit c = false ∧ c ≠ '.' := by simp; decide
  have broken : ('e' :: writeInt exponent).all isDigit = false := rfl
  rw [number?_writeInt mantissa goes (exponent?_writeInt exponent), broken, fits]
  rfl

/-- A value that can be read back: its whole numbers fit in a machine word and its others in a double, and it is nested no
deeper than that. -/
def Readable (depth : Nat) : Json → Prop
  | .int value => -Int.pow 2 63 ≤ value ∧ value < Int.pow 2 64
  | .real mantissa exponent => Decimal.exceedsDouble ⟨mantissa.natAbs, exponent⟩ = false
  | .arr items =>
    match depth with
    | 0 => False
    | depth + 1 => ∀ item ∈ items, Readable depth item
  | .obj members =>
    match depth with
    | 0 => False
    | depth + 1 => ∀ member ∈ members, Readable depth member.2
  | _ => True

theorem values?_toRaws {depth : Nat} {items : List Json}
    (each : ∀ item ∈ items, value? depth (toRaw item) = some item) : values? depth (toRaws items) = some items := by
  induction items with
  | nil => rfl
  | cons item items ih =>
    obtain ⟨first, others⟩ := List.forall_mem_cons.mp each
    simp [toRaws, values?, first, ih others]

theorem memberValues?_toRawMembers {depth : Nat} {members : List (String × Json)}
    (each : ∀ member ∈ members, value? depth (toRaw member.2) = some member.2) :
    memberValues? depth (toRawMembers members) = some members := by
  induction members with
  | nil => rfl
  | cons member members ih =>
    obtain ⟨first, others⟩ := List.forall_mem_cons.mp each
    simp [toRawMembers, memberValues?, text?_flatMap, first, ih others]

theorem value?_toRaw {depth : Nat} {json : Json} (readable : Readable depth json) : value? depth (toRaw json) = some json := by
  cases json with
  | null => rfl
  | bool value => rfl
  | int value =>
    rw [Readable] at readable
    rw [toRaw, value?, number?_int readable.1 readable.2]
  | real mantissa exponent =>
    rw [Readable] at readable
    rw [toRaw, value?, number?_real readable]
  | str value => rw [toRaw, value?, text?_flatMap, Option.map_some]
  | arr items =>
    cases depth with
    | zero => exact readable.elim
    | succ depth =>
      rw [Readable] at readable
      have each : ∀ item ∈ items, value? depth (toRaw item) = some item := fun item member => value?_toRaw (readable item member)
      rw [toRaw, value?, values?_toRaws each, Option.map_some]
  | obj members =>
    cases depth with
    | zero => exact readable.elim
    | succ depth =>
      rw [Readable] at readable
      have each : ∀ member ∈ members, value? depth (toRaw member.2) = some member.2 :=
        fun member inside => value?_toRaw (readable member inside)
      rw [toRaw, value?, memberValues?_toRawMembers each, Option.map_some]

/-- A value that is written is read back, if it can be. -/
theorem read_write {json : Json} (readable : Readable depthLimit json) : Json.read? json.write = some json := by
  simp [Json.read?, ofText_write, value?_toRaw readable]

end reading

end PeerPool.Proofs.JsonText
