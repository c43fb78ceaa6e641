import Mathlib.Algebra.Group.Nat.Defs
import PeerPool.Proofs.Numerals
import PeerPool.Proofs.YamlCharacters
import PeerPool.Yaml.Token.FlowScalar

/-! Every text reads back from double quotes: each character that is not written as it is
has an escape that denotes it. -/

namespace PeerPool.Proofs.YamlDouble
open Yaml YamlCharacters Numerals

/-- A number below 16, as the writer spells it. -/
def hexDigit (digit : Nat) : Char := Char.ofNat (if digit < 10 then 48 + digit else 55 + digit)

theorem digitIn?_hexDigit : ∀ digit < 16, Text.digitIn? 16 (hexDigit digit) = some digit := by decide

theorem digitsFrom?_hexDigits (width value before : Nat) (fits : value < 16 ^ width) :
    Text.digitsFrom? 16 before (hexDigits width value) = some (before * 16 ^ width + value) := by
  induction width generalizing value with
  | zero => simp_all [hexDigits, Text.digitsFrom?]
  | succ width ih =>
    have smaller : value / 16 < 16 ^ width := by
      rw [Nat.pow_succ] at fits
      omega
    have digit := digitIn?_hexDigit (value % 16) (Nat.mod_lt _ (by decide))
    rw [hexDigits, digitsFrom?_append, ih _ smaller, Option.bind_some, ← hexDigit]
    simp only [Text.digitsFrom?, digit, Option.some.injEq]
    rw [Nat.pow_succ, ← Nat.mul_assoc]
    omega

theorem charOfDigits?_hexDigits (c : Char) (width : Nat) (fits : c.toNat < 16 ^ width) :
    charOfDigits? (hexDigits width c.toNat) = some c := by
  have valid : c.toNat.isValidChar := c.valid
  simp [charOfDigits?, digitsFrom?_hexDigits width c.toNat 0 fits, valid]

/-- The reader knows every escape of the writer that is not spelled in digits. -/
theorem named_escape {c name : Char} (named : namedEscapes.lookup c = some name) :
    shortEscapes.lookup name = some c ∧ isBreak name = false ∧ name ≠ 'x' ∧ name ≠ 'u' ∧ name ≠ 'U' := by
  have all : ∀ entry ∈ namedEscapes, shortEscapes.lookup entry.2 = some entry.1 ∧ isBreak entry.2 = false ∧
      entry.2 ≠ 'x' ∧ entry.2 ≠ 'u' ∧ entry.2 ≠ 'U' := by decide
  obtain ⟨before, after, same, -⟩ := List.lookup_eq_some_iff.mp named
  exact all (c, name) (by rw [same]; simp)

theorem scanDouble_blank {gap : Gap} {multiline : Bool} {column : Nat} {c : Char} {rest : List Char}
    (blank : isGap c = true) : scanDouble gap multiline column (c :: rest) =
      scanDouble (gap.push c) (multiline || isBreak c) (columnAfter column c) rest := by
  have quote : c ≠ '"' := by
    rintro rfl
    exact absurd blank (by decide)
  have slash : c ≠ '\\' := by
    rintro rfl
    exact absurd blank (by decide)
  rw [scanDouble] <;> simp [quote, slash, blank]

theorem scanDouble_word {gap : Gap} {multiline : Bool} {column : Nat} {c : Char} {rest : List Char}
    (word : isGap c = false) (quote : c ≠ '"') (slash : c ≠ '\\') (inside : 0 < column) :
    scanDouble gap multiline column (c :: rest) =
      (scanDouble .none multiline (column + 1) rest).map (.prepend (gap.fold ++ [c])) := by
  rw [scanDouble] <;> simp [quote, slash, word, Nat.ne_of_gt inside]

theorem scanDouble_named {gap : Gap} {multiline : Bool} {column : Nat} {c name : Char} {rest : List Char}
    (named : namedEscapes.lookup c = some name) :
    scanDouble gap multiline column ('\\' :: name :: rest) =
      (scanDouble .none multiline (column + 2) rest).map (.prepend (gap.fold ++ [c])) := by
  obtain ⟨back, line, short, medium, long⟩ := named_escape named
  rw [scanDouble] <;> simp [short, medium, long, line, back]

theorem hexDigits_length (width value : Nat) : (hexDigits width value).length = width := by
  induction width generalizing value with
  | zero => rfl
  | succ width ih => simp [hexDigits, ih]

/-- An escape, or a character that needs none, denotes what was escaped. -/
theorem scanDouble_escape {gap : Gap} {multiline : Bool} {column : Nat} {c : Char} {rest : List Char}
    (word : c ≠ ' ') (inside : 0 < column) :
    scanDouble gap multiline column (escape c ++ rest) =
      (scanDouble .none multiline (column + (escape c).length) rest).map (.prepend (gap.fold ++ [c])) := by
  unfold escape
  split
  next plain =>
    simp only [Bool.and_eq_true, Bool.not_eq_true', bne_iff_ne] at plain
    obtain ⟨⟨⟨printable, noBreak⟩, quote⟩, slash⟩ := plain
    have notGap : isGap c = false := by simp [isGap, isBlank, noBreak, word, (not_special printable).1]
    exact scanDouble_word notGap quote slash inside
  next =>
    split
    next name named => exact scanDouble_named named
    next =>
      split
      next small =>
        have digits := charOfDigits?_hexDigits c 2 (by omega)
        have spelled : hexDigits 2 c.toNat = [hexDigit (c.toNat / 16 % 16), hexDigit (c.toNat % 16)] := rfl
        rw [spelled] at digits ⊢
        simp [scanDouble, digits]
      next =>
        split
        next medium =>
          have digits := charOfDigits?_hexDigits c 4 (by omega)
          have spelled : ∃ a b d e, hexDigits 4 c.toNat = [a, b, d, e] := ⟨_, _, _, _, rfl⟩
          obtain ⟨a, b, d, e, spelled⟩ := spelled
          rw [spelled] at digits ⊢
          simp [scanDouble, digits]
        next =>
          have digits := charOfDigits?_hexDigits c 8 c.val.toNat_lt
          have spelled : ∃ a b d e f g h i, hexDigits 8 c.toNat = [a, b, d, e, f, g, h, i] :=
            ⟨_, _, _, _, _, _, _, _, rfl⟩
          obtain ⟨a, b, d, e, f, g, h, i, spelled⟩ := spelled
          rw [spelled] at digits ⊢
          simp [scanDouble, digits]

theorem escape_space : escape ' ' = [' '] := by decide

/-- What is left of a text in double quotes, behind blanks that are part of it. -/
theorem scanDouble_from (text follow blanks : List Char) (column : Nat) (inside : 0 < column) :
    scanDouble (.blanks blanks) false column (text.flatMap escape ++ '"' :: follow) =
      some ⟨blanks ++ text, false, false, column + (text.flatMap escape).length + 1, follow⟩ := by
  induction text generalizing blanks column with
  | nil => simp [scanDouble, Gap.fold]
  | cons c rest ih =>
    rw [List.flatMap_cons, List.append_assoc]
    by_cases space : c = ' '
    · subst space
      rw [escape_space, List.singleton_append, scanDouble_blank (by decide)]
      have next := ih (blanks ++ [' ']) (column + 1) (Nat.succ_pos column)
      rw [List.append_assoc, List.singleton_append] at next
      refine Eq.trans (next : _ = _) ?_
      simp only [List.singleton_append, List.length_cons, Option.some.injEq, Scanned.mk.injEq, true_and, and_true]
      omega
    · rw [scanDouble_escape space inside, show Gap.none = .blanks [] from rfl,
        ih [] _ (Nat.lt_of_lt_of_le inside (Nat.le_add_right _ _))]
      simp only [Option.map_some, Scanned.prepend, Gap.fold, List.nil_append, List.append_assoc, List.singleton_append,
        List.length_append, Option.some.injEq, Scanned.mk.injEq, true_and, and_true]
      omega

/-- No character needs the longest escapes: those that would are printable. -/
theorem escape_length (c : Char) : (escape c).length ≤ 6 := by
  unfold escape
  split
  next => simp
  next escaped =>
    split
    next => simp
    next =>
      split
      next => simp [hexDigits_length]
      next =>
        split
        next => simp [hexDigits_length]
        next high =>
          refine absurd ?_ escaped
          have differs (d : Char) (low : d.toNat ≤ 0xFFFF) : c ≠ d := by
            rintro rfl
            exact high low
          simp only [isPrintable, isBreak, Bool.or_eq_true, Bool.and_eq_true, decide_eq_true_eq, Bool.not_eq_true',
            Bool.or_eq_false_iff, decide_eq_false_iff_not, bne_iff_ne]
          exact ⟨⟨⟨by omega, ⟨differs _ (by decide), differs _ (by decide)⟩, differs _ (by decide)⟩,
            differs _ (by decide)⟩, differs _ (by decide)⟩

theorem flatMap_escape_length (text : List Char) : (text.flatMap escape).length ≤ 6 * text.length := by
  induction text with
  | nil => exact Nat.le_refl 0
  | cons c rest ih =>
    have first := escape_length c
    simp only [List.flatMap_cons, List.length_append, List.length_cons]
    omega

theorem hexDigits_printable (width value : Nat) : Printable (hexDigits width value) := by
  induction width generalizing value with
  | zero => exact .nil
  | succ width ih =>
    have digit : ∀ digit < 16, isPrintable (hexDigit digit) = true := by decide
    exact (ih _).append (.cons (digit _ (Nat.mod_lt _ (by decide))) .nil)

theorem escape_printable (c : Char) : Printable (escape c) := by
  have digits (mark : Char) (shown : isPrintable mark = true) (width : Nat) :
      Printable ('\\' :: mark :: hexDigits width c.toNat) :=
    .cons (by decide) (.cons shown (hexDigits_printable width c.toNat))
  unfold escape
  split
  next plain =>
    simp only [Bool.and_eq_true] at plain
    exact .cons plain.1.1.1 .nil
  next =>
    split
    next name named =>
      have all : ∀ entry ∈ namedEscapes, isPrintable entry.2 = true := by decide
      obtain ⟨before, after, same, -⟩ := List.lookup_eq_some_iff.mp named
      exact .cons (by decide) (.cons (all (c, name) (by rw [same]; simp)) .nil)
    next =>
      repeat' split
      · exact digits 'x' (by decide) 2
      · exact digits 'u' (by decide) 4
      · exact digits 'U' (by decide) 8

end PeerPool.Proofs.YamlDouble
