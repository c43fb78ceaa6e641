import PeerPool.Proofs.YamlCharacters

/-! Where a line of block style ends, and what may stand below it: nothing, or a line that
is indented no further than the collection which the ended line belongs to. -/

namespace PeerPool.Proofs.YamlLines
open Yaml YamlCharacters

/-- A token may begin with this, whatever is in front of it. -/
structure StartsToken (c : Char) : Prop where
  word : isGap c = false
  comment : c ≠ '#'
  mark : c ≠ byteOrderMark

/-- A text that begins with a token. -/
inductive Begins : List Char → Prop where
  | token {c : Char} {rest : List Char} (starts : StartsToken c) : Begins (c :: rest)

theorem Begins.append {text : List Char} (begins : Begins text) (tail : List Char) : Begins (text ++ tail) := by
  cases begins with
  | token starts => exact .token starts

inductive Outdented (bound : Nat) : List Char → Prop where
  | ended : Outdented bound []
  | line {width : Nat} {c : Char} {rest : List Char} (inside : width ≤ bound) (starts : StartsToken c) :
      Outdented bound (spaces width ++ c :: rest)

theorem Begins.outdented {text : List Char} (begins : Begins text) (bound : Nat) :
    Outdented bound (spaces bound ++ text) := by
  cases begins with
  | token starts => exact .line (Nat.le_refl bound) starts

theorem Outdented.weaken {bound wider : Nat} {tail : List Char} (below : Outdented bound tail)
    (inside : bound ≤ wider) : Outdented wider tail := by
  cases below with
  | ended => exact .ended
  | line narrow starts => exact .line (Nat.le_trans narrow inside) starts

/-- The indentation of the line that a text begins with. -/
def indentation (tail : List Char) : Nat := (tail.takeWhile (· = ' ')).length

def unindented (tail : List Char) : List Char := tail.dropWhile (· = ' ')

theorem StartsToken.not_space {c : Char} (starts : StartsToken c) : c ≠ ' ' := by
  rintro rfl
  exact absurd starts.word (by decide)

theorem StartsToken.not_break {c : Char} (starts : StartsToken c) : isBreak c = false := by
  simpa using mt break_is_gap (by simp [starts.word] : ¬ isGap c = true)

theorem StartsToken.not_tab {c : Char} (starts : StartsToken c) : c ≠ '\t' := by
  rintro rfl
  exact absurd starts.word (by decide)

theorem takeWhile_spaces {c : Char} (word : c ≠ ' ') (width : Nat) (rest : List Char) :
    (spaces width ++ c :: rest).takeWhile (· = ' ') = spaces width := by
  rw [List.takeWhile_append_of_pos (by intro d member; simp [List.eq_of_mem_replicate member])]
  simp [word]

theorem dropWhile_spaces {c : Char} (word : c ≠ ' ') (width : Nat) (rest : List Char) :
    (spaces width ++ c :: rest).dropWhile (· = ' ') = c :: rest := by
  rw [List.dropWhile_append_of_pos (by intro d member; simp [List.eq_of_mem_replicate member])]
  simp [word]

@[simp] theorem indentation_nil : indentation [] = 0 := rfl

@[simp] theorem unindented_nil : unindented [] = [] := rfl

theorem indentation_line {c : Char} (starts : StartsToken c) (width : Nat) (rest : List Char) :
    indentation (spaces width ++ c :: rest) = width := by
  rw [indentation, takeWhile_spaces starts.not_space]
  simp [spaces]

theorem unindented_line {c : Char} (starts : StartsToken c) (width : Nat) (rest : List Char) :
    unindented (spaces width ++ c :: rest) = c :: rest :=
  dropWhile_spaces starts.not_space width rest

theorem unindented_length (tail : List Char) : (unindented tail).length ≤ tail.length :=
  (List.dropWhile_sublist _).length_le

end PeerPool.Proofs.YamlLines
