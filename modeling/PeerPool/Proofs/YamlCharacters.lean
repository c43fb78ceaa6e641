import PeerPool.Yaml.Text

/-! What the writer puts into a document unescaped is what the reader takes unchanged:
readable, and with no line break that the reader would make alike. -/

namespace PeerPool.Proofs.YamlCharacters
open Yaml

def Printable (text : List Char) : Prop := ∀ c ∈ text, isPrintable c = true

theorem readable {c : Char} (printable : isPrintable c = true) : isReadable c = true := by
  simp only [isPrintable, isReadable, Bool.or_eq_true, Bool.and_eq_true, decide_eq_true_eq] at *
  grind

/-- The white space that a printable character can be is a space or a line break. -/
theorem not_special {c : Char} (printable : isPrintable c = true) :
    c ≠ '\t' ∧ c ≠ '\r' ∧ c ≠ '\u0085' ∧ c ≠ byteOrderMark := by
  refine ⟨?_, ?_, ?_, ?_⟩ <;> rintro rfl <;> exact absurd printable (by decide)

theorem unifyBreaks_eq {text : List Char} (printable : Printable text) : unifyBreaks text = text := by
  fun_induction unifyBreaks text with
  | case1 rest ih => exact absurd (printable '\r' (by simp)) (by decide)
  | case2 c rest _ ih =>
    obtain ⟨-, feed, next, -⟩ := not_special (printable c (by simp))
    rw [ih fun c member => printable c (List.mem_cons_of_mem _ member)]
    simp [feed, next]
  | case3 => rfl

namespace Printable

variable {first rest : List Char} {c : Char}

theorem nil : Printable [] := by simp [Printable]

theorem cons (head : isPrintable c = true) (tail : Printable rest) : Printable (c :: rest) := by
  simpa [Printable] using ⟨head, tail⟩

theorem append (left : Printable first) (right : Printable rest) : Printable (first ++ rest) := by
  intro c member
  rcases List.mem_append.mp member with member | member
  · exact left c member
  · exact right c member

theorem spaces (count : Nat) : Printable (Yaml.spaces count) := by
  intro c member
  rw [List.eq_of_mem_replicate member]
  decide

end Printable

theorem break_is_gap {c : Char} (ends : isBreak c = true) : isGap c = true := by
  simp [isGap, ends]

theorem hasPair_cons {first second : Char → Bool} {c : Char} {rest : List Char}
    (absent : hasPair first second (c :: rest) = false) :
    (first c = true → rest.head?.any second = false) ∧ hasPair first second rest = false := by
  cases rest with
  | nil => exact ⟨fun _ => rfl, rfl⟩
  | cons d rest =>
    simp only [hasPair, Bool.or_eq_false_iff, Bool.and_eq_false_imp] at absent
    exact ⟨by simpa using absent.1, absent.2⟩

theorem getLast?_cons_of_ne {c : Char} {rest : List Char} (more : rest ≠ []) :
    (c :: rest).getLast? = rest.getLast? := by
  obtain ⟨d, rest, rfl⟩ := List.exists_cons_of_ne_nil more
  simp [List.getLast?_cons]

end PeerPool.Proofs.YamlCharacters
