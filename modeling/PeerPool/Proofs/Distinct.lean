import Mathlib.Data.List.Induction
import Mathlib.Data.List.Nodup
import Mathlib.Data.List.Perm.Subperm

/-! What is left of a list in which each value stands once, where it is first found; and entries with names, which are
found by them in every order where each name stands once. -/

namespace PeerPool.Proofs.Distinct

variable {α : Type} [BEq α] [LawfulBEq α]

/-- One more value goes to the end, unless it is there already. -/
theorem eraseDups_concat (values : List α) (value : α) :
    (values ++ [value]).eraseDups = if value ∈ values then values.eraseDups else values.eraseDups ++ [value] := by
  rw [List.eraseDups_append]
  split
  next repeated => simp [List.removeAll, repeated]
  next new => simp [List.removeAll, new, List.eraseDups_cons]

theorem nodup_eraseDups (values : List α) : values.eraseDups.Nodup := by
  induction values using List.reverseRecOn with
  | nil => exact List.nodup_nil
  | append_singleton values value ih =>
    rw [eraseDups_concat]
    split
    next => exact ih
    next new =>
      refine List.nodup_append.mpr ⟨ih, List.nodup_singleton value, ?_⟩
      rintro _ member _ single rfl
      exact new (List.mem_singleton.mp single ▸ List.mem_eraseDups.mp member)

theorem eraseDups_perm {values : List α} (whole : values.eraseDups.length = values.length) : values.eraseDups.Perm values := by
  have subperm : values.eraseDups.Subperm values := List.subperm_of_subset (nodup_eraseDups values) fun _ => List.mem_eraseDups.mp
  exact subperm.perm_of_length_le (Nat.le_of_eq whole.symm)

/-- Where none is left out, none was there twice. -/
theorem nodup_of_eraseDups {values : List α} (whole : values.eraseDups.length = values.length) : values.Nodup :=
  (eraseDups_perm whole).nodup_iff.mp (nodup_eraseDups values)

theorem eraseDups_eq {values : List α} (distinct : values.Nodup) : values.eraseDups = values := by
  induction values with
  | nil => rfl
  | cons value values ih =>
    obtain ⟨fresh, distinct⟩ := List.nodup_cons.mp distinct
    have kept : values.filter (fun other => !other == value) = values := by
      apply List.filter_eq_self.mpr
      intro other member
      have differs : other ≠ value := fun same => fresh (same ▸ member)
      simpa using differs
    rw [List.eraseDups_cons, kept, ih distinct]

section

variable {β : Type} {entries others : List (α × β)} {name : α} {value : β}

theorem filter_of_mem (once : (entries.map Prod.fst).Nodup) (given : (name, value) ∈ entries) :
    (entries.filter fun entry => entry.1 == name) = [(name, value)] := by
  obtain ⟨before, after, rfl⟩ := List.append_of_mem given
  rw [List.map_append, List.map_cons, List.nodup_middle, List.nodup_cons, List.mem_append, not_or] at once
  have others {entries : List (α × β)} (absent : name ∉ entries.map Prod.fst) :
      (entries.filter fun entry => entry.1 == name) = [] := by
    apply List.filter_eq_nil_iff.mpr
    intro entry member same
    exact absent (List.mem_map.mpr ⟨entry, member, eq_of_beq same⟩)
  have here : ((name, value) :: after).filter (fun entry => entry.1 == name) = [(name, value)] := by
    rw [List.filter_cons, others once.1.2, if_pos (beq_self_eq_true name)]
  rw [List.filter_append, here, others once.1.1, List.nil_append]

/-- What is left out of other names does not matter. -/
theorem lookup_filter (keep : α → Bool) (kept : keep name = true) (entries : List (α × β)) :
    (entries.filter fun entry => keep entry.1).lookup name = entries.lookup name := by
  induction entries with
  | nil => rfl
  | cons entry entries ih =>
    obtain ⟨other, value⟩ := entry
    rw [List.filter_cons, List.lookup_cons]
    by_cases same : name = other
    · subst same
      simp [kept]
    · have differs : (name == other) = false := beq_false_of_ne same
      split
      · rw [List.lookup_cons, differs, ih]
      · rw [ih, differs]

theorem lookup_of_mem (once : (entries.map Prod.fst).Nodup) (given : (name, value) ∈ entries) :
    entries.lookup name = some value := by
  rw [← lookup_filter (· == name) (beq_self_eq_true name), filter_of_mem once given, List.lookup_cons_self]

theorem mem_of_lookup (found : entries.lookup name = some value) : (name, value) ∈ entries := by
  obtain ⟨before, after, rfl, -⟩ := List.lookup_eq_some_iff.mp found
  exact List.mem_append_right before List.mem_cons_self

theorem lookup_perm (same : entries.Perm others) (once : (entries.map Prod.fst).Nodup) (name : α) :
    entries.lookup name = others.lookup name := by
  have others_once : (others.map Prod.fst).Nodup := (same.map Prod.fst).nodup_iff.mp once
  apply Option.ext
  intro value
  constructor
  · intro found
    exact lookup_of_mem others_once (same.mem_iff.mp (mem_of_lookup found))
  · intro found
    exact lookup_of_mem once (same.mem_iff.mpr (mem_of_lookup found))

end

end PeerPool.Proofs.Distinct
