import PeerPool.Json.MergePatch
import PeerPool.Proofs.Distinct

/-! What a merge patch leaves alone. It goes down into a value only along the members that it names, so every other member
is what it was, at each level; and a patch that names one member on each level puts one value in, and changes nothing beside it. -/

namespace PeerPool.Proofs.MergePatches
open Json Distinct

section

variable {members changes : List (String × Json)} {object change : Json} {name other : String}

theorem member?_erase (apart : other ≠ name) : member? (erase members name) other = member? members other := by
  have kept : (other != name) = true := bne_iff_ne.mpr apart
  rw [member?, member?, erase, ← List.filter_reverse]
  exact lookup_filter (· != name) kept members.reverse

theorem member?_concat (members : List (String × Json)) (name : String) (value : Json) (other : String) :
    member? (members ++ [(name, value)]) other = if other = name then some value else member? members other := by
  rw [member?, List.reverse_concat, List.lookup_cons]
  by_cases same : other = name
  · subst same
    simp
  · rw [if_neg same, beq_false_of_ne same, member?]

theorem mergeMembers_cons (some : change ≠ .null) :
    mergeMembers members ((name, change) :: changes) =
      mergeMembers (erase members name ++ [(name, mergePatch ((member? members name).getD .null) change)]) changes := by
  cases change with
  | null => exact absurd rfl some
  | _ => rfl

/-- A member that no change is about stays, or stays away. -/
theorem member?_mergeMembers (unnamed : ∀ change ∈ changes, other ≠ change.1) :
    member? (mergeMembers members changes) other = member? members other := by
  induction changes generalizing members with
  | nil => rfl
  | cons entry changes ih =>
    obtain ⟨name, change⟩ := entry
    obtain ⟨apart, others⟩ := List.forall_mem_cons.mp unnamed
    by_cases gone : change = .null
    · subst gone
      change member? (mergeMembers (erase members name) changes) other = _
      rw [ih others, member?_erase apart]
    · rw [mergeMembers_cons gone, ih others, member?_concat, if_neg apart, member?_erase apart]

/-- The members of a value, none unless it is an object. -/
def membersOf (json : Json) : List (String × Json) := json.members?.getD []

theorem get?_eq (json : Json) (name : String) : json.get? name = member? (membersOf json) name := by
  cases json <;> rfl

theorem mergePatch_object (object : Json) (changes : List (String × Json)) :
    mergePatch object (.obj changes) = .obj (mergeMembers (membersOf object) changes) := by
  cases object <;> rfl

theorem get?_mergePatch (unnamed : ∀ change ∈ changes, other ≠ change.1) :
    (mergePatch object (.obj changes)).get? other = object.get? other := by
  rw [mergePatch_object, get?_eq object, ← member?_mergeMembers unnamed]
  rfl

/-- The patch of a single member puts it in the place of those with its name. -/
theorem mergePatch_single (object : Json) (name : String) (some : change ≠ .null) :
    mergePatch object (.obj [(name, change)]) =
      .obj (erase (membersOf object) name ++ [(name, mergePatch ((object.get? name).getD .null) change)]) := by
  rw [mergePatch_object, mergeMembers_cons some, get?_eq]
  rfl

theorem get?_single (object : Json) (name : String) (some : change ≠ .null) :
    (mergePatch object (.obj [(name, change)])).get? name = .some (mergePatch ((object.get? name).getD .null) change) := by
  rw [mergePatch_single object name some]
  exact (member?_concat _ name _ name).trans (if_pos rfl)

/-- The value that a path of names leads to. -/
def at? : List String → Json → Option Json
  | [], json => some json
  | name :: path, json => (json.get? name).bind (at? path)

/-- The patch that puts a text where a path leads to. -/
def setting : List String → String → Json
  | [], text => .str text
  | name :: path, text => .obj [(name, setting path text)]

theorem setting_some (path : List String) (text : String) : setting path text ≠ .null := by
  cases path <;> nofun

/-- What is neither on the way to the text nor a part of what it replaces stays. -/
theorem at?_apart {path away : List String} (before : ¬ away <+: path) (behind : ¬ path <+: away) (object : Json) (text : String) :
    at? away (mergePatch object (setting path text)) = at? away object := by
  induction path generalizing object away with
  | nil => exact absurd away.nil_prefix behind
  | cons name path ih =>
    cases away with
    | nil => exact absurd (List.nil_prefix ..) before
    | cons other away =>
      rw [at?, at?, setting]
      by_cases same : other = name
      · subst same
        rw [List.cons_prefix_cons, and_iff_right rfl] at before behind
        rw [get?_single object other (setting_some path text), Option.bind_some, ih before behind]
        cases object.get? other with
        | some value => rfl
        | none =>
          -- an object that is not there has no members, and the path goes on into it
          cases away with
          | nil => exact absurd path.nil_prefix before
          | cons => rfl
      · rw [get?_mergePatch (by simpa using same)]

end

end PeerPool.Proofs.MergePatches
