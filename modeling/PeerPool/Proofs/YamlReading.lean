import Mathlib.Data.List.Forall2
import PeerPool.Proofs.Distinct
import PeerPool.Yaml.Decode

/-! What a decoder has seen that gave a value: which nodes stood where it looked, and which names it found there. An
alias counts as the node that it stands for. -/

namespace PeerPool.Proofs.YamlReading
open Distinct Yaml

section

variable {α β : Type} {reading : Reading}

/-- The decoder gives this value, for some number of aliases that it may follow. -/
def Gives (reading : Reading) (decoder : Decoder α) (value : α) : Prop :=
  ∃ budget left, decoder reading budget = some (value, left)

theorem gives_bind {decoder : Decoder α} {next : α → Decoder β} {result : β} (gives : Gives reading (decoder >>= next) result) :
    ∃ value, Gives reading decoder value ∧ Gives reading (next value) result := by
  obtain ⟨budget, left, run⟩ := gives
  change (decoder reading budget).bind (fun found => next found.1 reading found.2) = some (result, left) at run
  obtain ⟨⟨value, rest⟩, first, later⟩ := Option.bind_eq_some_iff.mp run
  exact ⟨value, ⟨budget, rest, first⟩, ⟨rest, left, later⟩⟩

theorem gives_pure {value result : α} (gives : Gives reading (pure value) result) : result = value := by
  obtain ⟨budget, left, run⟩ := gives
  cases run
  rfl

theorem gives_fail {result : α} : ¬ Gives reading Decoder.fail result := by
  rintro ⟨budget, left, run⟩
  cases run

theorem gives_mapM {decode : α → Decoder β} {items : List α} {values : List β} (gives : Gives reading (items.mapM decode) values) :
    List.Forall₂ (fun item value => Gives reading (decode item) value) items values := by
  induction items generalizing values with
  | nil =>
    rw [List.mapM_nil] at gives
    rw [gives_pure gives]
    exact .nil
  | cons item items ih =>
    rw [List.mapM_cons] at gives
    obtain ⟨value, first, gives⟩ := gives_bind gives
    obtain ⟨rest, later, gives⟩ := gives_bind gives
    rw [gives_pure gives]
    exact .cons first (ih later)

theorem map_eq_map {γ : Type} {first : α → γ} {second : β → γ} {items : List α} {values : List β}
    (each : List.Forall₂ (fun item value => first item = second value) items values) : items.map first = values.map second := by
  induction each with
  | nil => rfl
  | cons same _ ih => rw [List.map_cons, List.map_cons, same, ih]

end

variable (reading : Reading)

/-- The node that stands at a place, be it by an alias. -/
def standing? : Node Nat → Option (Node Nat)
  | .alias name => reading.targets.lookup name
  | node => some node

/-- The text of the scalar that stands at a place. -/
def named? (node : Node Nat) : Option String :=
  match standing? reading node with
  | some (.scalar _ scalar) => some scalar.text
  | _ => none

variable {reading}

theorem gives_resolve {node found : Node Nat} (gives : Gives reading (Decoder.resolve node) found) :
    standing? reading node = some found := by
  unfold Decoder.resolve at gives
  split at gives
  next name =>
    obtain ⟨budget, left, run⟩ := gives
    cases budget with
    | zero => cases run
    | succ budget =>
      obtain ⟨target, bound, same⟩ := Option.map_eq_some_iff.mp run
      cases same
      exact bound
  next direct =>
    rw [gives_pure gives]
    unfold standing?
    split
    next name => exact (direct name rfl).elim
    next => rfl

theorem gives_text {node : Node Nat} {text : String} (gives : Gives reading (Decoder.text node) text) :
    named? reading node = some text := by
  obtain ⟨scalar, first, gives⟩ := gives_bind gives
  obtain ⟨found, resolved, first⟩ := gives_bind first
  rw [named?, gives_resolve resolved]
  split at first
  next => rw [gives_pure gives, gives_pure first]
  next => exact absurd first gives_fail

theorem gives_items {node : Node Nat} {found : List (Node Nat)} (gives : Gives reading (Decoder.items node) found)
    {anchor : Option Nat} {items : List (Node Nat)} (stands : standing? reading node = some (.sequence anchor items)) :
    found = items := by
  obtain ⟨resolved, followed, gives⟩ := gives_bind gives
  cases (gives_resolve followed).symm.trans stands
  exact gives_pure gives

theorem gives_entries {node : Node Nat} {found : List (Node Nat × Node Nat)} (gives : Gives reading (Decoder.entries node) found)
    {anchor : Option Nat} {entries : List (Node Nat × Node Nat)} (stands : standing? reading node = some (.mapping anchor entries)) :
    found = entries := by
  obtain ⟨resolved, followed, gives⟩ := gives_bind gives
  cases (gives_resolve followed).symm.trans stands
  exact gives_pure gives

/-- Where a list is read off a sequence, each of its items is read. -/
theorem gives_list {α : Type} {decode : Node Nat → Decoder α} {node : Node Nat} {values : List α}
    (gives : Gives reading (Decoder.list decode node) values) {anchor : Option Nat} {items : List (Node Nat)}
    (stands : standing? reading node = some (.sequence anchor items)) :
    ∀ item ∈ items, ∃ value, Gives reading (decode item) value := by
  obtain ⟨found, first, gives⟩ := gives_bind gives
  rw [gives_items first stands] at gives
  have each := (gives_mapM gives).imp fun item value given => And.intro (Exists.intro value given) given
  exact ((List.forall₂_and_left items values).mp each).1

/-- The entries of a mapping by their names, of which none is unknown and none is given twice. -/
structure Fields (reading : Reading) (known : List String) (entries : List (Node Nat × Node Nat))
    (fields : List (String × Node Nat)) : Prop where
  names : entries.map (fun entry => (named? reading entry.1, entry.2)) = fields.map fun field => (some field.1, field.2)
  known : ∀ name ∈ fields.map Prod.fst, name ∈ known
  once : (fields.map Prod.fst).Nodup

theorem Fields.weaken {known wider : List String} {entries : List (Node Nat × Node Nat)} {fields : List (String × Node Nat)}
    (read : Fields reading known entries fields) (among : ∀ name ∈ known, name ∈ wider) : Fields reading wider entries fields :=
  ⟨read.names, fun name member => among name (read.known name member), read.once⟩

theorem Fields.mem {known : List String} {entries : List (Node Nat × Node Nat)} {fields : List (String × Node Nat)}
    (read : Fields reading known entries fields) {key value : Node Nat} {name : String} (member : (key, value) ∈ entries)
    (named : named? reading key = some name) : (name, value) ∈ fields := by
  have inside : (some name, value) ∈ fields.map fun field => (some field.1, field.2) := by
    rw [← read.names, ← named]
    exact List.mem_map_of_mem member
  obtain ⟨field, listed, same⟩ := List.mem_map.mp inside
  cases same
  exact listed

theorem gives_fields {known : List String} {node : Node Nat} {fields : List (String × Node Nat)}
    (gives : Gives reading (Decoder.fields known node) fields) {anchor : Option Nat} {entries : List (Node Nat × Node Nat)}
    (stands : standing? reading node = some (.mapping anchor entries)) : Fields reading known entries fields := by
  obtain ⟨found, first, gives⟩ := gives_bind gives
  rw [gives_entries first stands] at gives
  obtain ⟨named, mapped, gives⟩ := gives_bind gives
  dsimp only at gives
  split at gives
  next strict =>
    rw [gives_pure gives]
    obtain ⟨known, whole⟩ := Bool.and_eq_true_iff.mp strict
    refine ⟨?_, ?_, nodup_of_eraseDups (by simpa using whole)⟩
    · have each := (gives_mapM mapped).imp fun entry field given => by
        obtain ⟨name, read, given⟩ := gives_bind given
        have same : (named? reading entry.1, entry.2) = (some field.1, field.2) := by
          rw [gives_text read, gives_pure given]
        exact same
      exact map_eq_map each
    · simpa using known
  next => exact absurd gives gives_fail

section

variable {α : Type} {decode : Node Nat → Decoder α} {fields : List (String × Node Nat)} {name : String}

theorem gives_required {value : α} (gives : Gives reading (Decoder.required fields name decode) value) :
    name ∈ fields.map Prod.fst := by
  unfold Decoder.required at gives
  split at gives
  next node found =>
    obtain ⟨before, after, same, -⟩ := List.lookup_eq_some_iff.mp found
    simp [same]
  next => exact absurd gives gives_fail

theorem gives_defaulted {default value : α} (gives : Gives reading (Decoder.defaulted fields name default decode) value)
    (once : (fields.map Prod.fst).Nodup) {node : Node Nat} (given : (name, node) ∈ fields) : Gives reading (decode node) value := by
  rw [Decoder.defaulted, lookup_of_mem once given] at gives
  exact gives

theorem gives_listed {values : List α} (gives : Gives reading (Decoder.defaulted fields name [] (Decoder.list decode)) values)
    (once : (fields.map Prod.fst).Nodup) {node : Node Nat} (given : (name, node) ∈ fields) {anchor : Option Nat}
    {items : List (Node Nat)} (stands : standing? reading node = some (.sequence anchor items)) :
    ∀ item ∈ items, ∃ value, Gives reading (decode item) value :=
  gives_list (gives_defaulted gives once given) stands

end

end PeerPool.Proofs.YamlReading
