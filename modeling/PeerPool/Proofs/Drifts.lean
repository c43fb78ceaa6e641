import PeerPool.Proofs.Interleavings
import PeerPool.Proofs.Synchronized

/-! A pass during which the world drifts. If that leaves the configuration and the reservations
alone, the pass comes to what it comes to in a world of its own, which holds in store a change
to make before each call. So what is known of passes in any world is known of it too. -/

namespace PeerPool.Proofs.Drifts
open PassLogic PassCalls Interleavings Holdings Synchronized Provider

variable {σ τ : Type}

/-- A change of the world that leaves in place what is looked at. -/
def Change (view : σ → τ) : Type := { change : σ → σ // ∀ state, view (change state) = view state }

section

variable {view : σ → τ} {answer : Answers σ} {drifts : σ → σ → Prop}

def stir : σ × List (Change view) → σ × List (Change view)
  | (state, []) => (state, [])
  | (state, change :: rest) => (change.1 state, rest)

theorem view_stir (state : σ × List (Change view)) : view (stir state).1 = view state.1 := by
  obtain ⟨state, changes⟩ := state
  cases changes with
  | nil => rfl
  | cons change rest => exact change.2 state

/-- Answers to calls with a change before each. -/
def stirred (view : σ → τ) (answer : Answers σ) : Answers (σ × List (Change view)) := fun state call =>
  ((answer (stir state).1 call).1, ((answer (stir state).1 call).2, (stir state).2))

/-- Where the world drifts, a program does what it does where it is changed in some way before each call. -/
theorem comes_stirs (kept : ∀ before after, drifts before after → view after = view before) {α : Type}
    {program : Program Call.Answer α} {state after : σ} {seen : List (σ × Call)} {value : α}
    (comes : Comes answer drifts state program seen value after) {first : σ} (change : Change view) (same : change.1 first = state) :
    ∃ changes : List (Change view), (program.trace (stirred view answer) (first, changes)).value = value ∧
      view (program.trace (stirred view answer) (first, changes)).state.1 = view after ∧
      (calls (stirred view answer) (first, changes) program).map (fun entry => ((stir entry.1).1, entry.2)) = seen := by
  -- The change is the one to be made before the next call, and a drift is put behind it.
  induction comes generalizing first change with
  | done state value => exact ⟨[], rfl, same ▸ (change.2 first).symm, rfl⟩
  | say _ ih => exact ih change same
  | @ask state _ call rest _ _ _ ih =>
    obtain ⟨changes, result, views, made⟩ := @ih (answer state call).2 ⟨id, fun _ => rfl⟩ rfl
    have here : stir (first, change :: changes) = (state, changes) := by rw [stir, same]
    refine ⟨change :: changes, ?_, ?_, ?_⟩
    · simpa only [Program.trace, Run.after, stirred, here] using result
    · simpa only [Program.trace, Run.after, stirred, here] using views
    · simpa only [calls, List.map_cons, stirred, here] using congrArg ((state, call) :: ·) made
  | @drift state between _ _ _ _ drifted _ ih =>
    classical
    refine ih ⟨fun other => if change.1 other = state then between else change.1 other, fun other => ?_⟩ (if_pos same)
    simp only
    split
    next found => rw [kept state between drifted, ← found, change.2]
    next => exact change.2 other

theorem comes_effect (kept : ∀ before after, drifts before after → view after = view before) {failure : PassError → String}
    {pass : Pass Unit} {begun ended : σ} {seen : List (σ × Call)}
    (comes : Comes answer drifts begun (reported failure pass) seen () ended) :
    ∃ changes : List (Change view), view (effect (stirred view answer) (begun, changes) pass).2.1 = view ended ∧
      (made (stirred view answer) (begun, changes) pass).map (fun entry => ((stir entry.1).1, entry.2)) = seen := by
  obtain ⟨changes, _, views, made⟩ := comes_stirs kept comes ⟨id, fun _ => rfl⟩ rfl
  obtain ⟨last, same⟩ := trace_reported (stirred view answer) failure pass (begun, changes)
  exact ⟨changes, last ▸ views, same ▸ made⟩

end

section

variable (document : σ → String) (reservations : σ → List Reservation)

/-- What passes come to know of the world, and what they change of it. -/
def holdings (state : σ) : String × List Reservation := (document state, reservations state)

/-- How calls act on what is stored. Reservations are made with the tags that were asked for, and
no two are ever given the same ID. -/
structure Lawful (answer : Answers σ) (name : String) : Prop where
  store : Store answer name document
  inventory : Inventory answer reservations
  creates : ∀ state project request created, (answer state (.createReservation project request)).1 = .ok created →
    created.tags = request.tags ∧
      reservations (answer state (.createReservation project request)).2 = reservations state ++ [created]
  refuses : ∀ state project request error, (answer state (.createReservation project request)).1 = .error error →
    reservations (answer state (.createReservation project request)).2 = reservations state
  distinct : ∀ state, ((reservations state).map (·.id)).Nodup

variable {document reservations} {answer : Answers σ} {name : String}

theorem Lawful.holds (lawful : Lawful document reservations answer name) : Holds answer reservations := lawful.inventory.toHolds

theorem document_stir (state : σ × List (Change (holdings document reservations))) :
    document (stir state).1 = document state.1 := congrArg Prod.fst (view_stir state)

theorem reservations_stir (state : σ × List (Change (holdings document reservations))) :
    reservations (stir state).1 = reservations state.1 := congrArg Prod.snd (view_stir state)

/-- Calls go by the same laws if changes come between them. -/
theorem Lawful.stirred (lawful : Lawful document reservations answer name) :
    Lawful (document ·.1) (reservations ·.1) (Drifts.stirred (holdings document reservations) answer) name where
  store := {
    loads := fun state text answered => (lawful.store.loads _ text answered).trans (document_stir state)
    patches := fun _ text answered => lawful.store.patches _ text answered
    keeps := fun state call other => (lawful.store.keeps _ call other).trans (document_stir state) }
  inventory := {
    lists := fun state project listed answered => (lawful.inventory.lists _ project listed answered).trans (reservations_stir state)
    keeps := fun state call creates deletes => (lawful.inventory.keeps _ call creates deletes).trans (reservations_stir state)
    deletes := fun state id answered => reservations_stir state ▸ lawful.inventory.deletes _ id answered }
  creates state project request created answered := reservations_stir state ▸ lawful.creates _ project request created answered
  refuses state project request error answered := reservations_stir state ▸ lawful.refuses _ project request error answered
  distinct state := lawful.distinct state.1

end

end PeerPool.Proofs.Drifts
