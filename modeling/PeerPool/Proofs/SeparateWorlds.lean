import PeerPool.Proofs.PeersSynchronized
import PeerPool.Proofs.SilentPasses

/-! Worlds of parts that have nothing to do with each other: the document, the resolver of routers,
and what is stored about addresses and services. A pass that makes calls on one part does from two
states what is the same in both if they agree on that part, whatever else they differ in. -/

namespace PeerPool.Proofs.SeparateWorlds
open PassLogic PassDocument PassCalls SilentPasses

variable {σ κ ρ τ α β γ δ : Type}

/-- What loading the document comes to. -/
def shown (answer : Answers σ) (name : String) (state : σ) : Except Cluster.StoreError String := (answer state (.loadDocument name)).1

def Accepts (answer : Answers σ) (name : String) (state : σ) : Prop :=
  ∀ text, (answer state (.patchDocument name (configPatch text))).1 = .ok ()

/-- The answers to calls of these kinds go by a view of the state, and so does what they leave of it. -/
def Sees (answer : Answers σ) (view : σ → κ) (kinds : List Kind) : Prop :=
  ∀ first second call, kind call ∈ kinds → view second = view first →
    (answer second call).1 = (answer first call).1 ∧ view (answer second call).2 = view (answer first call).2

/-- Calls about reservations and services. -/
def storing : List Kind := [.list, .create, .delete, .get, .update]

structure Separate (answer : Answers σ) (name : String) (routers : σ → ρ) (stores : σ → τ) : Prop where
  shows : ∀ state before text, shown answer name state = .ok before →
    (answer state (.patchDocument name (configPatch text))).1 = .ok () →
    shown answer name (answer state (.patchDocument name (configPatch text))).2 = .ok text
  keeps : ∀ state call, kind call ≠ .patch → shown answer name (answer state call).2 = shown answer name state
  accepts : ∀ state call, Accepts answer name state → Accepts answer name (answer state call).2
  routes : Sees answer routers [.resolve]
  routers_kept : ∀ state call, kind call ≠ .resolve → routers (answer state call).2 = routers state
  serves : Sees answer stores storing
  stores_kept : ∀ state call, kind call ∉ storing → stores (answer state call).2 = stores state

/-- The calls other than patches. -/
def asked (calls : List (σ × Call)) : List Call := (calls.map Prod.snd).filter (kind · ≠ .patch)

theorem asked_append (first second : List (σ × Call)) : asked (first ++ second) = asked first ++ asked second := by
  rw [asked, List.map_append, List.filter_append, asked, asked]

/-- A pass does from one state what another one does from another state, but for patches and as far
as a view goes, and their results correspond. -/
structure Parallel (answer : Answers σ) (view : σ → κ) (f : α → β) (first second : σ) (pass : Pass α) (other : Pass β) : Prop where
  result : (effect answer second other).1 = (effect answer first pass).1.map f
  calls : asked (made answer second other) = asked (made answer first pass)
  views : view (effect answer second other).2 = view (effect answer first pass).2

section

variable {answer : Answers σ} {view : σ → κ} {first second state : σ} {kinds : List Kind}

theorem effect_map (f : α → β) (pass : Pass α) :
    effect answer state (f <$> pass) = ((effect answer state pass).1.map f, (effect answer state pass).2) := by
  rw [map_eq_pure_bind, effect_bind]
  generalize effect answer state pass = result
  obtain ⟨error | value, after⟩ := result <;> rfl

theorem made_map (f : α → β) (pass : Pass α) : made answer state (f <$> pass) = made answer state pass := by
  rw [map_eq_pure_bind, made_bind]
  generalize effect answer state pass = result
  obtain ⟨error | value, after⟩ := result <;> exact List.append_nil _

theorem asks_agree {program : Program Call.Answer α} (sees : Sees answer view kinds) (asks : Asks kinds program)
    (same : view second = view first) :
    (program.trace answer second).value = (program.trace answer first).value ∧
      view (program.trace answer second).state = view (program.trace answer first).state ∧
      (calls answer second program).map Prod.snd = (calls answer first program).map Prod.snd := by
  induction program generalizing first second with
  | done value => exact ⟨rfl, same, rfl⟩
  | say level text rest ih => exact ih asks same
  | ask call rest ih =>
    obtain ⟨known, asks⟩ := asks
    obtain ⟨reply, left⟩ := sees first second call known same
    obtain ⟨value, views, made⟩ := ih (answer first call).1 (asks _) left
    simp only [Program.trace, Run.after, calls, List.map_cons, reply]
    exact ⟨value, views, congrArg (call :: ·) made⟩

namespace Parallel

theorem agree {pass : Pass α} (sees : Sees answer view kinds) (makes : Makes kinds pass) (same : view second = view first) :
    Parallel answer view id first second pass pass := by
  obtain ⟨value, views, made⟩ := asks_agree sees makes same
  refine ⟨?_, congrArg (List.filter _) made, views⟩
  rw [Except.map_id]
  exact value

theorem pure (f : α → β) (value : α) (same : view second = view first) :
    Parallel answer view f first second (Pure.pure value) (Pure.pure (f value)) := ⟨rfl, rfl, same⟩

theorem map {f : α → β} {pass : Pass α} {other : Pass β} (parallel : Parallel answer view f first second pass other) (g : β → γ) :
    Parallel answer view (g ∘ f) first second pass (g <$> other) := by
  refine ⟨?_, ?_, ?_⟩
  · rw [effect_map, parallel.result]
    cases (effect answer first pass).1 <;> rfl
  · rw [made_map, parallel.calls]
  · rw [effect_map, parallel.views]

theorem bind {f : α → β} {g : γ → δ} {pass : Pass α} {other : Pass β} {next : α → Pass γ} {follow : β → Pass δ}
    (parallel : Parallel answer view f first second pass other)
    (later : ∀ value here there, effect answer first pass = (.ok value, here) → effect answer second other = (.ok (f value), there) →
      view there = view here → Parallel answer view g here there (next value) (follow (f value))) :
    Parallel answer view g first second (pass >>= next) (other >>= follow) := by
  obtain ⟨result, calls, views⟩ := parallel
  generalize came : effect answer first pass = ran at result views
  generalize went : effect answer second other = reran at result views
  obtain ⟨error | value, here⟩ := ran
  · obtain ⟨_, there⟩ := reran
    cases result
    refine ⟨?_, ?_, ?_⟩
    · rw [effect_bind, effect_bind, came, went]
      rfl
    · rw [made_bind, made_bind, came, went, List.append_nil, List.append_nil, calls]
    · rw [effect_bind, effect_bind, came, went]
      exact views
  · obtain ⟨_, there⟩ := reran
    cases result
    obtain ⟨result, more, last⟩ := later value here there came went views
    refine ⟨?_, ?_, ?_⟩
    · rw [effect_then answer came, effect_then answer went, result]
    · rw [made_bind, made_bind, came, went, asked_append, asked_append, calls, more]
    · rw [effect_then answer came, effect_then answer went, last]

theorem of_same {f : α → β} {pass draft : Pass α} {other redraft : Pass β} (same : SameCalls pass draft) (resame : SameCalls other redraft)
    (parallel : Parallel answer view f first second draft redraft) : Parallel answer view f first second pass other := by
  obtain ⟨result, calls, views⟩ := parallel
  rw [← same.effect_eq, ← resame.effect_eq] at result views
  rw [← same.made_eq, ← resame.made_eq] at calls
  exact ⟨result, calls, views⟩

end Parallel

theorem load_parallel {name text other : String} {config : Config} {f : Config → Config}
    (kept : ∀ state, view (answer state (.loadDocument name)).2 = view state) (shows : shown answer name first = .ok text)
    (read : Config.read text = .ok config) (reshows : shown answer name second = .ok other)
    (reread : Config.read other = .ok (f config)) (same : view second = view first) :
    Parallel answer view f first second (Pass.load name) (Pass.load name) := by
  have loads := effect_load_ok answer first name config (Prod.ext shows rfl) read
  have reloads := effect_load_ok answer second name (f config) (Prod.ext reshows rfl) reread
  refine ⟨?_, ?_, ?_⟩
  · rw [loads, reloads]
    rfl
  · rw [made_load, made_load]
    rfl
  · rw [loads, reloads, kept, kept, same]

end

section

open Simulation PeersSynchronized

/-- A memory but for its document and its routers. -/
def stock (memory : Memory) : Memory := { memory with document := none, routers := [] }

theorem memory_fixed (memory : Memory) (call : Call) :
    (Memory.answer memory call).2.routers = memory.routers ∧ (Memory.answer memory call).2.faults = memory.faults := by
  cases call with
  | createReservation project request =>
    simp only [Memory.answer, Memory.create]
    split
    · exact ⟨rfl, rfl⟩
    · split <;> exact ⟨rfl, rfl⟩
  | deleteReservation id =>
    simp only [Memory.answer, Memory.delete]
    split <;> exact ⟨rfl, rfl⟩
  | updateService service =>
    simp only [Memory.answer, Memory.update]
    split <;> exact ⟨rfl, rfl⟩
  | patchDocument name patch =>
    simp only [Memory.answer]
    split <;> exact ⟨rfl, rfl⟩
  | _ => exact ⟨rfl, rfl⟩

theorem memory_serves : Sees Memory.answer stock storing := by
  rintro ⟨_, _, _, _, _, _, _, _⟩ ⟨_, _, _, _, _, _, _, _⟩ call known same
  cases same
  cases call with
  | createReservation project request =>
    simp only [Memory.answer, Memory.create]
    split
    · exact ⟨rfl, rfl⟩
    · split <;> exact ⟨rfl, rfl⟩
  | deleteReservation id =>
    simp only [Memory.answer, Memory.delete]
    split <;> exact ⟨rfl, rfl⟩
  | updateService service =>
    simp only [Memory.answer, Memory.update]
    split <;> exact ⟨rfl, rfl⟩
  | listReservations project => exact ⟨rfl, rfl⟩
  | getService ns name => exact ⟨rfl, rfl⟩
  | loadDocument name => exact absurd known (show Kind.load ∉ storing by decide)
  | patchDocument name patch => exact absurd known (show Kind.patch ∉ storing by decide)
  | resolvePeers providerId => exact absurd known (show Kind.resolve ∉ storing by decide)

theorem memory_stocked (memory : Memory) (call : Call) (other : kind call ∉ storing) :
    stock (Memory.answer memory call).2 = stock memory := by
  cases call with
  | loadDocument name => rfl
  | resolvePeers providerId => rfl
  | patchDocument name patch =>
    simp only [Memory.answer]
    split <;> rfl
  | listReservations project => exact absurd (show Kind.list ∈ storing by decide) other
  | createReservation project request => exact absurd (show Kind.create ∈ storing by decide) other
  | deleteReservation id => exact absurd (show Kind.delete ∈ storing by decide) other
  | getService ns name => exact absurd (show Kind.get ∈ storing by decide) other
  | updateService service => exact absurd (show Kind.update ∈ storing by decide) other

theorem accepts_memory (name : String) (memory : Memory) : Accepts Memory.answer name memory ↔ memory.faults.patch = false := by
  constructor
  · intro accepts
    have accepted := accepts ""
    simp only [Memory.answer] at accepted
    split at accepted
    · cases accepted
    next healthy => exact eq_false_of_ne_true healthy
  · intro healthy text
    simp only [Memory.answer, healthy]
    rfl

theorem separate_memory (name : String) : Separate Memory.answer name (·.routers) stock where
  shows memory before text found accepted := by
    change (Memory.answer memory (.patchDocument name (configPatch text))).2.load name = .ok text
    change memory.load name = .ok before at found
    rw [Memory.load] at found ⊢
    rw [(memory_fixed memory _).2]
    split at found
    · cases found
    next healthy =>
      rw [if_neg healthy]
      simp only [Memory.answer] at accepted ⊢
      split at accepted
      · cases accepted
      next taken =>
        rw [if_neg taken, ConfigRoundTrip.patchDocument_configPatch]
  keeps memory call other := by
    change (Memory.answer memory call).2.load name = memory.load name
    rw [Memory.load, Memory.load, (memory_fixed memory call).2, memory_keeps memory call other]
  accepts memory call accepts := by
    rw [accepts_memory] at accepts ⊢
    rw [(memory_fixed memory call).2, accepts]
  routes := by
    rintro first second call known same
    cases call with
    | resolvePeers providerId =>
      change second.routers = first.routers at same
      change second.resolve providerId = first.resolve providerId ∧ second.routers = first.routers
      rw [Memory.resolve, Memory.resolve, same]
      exact ⟨rfl, rfl⟩
    | _ => cases List.mem_singleton.mp known
  routers_kept memory call _ := (memory_fixed memory call).1
  serves := memory_serves
  stores_kept := memory_stocked

end

end PeerPool.Proofs.SeparateWorlds
