import PeerPool.Proofs.SeparateWorlds

/-! Passes over services do not look at the document before they decide about reservations and
services. Two runs from states that agree on what is stored about these make the same calls about
them and have the same result, whatever the document holds and whether there is one at all, as long
as it can be loaded and written where there is one. -/

namespace PeerPool.Proofs.UnseenDocuments
open PassLogic PassDocument PassServices PassCalls PassPools SeparateWorlds Provider Cluster

variable {σ τ α β γ δ : Type}

/-- Calls about reservations and services go by what is stored about them, which other calls leave alone. -/
structure Apart (answer : Answers σ) (stores : σ → τ) : Prop where
  serves : Sees answer stores storing
  kept : ∀ state call, kind call ∉ storing → stores (answer state call).2 = stores state

/-- If the call is about a document, it can be read or is accepted. -/
def served : (call : Call) → call.Answer → Bool
  | .loadDocument _, .ok text => (Config.read text).isOk
  | .loadDocument _, .error _ => false
  | .patchDocument _ _, reply => reply.isOk
  | _, _ => true

def Serves (answer : Answers σ) (calls : List (σ × Call)) : Prop := ∀ entry ∈ calls, served entry.2 (answer entry.1 entry.2).1 = true

instance (answer : Answers σ) (calls : List (σ × Call)) : Decidable (Serves answer calls) :=
  inferInstanceAs (Decidable (∀ entry ∈ calls, served entry.2 (answer entry.1 entry.2).1 = true))

/-- The calls about reservations and services. -/
def storeCalls (calls : List (σ × Call)) : List Call := (calls.map Prod.snd).filter (kind · ∈ storing)

theorem storeCalls_append (first second : List (σ × Call)) : storeCalls (first ++ second) = storeCalls first ++ storeCalls second := by
  rw [storeCalls, List.map_append, List.filter_append, storeCalls, storeCalls]

/-- Two runs differ in nothing that has to do with reservations and services, and in nothing that is
seen of their results. -/
structure Matches (answer : Answers σ) (stores : σ → τ) (seen : α → γ) (first second : σ) (pass other : Pass α) : Prop where
  result : (effect answer second other).1.map seen = (effect answer first pass).1.map seen
  calls : storeCalls (made answer second other) = storeCalls (made answer first pass)
  stores : stores (effect answer second other).2 = stores (effect answer first pass).2

/-- Two runs match where they come to a document that serves them. -/
def Blind (answer : Answers σ) (stores : σ → τ) (seen : α → γ) (first second : σ) (pass other : Pass α) : Prop :=
  Serves answer (made answer first pass) → Serves answer (made answer second other) →
    Matches answer stores seen first second pass other

namespace Blind

variable {answer : Answers σ} {stores : σ → τ} {first second : σ} {seen : α → γ} {sight : β → δ} {pass other : Pass α}

theorem pure {value another : α} (look : seen another = seen value) (same : stores second = stores first) :
    Blind answer stores seen first second (Pure.pure value) (Pure.pure another) :=
  fun _ _ => ⟨congrArg Except.ok look, rfl, same⟩

theorem say_bind {level : Level} {text another : String} {next follow : Unit → Pass α}
    (later : Blind answer stores seen first second (next ()) (follow ())) :
    Blind answer stores seen first second (Pass.say level text >>= next) (Pass.say level another >>= follow) := by
  intro serves reserves
  obtain ⟨result, calls, same⟩ := later serves reserves
  exact ⟨result, calls, same⟩

theorem bind {next follow : α → Pass β} (blind : Blind answer stores seen first second pass other)
    (later : ∀ value another here there, seen another = seen value → stores there = stores here →
      Blind answer stores sight here there (next value) (follow another)) :
    Blind answer stores sight first second (pass >>= next) (other >>= follow) := by
  intro serves reserves
  have earlier := blind (fun entry member => serves entry (made_first answer entry member))
    fun entry member => reserves entry (made_first answer entry member)
  obtain ⟨result, calls, same⟩ := earlier
  rw [made_bind] at serves reserves
  -- Both first parts fail alike, or both go on from what looks the same.
  generalize came : effect answer first pass = ran at result same serves
  generalize went : effect answer second other = reran at result same reserves
  obtain ⟨error | value, here⟩ := ran <;> obtain ⟨fault | another, there⟩ := reran
  · cases result
    refine ⟨?_, ?_, ?_⟩
    · rw [effect_bind, effect_bind, came, went]
    · rw [made_bind, made_bind, came, went, List.append_nil, List.append_nil, calls]
    · rw [effect_bind, effect_bind, came, went]
      exact same
  · cases result
  · cases result
  · have last := later value another here there (Except.ok.inj result) same
      (fun entry member => serves entry (List.mem_append_right _ member))
      fun entry member => reserves entry (List.mem_append_right _ member)
    refine ⟨?_, ?_, ?_⟩
    · rw [effect_then answer came, effect_then answer went, last.result]
    · rw [made_bind, made_bind, came, went, storeCalls_append, storeCalls_append, calls, last.calls]
    · rw [effect_then answer came, effect_then answer went, last.stores]

variable (apart : Apart answer stores)
include apart

/-- A pass that is only about reservations and services does the same from either state. -/
theorem agree (makes : Makes storing pass) (same : stores second = stores first) : Blind answer stores id first second pass pass := by
  intro _ _
  obtain ⟨value, views, made⟩ := asks_agree apart.serves makes same
  refine ⟨?_, congrArg (List.filter _) made, views⟩
  rw [Except.map_id]
  exact value

/-- Of passes that are only about the document nothing is seen, as long as they succeed. -/
theorem aside {kinds : List Kind} (unseen : ∀ kind ∈ kinds, kind ∉ storing) (makes : Makes kinds pass) (remakes : Makes kinds other)
    (succeeds : Serves answer (made answer first pass) → (effect answer first pass).1.isOk = true)
    (resucceeds : Serves answer (made answer second other) → (effect answer second other).1.isOk = true)
    (same : stores second = stores first) : Blind answer stores (fun _ => ()) first second pass other := by
  intro serves reserves
  have silent {state : σ} {part : Pass α} (makes : Makes kinds part) : storeCalls (made answer state part) = [] := by
    refine List.filter_eq_nil_iff.mpr fun call member about => ?_
    obtain ⟨⟨before, _⟩, inside, rfl⟩ := List.mem_map.mp member
    exact unseen _ (makes.only inside) (of_decide_eq_true about)
  have kept {state : σ} {part : Pass α} (makes : Makes kinds part) : stores (effect answer state part).2 = stores state :=
    makes.frame (Prod.eta _).symm stores fun between call known => apart.kept between call (unseen _ known)
  refine ⟨?_, (silent remakes).trans (silent makes).symm, ?_⟩
  · have ok := succeeds serves
    have reok := resucceeds reserves
    generalize (effect answer first pass).1 = result at ok ⊢
    generalize (effect answer second other).1 = another at reok ⊢
    cases result <;> cases another <;> simp_all [Except.isOk, Except.toBool, Except.map]
  · rw [kept remakes, kept makes, same]

end Blind

section

variable {answer : Answers σ} {stores : σ → τ} (settings : Settings)

theorem reserve_elsewhere (location? : Option Location) (identity : Identity) :
    Pass.reserve { settings with location := location? } identity = Pass.reserve settings identity := by
  unfold Pass.reserve
  simp only
  congr 1
  funext _
  congr 1
  funext reply
  cases reply <;> rfl

theorem addServices_elsewhere (location? : Option Location) (listed : List Reservation) (config? : Option Config) (services : List Service) :
    Pass.addServices { settings with location := location? } listed config? services = Pass.addServices settings listed config? services := by
  have single (config? : Option Config) (service : Service) : Pass.addService { settings with location := location? } listed config? service =
      Pass.addService settings listed config? service := by
    simp only [Pass.addService, Pass.addressOf, reserve_elsewhere]
    rfl
  induction services generalizing config? with
  | nil => rfl
  | cons service rest ih => simp only [Pass.addServices, single, ih]

theorem removeServices_elsewhere (location? : Option Location) (listed : List Reservation) (config? : Option Config)
    (services : List Service) :
    Pass.removeServices { settings with location := location? } listed config? services =
      Pass.removeServices settings listed config? services := by
  induction services generalizing config? with
  | nil => rfl
  | cons service rest ih =>
    simp only [Pass.removeServices, ih]
    rfl

theorem serves_single {before : σ} {call : Call} : Serves answer [(before, call)] ↔ served call (answer before call).1 = true :=
  List.forall_mem_singleton

/-- Loading succeeds exactly if the document can be read, where there is one. -/
theorem loadGiven_served {state : σ} :
    (effect answer state (loadGiven settings)).1.isOk = true ↔ Serves answer (made answer state (loadGiven settings)) := by
  unfold loadGiven
  cases settings.location with
  | none => exact ⟨fun _ _ member => absurd member List.not_mem_nil, fun _ => rfl⟩
  | some location =>
    simp only [made_map, made_load, effect_map, effect_load, serves_single]
    generalize (answer state (.loadDocument location.name)).1 = reply
    cases reply with
    | error error => exact Iff.rfl
    | ok text =>
      change (((Config.read text).mapError PassError.invalidDocument).map some).isOk = true ↔ (Config.read text).isOk = true
      cases Config.read text <;> exact Iff.rfl

/-- Writing succeeds exactly if it is accepted, where there is something to write. -/
theorem saveIfChanged_served {state : σ} (loaded? config? : Option Config) :
    (effect answer state (Pass.saveIfChanged settings loaded? config?)).1.isOk = true ↔
      Serves answer (made answer state (Pass.saveIfChanged settings loaded? config?)) := by
  have silent {pass : Pass Unit} (ok : (effect answer state pass).1.isOk = true) (quiet : made answer state pass = []) :
      (effect answer state pass).1.isOk = true ↔ Serves answer (made answer state pass) := by
    rw [quiet]
    exact ⟨fun _ _ member => absurd member List.not_mem_nil, fun _ => ok⟩
  unfold Pass.saveIfChanged
  split
  next location config located =>
    split
    next => exact silent rfl rfl
    next changed =>
      rw [made_save, effect_save, serves_single]
      change _ ↔ (answer state (.patchDocument location.name (configPatch config.write))).1.isOk = true
      cases (answer state (.patchDocument location.name (configPatch config.write))).1 <;> exact Iff.rfl
  next => exact silent rfl rfl

variable (apart : Apart answer stores) {first second : σ} (same : stores second = stores first)
include apart same

theorem addService_blind (listed : List Reservation) (config? other? : Option Config) (service : Service) :
    Blind answer stores (fun _ => ()) first second (Pass.addService settings listed config? service)
      (Pass.addService settings listed other? service) := by
  rw [addService_eq, addService_eq]
  refine (Blind.agree apart (makes_identityOf service) same).bind fun identity _ here there look agree => ?_
  cases look
  have addresses : Makes storing (Pass.addressOf settings listed service identity) :=
    makes_addressOf settings (by decide) (by decide) (by decide) listed service identity
  refine (Blind.agree apart addresses agree).bind fun cidr? _ here there look agree => ?_
  cases look
  intro _ _
  have quiet (config? : Option Config) : Makes [] (mapGiven identity cidr? config?) := makes_mapGiven identity cidr? config?
  refine ⟨?_, ?_, ?_⟩
  · rw [effect_mapGiven, effect_mapGiven]
    rfl
  · rw [(quiet _).quiet, (quiet _).quiet]
  · rw [effect_mapGiven, effect_mapGiven]
    exact agree

theorem addServices_blind (listed : List Reservation) (config? other? : Option Config) (services : List Service) :
    Blind answer stores (fun _ => ()) first second (Pass.addServices settings listed config? services)
      (Pass.addServices settings listed other? services) := by
  induction services generalizing config? other? first second with
  | nil => exact .pure rfl same
  | cons service rest ih =>
    refine (addService_blind settings apart same listed config? other? service).bind fun added another here there _ agree => ?_
    exact (ih agree added.config another.config).bind fun _ _ here there _ agree => .pure rfl agree

theorem removeServices_blind (listed : List Reservation) (config? other? : Option Config) (services : List Service) :
    Blind answer stores (fun _ => ()) first second (Pass.removeServices settings listed config? services)
      (Pass.removeServices settings listed other? services) := by
  induction services generalizing config? other? first second with
  | nil => exact .pure rfl same
  | cons service rest ih =>
    simp only [Pass.removeServices]
    refine (Blind.agree apart (makes_identityOf service) same).bind fun identity _ here there look agree => ?_
    cases look
    split
    · exact .say_bind (ih agree config? other?)
    next reservation _ =>
      have deletes : Makes storing (Pass.ask (.deleteReservation reservation.id)) := .ask (by simp [kind, storing])
      refine (Blind.agree apart deletes agree).bind fun reply _ here there look agree => ?_
      cases look
      cases reply with
      | error error => exact .say_bind (ih agree config? other?)
      | ok _ => exact .say_bind (ih agree _ _)

theorem saveIfChanged_blind (loaded? reloaded? config? other? : Option Config) (location? : Option Location) :
    Blind answer stores (fun _ => ()) first second (Pass.saveIfChanged settings loaded? config?)
      (Pass.saveIfChanged { settings with location := location? } reloaded? other?) := by
  have saves (settings : Settings) (loaded? config? : Option Config) : Makes [.patch] (Pass.saveIfChanged settings loaded? config?) :=
    makes_saveIfChanged settings (by decide) loaded? config?
  exact .aside apart (by decide) (saves ..) (saves ..) (saveIfChanged_served _ _ _).mpr (saveIfChanged_served _ _ _).mpr same

theorem loadGiven_blind (location? : Option Location) :
    Blind answer stores (fun _ => ()) first second (loadGiven settings) (loadGiven { settings with location := location? }) := by
  have loads (settings : Settings) : Makes [.load] (loadGiven settings) := makes_loadGiven settings (by decide)
  exact .aside apart (by decide) (loads _) (loads _) (loadGiven_served _).mpr (loadGiven_served _).mpr same

theorem cleanUp_blind (loaded? reloaded? : Option Config) (services : List Service) (added another : List String × Option Config)
    (location? : Option Location) :
    Blind answer stores (fun _ => ()) first second (cleanUp settings loaded? services added)
      (cleanUp { settings with location := location? } reloaded? services another) := by
  have lists : Makes storing (Pass.listReservations settings) := makes_listReservations settings (by decide)
  refine (Blind.agree apart lists same).bind fun current _ here there look agree => ?_
  cases look
  refine .say_bind (.say_bind ?_)
  have quiet (added : List String × Option Config) : Makes [] (withoutStale added.1 added.2) := makes_withoutStale added.1 added.2
  have cleans : Blind answer stores (fun _ => ()) here there (withoutStale added.1 added.2) (withoutStale another.1 another.2) := by
    refine .aside apart (by decide) (quiet added) (quiet another) ?_ ?_ agree
    · rw [effect_withoutStale]
      exact fun _ => rfl
    · rw [effect_withoutStale]
      exact fun _ => rfl
  refine cleans.bind fun config? other? here there _ agree => ?_
  refine (saveIfChanged_blind settings apart agree loaded? reloaded? config? other? location?).bind fun _ _ here there _ agree => ?_
  have deletes : Makes storing (Pass.deleteOrphans (Pass.orphans settings (tagsOf services) current)) := makes_deleteOrphans (by decide) _
  exact Blind.agree apart deletes agree

theorem perform_blind (mode : Mode) (listed : List Reservation) (loaded? reloaded? : Option Config) (services : List Service)
    (location? : Option Location) :
    Blind answer stores (fun _ => ()) first second (perform settings mode listed loaded? services)
      (perform { settings with location := location? } mode listed reloaded? services) := by
  have adding : Blind answer stores (fun _ => ()) first second (Pass.addServices settings listed loaded? services)
      (Pass.addServices { settings with location := location? } listed reloaded? services) := by
    rw [addServices_elsewhere settings location?]
    exact addServices_blind settings apart same listed loaded? reloaded? services
  cases mode with
  | add => exact adding.bind fun _ _ here there _ agree => saveIfChanged_blind settings apart agree _ _ _ _ location?
  | remove =>
    have removing : Blind answer stores (fun _ => ()) first second (Pass.removeServices settings listed loaded? services)
        (Pass.removeServices { settings with location := location? } listed reloaded? services) := by
      rw [removeServices_elsewhere settings location?]
      exact removeServices_blind settings apart same listed loaded? reloaded? services
    exact removing.bind fun _ _ here there _ agree => saveIfChanged_blind settings apart agree _ _ _ _ location?
  | sync =>
    rw [perform, perform, syncServices_eq, syncServices_eq]
    exact adding.bind fun added another here there _ agree => cleanUp_blind settings apart agree _ _ services added another location?

end

/-- What a pass does about reservations and services, and its result, are the same from two states that
agree on them, whatever is in the document and wherever it is, if anywhere. -/
theorem document_unseen {answer : Answers σ} {stores : σ → τ} (apart : Apart answer stores) (settings : Settings)
    (location? : Option Location) (mode : Mode) (batch : List Service) {first second : σ} (same : stores second = stores first)
    (serves : Serves answer (made answer first (Pass.services settings mode batch)))
    (reserves : Serves answer (made answer second (Pass.services { settings with location := location? } mode batch))) :
    (effect answer second (Pass.services { settings with location := location? } mode batch)).1 =
        (effect answer first (Pass.services settings mode batch)).1 ∧
      storeCalls (made answer second (Pass.services { settings with location := location? } mode batch)) =
        storeCalls (made answer first (Pass.services settings mode batch)) ∧
      stores (effect answer second (Pass.services { settings with location := location? } mode batch)).2 =
        stores (effect answer first (Pass.services settings mode batch)).2 := by
  have lists : Makes storing (Pass.listReservations settings) := makes_listReservations settings (by decide)
  have blind : Blind answer stores (fun _ => ()) first second (Pass.services settings mode batch)
      (Pass.services { settings with location := location? } mode batch) := by
    rw [services_eq, services_eq]
    refine .say_bind ((Blind.agree apart lists same).bind fun listed _ here there look agree => ?_)
    cases look
    refine (loadGiven_blind settings apart agree location?).bind fun loaded? reloaded? here there _ agree => ?_
    exact perform_blind settings apart agree mode listed loaded? reloaded? _ location?
  obtain ⟨result, calls, left⟩ := blind serves reserves
  refine ⟨?_, calls, left⟩
  -- The results hold nothing, so there is nothing of them that is not seen.
  rwa [Except.map_id] at result

section

open Simulation Sites

/-- The agent made a reservation for nobody, and a service waits for an address. -/
def stocked : Memory where
  document := some ({ pools := [{ name := "shop/web", protocol := "bgp", addresses := ["10.0.0.9/32"] }] } : Config).write
  reservations := [⟨"r9", .v4 10 0 0 9, 32, [plain.providerTag]⟩]
  services := [web]

theorem document_unseen_web :
    let disabled : Settings := { plain with location := none }
    Serves Memory.answer (made Memory.answer stocked (Pass.services plain .sync [web])) ∧
      Serves Memory.answer (made Memory.answer (stock stocked) (Pass.services disabled .sync [web])) ∧
      (effect Memory.answer (stock stocked) (Pass.services disabled .sync [web])).1 =
        (effect Memory.answer stocked (Pass.services plain .sync [web])).1 ∧
      storeCalls (made Memory.answer (stock stocked) (Pass.services disabled .sync [web])) =
        storeCalls (made Memory.answer stocked (Pass.services plain .sync [web])) ∧
      stock (effect Memory.answer (stock stocked) (Pass.services disabled .sync [web])).2 =
        stock (effect Memory.answer stocked (Pass.services plain .sync [web])).2 := by
  have apart : Apart Memory.answer stock := ⟨memory_serves, memory_stocked⟩
  have serves : Serves Memory.answer (made Memory.answer stocked (Pass.services plain .sync [web])) := by decide +kernel
  have reserves : Serves Memory.answer (made Memory.answer (stock stocked) (Pass.services { plain with location := none } .sync [web])) := by
    decide +kernel
  exact ⟨serves, reserves, document_unseen apart plain none .sync [web] rfl serves reserves⟩

end

end PeerPool.Proofs.UnseenDocuments
