import PeerPool.Proofs.Deletions
import PeerPool.Proofs.NodeEdits
import PeerPool.Proofs.SilentPasses

/-! How a pass treats the document. Every pass comes to a draft of the configuration without
touching the document, then writes the draft at most once, and from then on cannot fail but by
that very write. So a pass that fails leaves the document as it was. -/

namespace PeerPool.Proofs.WrittenOnce
open PassLogic PassDocument PassServices PassCalls PassPeers SilentPasses NodeEdits PeersSynchronized Simulation Cluster Provider

variable {σ α β : Type} {answer : Answers σ}

/-- Two passes are alike if nothing but their logs tells them apart. -/
structure Alike (answer : Answers σ) (pass other : Pass α) : Prop where
  effect : ∀ state, effect answer state pass = effect answer state other
  made : ∀ state, made answer state pass = made answer state other

theorem alike_of_same {pass other : Pass α} (same : SameCalls pass other) : Alike answer pass other :=
  ⟨same.effect_eq answer, same.made_eq answer⟩

inductive Batch where
  | nodes (batch : List Node)
  | services (batch : List Service)

def passOver (settings : Settings) (mode : Mode) : Batch → Pass Unit
  | .nodes batch => Pass.nodes settings mode batch
  | .services batch => Pass.services settings mode batch

/-- What a pass is about to write: the configuration that it has loaded, and what has become of
it, with whether the pass holds it to be another one. -/
structure Draft where
  name : String
  loaded : Config
  edited : Edited

/-- A pass over services tells by comparison whether anything has changed. -/
def compared (location : Location) (loaded final : Config) : Draft := ⟨location.name, loaded, ⟨final, decide (loaded ≠ final)⟩⟩

/-- There is something to write where a configuration has been loaded. -/
def draft? (settings : Settings) (loaded? final? : Option Config) : Option Draft := do
  return compared (← settings.location) (← loaded?) (← final?)

def draftNodes (settings : Settings) (mode : Mode) (batch : List Node) : Pass (Option Draft) :=
  match settings.location with
  | none => pure none
  | some location => do
    let loaded ← Pass.load location.name
    let edited ← Pass.editForNodes settings mode loaded batch
    return some ⟨location.name, loaded, edited⟩

/-- The configuration for a batch of services, and the reservations that are left over then. -/
def editForServices (settings : Settings) (mode : Mode) (listed : List Reservation) (loaded? : Option Config)
    (services : List Service) : Pass (Option Config × List Reservation) :=
  match mode with
  | .add => do
    let added ← Pass.addServices settings listed loaded? services
    return (added.2, [])
  | .remove => do return (← Pass.removeServices settings listed loaded? services, [])
  | .sync => do
    let added ← Pass.addServices settings listed loaded? services
    let current ← Pass.listReservations settings
    let final? ← withoutStale added.1 added.2
    return (final?, Pass.orphans settings (tagsOf services) current)

def draftServices (settings : Settings) (mode : Mode) (batch : List Service) : Pass (Option Draft × List Reservation) := do
  let listed ← Pass.listReservations settings
  let loaded? ← loadGiven settings
  let edited ← editForServices settings mode listed loaded? (batch.filter (·.isLoadBalancer))
  return (draft? settings loaded? edited.1, edited.2)

/-- A pass up to where it writes, with what there is to delete afterwards. -/
def drafted (settings : Settings) (mode : Mode) : Batch → Pass (Option Draft × List Reservation)
  | .nodes batch => do return (← draftNodes settings mode batch, [])
  | .services batch => draftServices settings mode batch

def writeDraft : Option Draft → Pass Unit
  | none => pure ()
  | some draft => writeBack draft.name draft.edited

def finish (drafted : Option Draft × List Reservation) : Pass Unit := do
  writeDraft drafted.1
  Pass.deleteOrphans drafted.2

theorem finish_nil (draft? : Option Draft) : finish (draft?, []) = writeDraft draft? := bind_pure _

section

variable (settings : Settings) (mode : Mode)

theorem nodes_drafted (batch : List Node) :
    SameCalls (Pass.nodes settings mode batch) (drafted settings mode (.nodes batch) >>= finish) := by
  simp only [drafted, bind_assoc, pure_bind, finish_nil]
  cases located : settings.location with
  | none =>
    unfold Pass.nodes draftNodes
    rw [located]
    exact (SameCalls.refl _).say _ _
  | some location =>
    rw [nodes_eq located]
    simp only [draftNodes, located, bind_assoc, pure_bind]
    exact (SameCalls.refl _).say _ _

theorem saveIfChanged_drafted {loaded? : Option Config} (given : settings.location.isSome = loaded?.isSome)
    (final? : Option Config) :
    SameCalls (Pass.saveIfChanged settings loaded? final?) (writeDraft (draft? settings loaded? final?)) := by
  unfold Pass.saveIfChanged draft?
  cases located : settings.location with
  | none => exact .refl _
  | some location =>
    -- With a location there is always something loaded, so the draft is not lost.
    rw [located] at given
    obtain ⟨loaded, rfl⟩ := Option.isSome_iff_exists.mp given.symm
    cases final? with
    | none => exact .refl _
    | some final =>
      change SameCalls _ (writeBack location.name ⟨final, decide (loaded ≠ final)⟩)
      unfold writeBack
      by_cases same : loaded = final
      · simp only [same, ne_eq, not_true_eq_false, decide_false, if_true]
        rfl
      · simp only [same, Option.some.injEq, ne_eq, not_false_eq_true, decide_true, if_true, if_false]
        exact .refl _

theorem perform_drafted {loaded? : Option Config} (given : settings.location.isSome = loaded?.isSome)
    (listed : List Reservation) (services : List Service) :
    SameCalls (perform settings mode listed loaded? services)
      (editForServices settings mode listed loaded? services >>= fun edited =>
        finish (draft? settings loaded? edited.1, edited.2)) := by
  have saves (final? : Option Config) : SameCalls (Pass.saveIfChanged settings loaded? final?)
      (writeDraft (draft? settings loaded? final?)) := saveIfChanged_drafted settings given final?
  cases mode with
  | add =>
    simp only [editForServices, bind_assoc, pure_bind, finish_nil]
    exact (SameCalls.refl _).bind fun added => saves added.2
  | remove =>
    simp only [editForServices, bind_assoc, pure_bind, finish_nil]
    exact (SameCalls.refl _).bind saves
  | sync =>
    simp only [perform, syncServices_eq, editForServices, bind_assoc, pure_bind]
    refine (SameCalls.refl _).bind fun added => (SameCalls.refl _).bind fun current => ?_
    -- The pass logs what it takes to be valid before it looks for what is stale.
    refine ((SameCalls.refl _).bind fun final? => ?_).say _ _ |>.say _ _
    exact (saves final?).bind fun _ => .refl _

theorem services_drafted (batch : List Service) :
    SameCalls (Pass.services settings mode batch) (drafted settings mode (.services batch) >>= finish) := by
  rw [services_eq]
  simp only [drafted, draftServices, bind_assoc, pure_bind]
  refine SameCalls.say ?_ _ _
  refine (SameCalls.refl _).bind fun listed => ?_
  cases located : settings.location with
  | none =>
    simp only [loadGiven, located, pure_bind]
    exact perform_drafted settings mode (by rw [located]; rfl) listed _
  | some location =>
    simp only [loadGiven, located, map_eq_pure_bind, bind_assoc, pure_bind]
    exact (SameCalls.refl _).bind fun loaded => perform_drafted settings mode (by rw [located]; rfl) listed _

theorem same_drafted (batch : Batch) : SameCalls (passOver settings mode batch) (drafted settings mode batch >>= finish) := by
  cases batch with
  | nodes batch => exact nodes_drafted settings mode batch
  | services batch => exact services_drafted settings mode batch

theorem pass_drafted (batch : Batch) : Alike answer (passOver settings mode batch) (drafted settings mode batch >>= finish) :=
  alike_of_same (same_drafted settings mode batch)

theorem makes_editForServices {kinds : List Kind} (list : .list ∈ kinds) (create : .create ∈ kinds) (delete : .delete ∈ kinds)
    (get : .get ∈ kinds) (update : .update ∈ kinds) (listed : List Reservation) (loaded? : Option Config)
    (services : List Service) : Makes kinds (editForServices settings mode listed loaded? services) := by
  cases mode with
  | add => exact .bind (makes_addServices settings create get update listed loaded? services) fun _ => .pure _
  | remove => exact .bind (makes_removeServices settings delete listed loaded? services) fun _ => .pure _
  | sync =>
    refine .bind (makes_addServices settings create get update listed loaded? services) fun added => ?_
    refine .bind (makes_listReservations settings list) fun current => ?_
    exact .bind (makes_withoutStale added.1 added.2) fun _ => .pure _

def drafting : List Kind := [.load, .resolve, .list, .create, .delete, .get, .update]

theorem makes_drafted (batch : Batch) : Makes drafting (drafted settings mode batch) := by
  cases batch with
  | nodes batch =>
    refine .bind ?_ fun _ => .pure _
    unfold draftNodes
    split
    · exact .pure _
    · refine .bind (makes_load (by decide) _) fun loaded => ?_
      exact .bind (makes_editForNodes settings (by decide) mode loaded batch) fun _ => .pure _
  | services batch =>
    refine .bind (makes_listReservations settings (by decide)) fun listed => ?_
    refine .bind (makes_loadGiven settings (by decide)) fun loaded? => ?_
    refine .bind ?_ fun _ => .pure _
    exact makes_editForServices settings mode (by decide) (by decide) (by decide) (by decide) (by decide) listed loaded? _

theorem makes_finish (rest : Option Draft × List Reservation) : Makes [.patch, .delete] (finish rest) := by
  refine .bind ?_ fun _ => makes_deleteOrphans (by decide) _
  obtain ⟨_ | draft, orphans⟩ := rest
  · exact .pure ()
  · exact makes_writeBack (by decide) draft.name draft.edited

theorem load_reads (name : String) (state : σ) : (ofKind .load (made answer state (Pass.load name))).length ≤ 1 := by
  rw [made_load]
  exact List.length_filter_le ..

theorem loadGiven_reads (state : σ) : (ofKind .load (made answer state (loadGiven settings))).length ≤ 1 := by
  unfold loadGiven
  cases settings.location with
  | none => exact Nat.zero_le 1
  | some location =>
    have ends (loaded : Config) : Makes [] (pure (some loaded) : Pass (Option Config)) := .pure _
    simp only [map_eq_pure_bind]
    rw [Makes.ofKind_bind_left ends (by decide)]
    exact load_reads location.name state

theorem drafted_reads (batch : Batch) (state : σ) :
    (ofKind .load (made answer state (drafted settings mode batch))).length ≤ 1 := by
  cases batch with
  | nodes batch =>
    have edits (location : Location) (loaded : Config) : Makes [.resolve] (do
        let edited ← Pass.editForNodes settings mode loaded batch
        return some (Draft.mk location.name loaded edited)) :=
      .bind (makes_editForNodes settings (by decide) mode loaded batch) fun _ => .pure _
    have ends (draft? : Option Draft) : Makes [] (pure (draft?, []) : Pass (Option Draft × List Reservation)) := .pure _
    unfold drafted
    rw [Makes.ofKind_bind_left ends (by decide)]
    unfold draftNodes
    split
    · exact Nat.zero_le 1
    next location _ =>
      rw [Makes.ofKind_bind_left (edits location) (by decide)]
      exact load_reads location.name state
  | services batch =>
    have lists : Makes [.list] (Pass.listReservations settings) := makes_listReservations settings (by decide)
    have edits (listed : List Reservation) (loaded? : Option Config) :
        Makes [.list, .create, .delete, .get, .update] (do
          let edited ← editForServices settings mode listed loaded? (batch.filter (·.isLoadBalancer))
          return (draft? settings loaded? edited.1, edited.2)) := by
      refine .bind ?_ fun _ => .pure _
      exact makes_editForServices settings mode (by decide) (by decide) (by decide) (by decide) (by decide) listed loaded? _
    unfold drafted draftServices
    rw [lists.ofKind_bind (by decide)]
    split
    next listed after _ =>
      rw [Makes.ofKind_bind_left (edits listed) (by decide)]
      exact loadGiven_reads settings after
    next => exact Nat.zero_le 1

end

section

variable {settings : Settings} {mode : Mode}

theorem removeServices_some {listed : List Reservation} {services : List Service} {config? last? : Option Config}
    {state after : σ} (ok : effect answer state (Pass.removeServices settings listed config? services) = (.ok last?, after)) :
    last?.isSome = config?.isSome := by
  induction services generalizing state config? with
  | nil =>
    cases ok
    rfl
  | cons service rest ih =>
    rw [Pass.removeServices] at ok
    obtain ⟨identity, between, _, ok⟩ := (effect_bind_ok answer).mp ok
    split at ok
    · exact ih ok
    · rw [effect_ask_bind] at ok
      split at ok
      · exact ih ok
      · exact (ih ok).trans Option.isSome_map

theorem editForServices_some {listed : List Reservation} {services : List Service} {loaded : Config}
    {edited : Option Config × List Reservation} {state after : σ}
    (ok : effect answer state (editForServices settings mode listed (some loaded) services) = (.ok edited, after)) :
    edited.1.isSome = true := by
  cases mode with
  | add =>
    obtain ⟨added, _, adds, same⟩ := (effect_bind_ok answer).mp ok
    cases same
    obtain ⟨final, last, _⟩ := (Synchronized.addServices_adds adds).maps loaded rfl
    exact Option.isSome_of_eq_some last
  | remove =>
    obtain ⟨final?, _, removes, same⟩ := (effect_bind_ok answer).mp ok
    cases same
    exact removeServices_some removes
  | sync =>
    obtain ⟨added, _, adds, ok⟩ := (effect_bind_ok answer).mp ok
    obtain ⟨current, relisted, _, ok⟩ := (effect_bind_ok answer).mp ok
    rw [effect_bind, PassPools.effect_withoutStale] at ok
    cases ok
    obtain ⟨final, last, _⟩ := (Synchronized.addServices_adds adds).maps loaded rfl
    rw [last]
    rfl

/-- There is a draft where there is a configuration, and its flag is right. -/
inductive DraftOf : Option Location → Option Draft → Prop where
  | none : DraftOf none none
  | some {location : Location} {draft : Draft} : draft.name = location.name →
      (draft.edited.changed = true ↔ draft.edited.config ≠ draft.loaded) → DraftOf (some location) (some draft)

theorem draftNodes_ok {batch : List Node} {draft? : Option Draft} {state after : σ}
    (ok : effect answer state (draftNodes settings mode batch) = (.ok draft?, after)) : DraftOf settings.location draft? := by
  unfold draftNodes at ok
  cases located : settings.location with
  | none =>
    rw [located] at ok
    cases ok
    exact .none
  | some location =>
    rw [located] at ok
    obtain ⟨loaded, _, _, ok⟩ := (effect_bind_ok answer).mp ok
    obtain ⟨edited, _, edits, same⟩ := (effect_bind_ok answer).mp ok
    cases same
    exact .some rfl (editForNodes_ok edits).changed_iff

theorem draftServices_ok {batch : List Service} {rest : Option Draft × List Reservation} {state after : σ}
    (ok : effect answer state (draftServices settings mode batch) = (.ok rest, after)) : DraftOf settings.location rest.1 := by
  obtain ⟨listed, _, _, ok⟩ := (effect_bind_ok answer).mp ok
  obtain ⟨loaded?, _, loads, ok⟩ := (effect_bind_ok answer).mp ok
  obtain ⟨edited, _, edits, same⟩ := (effect_bind_ok answer).mp ok
  cases same
  cases located : settings.location with
  | none =>
    simp only [draft?, located]
    exact .none
  | some location =>
    obtain ⟨loaded, rfl, _⟩ := loadGiven_ok answer _ located loads
    obtain ⟨final, final?⟩ := Option.isSome_iff_exists.mp (editForServices_some edits)
    simp only [draft?, located, final?]
    exact .some rfl (decide_eq_true_iff.trans ne_comm)

theorem drafted_ok {batch : Batch} {rest : Option Draft × List Reservation} {state after : σ}
    (ok : effect answer state (drafted settings mode batch) = (.ok rest, after)) : DraftOf settings.location rest.1 := by
  cases batch with
  | nodes batch =>
    obtain ⟨draft?, _, drafts, same⟩ := (effect_bind_ok answer).mp ok
    cases same
    exact draftNodes_ok drafts
  | services batch => exact draftServices_ok ok

theorem finish_patches (rest : Option Draft × List Reservation) (state : σ) :
    ofKind .patch (made answer state (finish rest)) =
      match rest.1 with
      | some draft =>
        if draft.edited.changed then [(state, .patchDocument draft.name (configPatch draft.edited.config.write))] else []
      | none => [] := by
  have deletes : Makes [.delete] (Pass.deleteOrphans rest.2) := makes_deleteOrphans (by decide) rest.2
  unfold finish
  rw [Makes.ofKind_bind_left (fun _ => deletes) (by decide)]
  cases rest.1 with
  | none => rfl
  | some draft =>
    rw [writeDraft, made_writeBack]
    simp only
    split <;> rfl

end

/-- Once a pass writes, nothing but the refusal to write makes it fail. -/
theorem finish_error {rest : Option Draft × List Reservation} {state after : σ} {error : PassError}
    (failed : effect answer state (finish rest) = (.error error, after)) :
    effect answer state (writeDraft rest.1) = (.error error, after) := by
  unfold finish at failed
  rw [effect_bind] at failed
  split at failed
  next between wrote =>
    have succeeds := (@Deletions.deleteOrphans_deletes σ answer rest.2 between).1
    rw [failed] at succeeds
    cases succeeds
  next refusal between wrote =>
    cases failed
    exact wrote

/-- A call that fails leaves the document alone, and so does one that is not about writing it. -/
structure Guards {δ : Type} (answer : Answers σ) (document : σ → δ) : Prop where
  keeps : ∀ state call, kind call ≠ .patch → document (answer state call).2 = document state
  refuses : ∀ state name patch error, (answer state (.patchDocument name patch)).1 = .error error →
    document (answer state (.patchDocument name patch)).2 = document state

theorem guards_memory : Guards Memory.answer (·.document) where
  keeps := memory_keeps
  refuses state name patch error answered := by
    simp only [Memory.answer] at answered ⊢
    split at answered
    next refused => rw [if_pos refused]
    next => cases answered

section

variable {δ : Type} {document : σ → δ} (guards : Guards answer document)
include guards

theorem Guards.frame {kinds : List Kind} {pass : Pass α} {state after : σ} {result : Except PassError α}
    (ran : effect answer state pass = (result, after)) (makes : Makes kinds pass) (unwritten : .patch ∉ kinds) :
    document after = document state :=
  Makes.frame_except ran makes document unwritten guards.keeps

theorem Guards.unwritten {name : String} {edited : Edited} {state after : σ} {error : PassError}
    (failed : effect answer state (writeBack name edited) = (.error error, after)) : document after = document state := by
  unfold writeBack at failed
  split at failed
  · rw [effect_save] at failed
    obtain ⟨result, rfl⟩ := Prod.mk.inj failed
    generalize reply : (answer state _).1 = answered at result
    cases answered with
    | error error => exact guards.refuses _ _ _ _ reply
    | ok _ => cases result
  · cases failed

theorem Guards.wrote {draft? : Option Draft} {state after : σ} {error : PassError}
    (failed : effect answer state (writeDraft draft?) = (.error error, after)) : document after = document state := by
  cases draft? with
  | none => cases failed
  | some draft => exact guards.unwritten failed

end

/-- What a pass that has come so far patches. -/
def patchesOf : Except PassError (Option Draft × List Reservation) × σ → List (σ × Call)
  | (.ok (some draft, _), ready) =>
    if draft.edited.config = draft.loaded then []
    else [(ready, .patchDocument draft.name (configPatch draft.edited.config.write))]
  | _ => []

/-- What a pass does to the document. -/
structure WritesOnce {δ : Type} (answer : Answers σ) (document : σ → δ) (settings : Settings) (mode : Mode) (batch : Batch)
    (state : σ) : Prop where
  /-- But for its log, a pass drafts and then finishes. -/
  parts : Alike answer (passOver settings mode batch) (drafted settings mode batch >>= finish)
  reads : (ofKind .load (made answer state (passOver settings mode batch))).length ≤ 1
  once : (ofKind .patch (made answer state (passOver settings mode batch))).length ≤ 1
  patches : ofKind .patch (made answer state (passOver settings mode batch)) =
    patchesOf (effect answer state (drafted settings mode batch))
  ready : ∀ rest ready, effect answer state (drafted settings mode batch) = (.ok rest, ready) → DraftOf settings.location rest.1
  failed : ∀ error after, effect answer state (passOver settings mode batch) = (.error error, after) →
    document after = document state

theorem written_once {δ : Type} {document : σ → δ} (guards : Guards answer document) (settings : Settings) (mode : Mode)
    (batch : Batch) (state : σ) : WritesOnce answer document settings mode batch state := by
  have parts : Alike answer (passOver settings mode batch) (drafted settings mode batch >>= finish) :=
    pass_drafted settings mode batch
  have drafts := makes_drafted settings mode batch
  have patches : ofKind .patch (made answer state (passOver settings mode batch)) =
      patchesOf (effect answer state (drafted settings mode batch)) := by
    rw [parts.made, drafts.ofKind_bind (by decide)]
    generalize came : effect answer state (drafted settings mode batch) = result
    obtain ⟨error | ⟨draft?, orphans⟩, ready⟩ := result
    · rfl
    · simp only [finish_patches]
      have ready := drafted_ok came
      generalize settings.location = location? at ready
      cases ready with
      | none => rfl
      | @some _ draft _ changed =>
        -- The pass goes by its flag, and the flag says whether the configuration is another one.
        simp only [patchesOf]
        by_cases same : draft.edited.config = draft.loaded
        · rw [if_pos same, if_neg fun told => changed.mp told same]
        · rw [if_neg same, if_pos (changed.mpr same)]
  refine ⟨parts, ?_, ?_, patches, ?_, ?_⟩
  · rw [parts.made, Makes.ofKind_bind_left makes_finish (by decide)]
    exact drafted_reads settings mode batch state
  · rw [patches]
    unfold patchesOf
    split
    · split
      · exact Nat.zero_le 1
      · exact Nat.le_refl 1
    · exact Nat.zero_le 1
  · exact fun rest ready came => drafted_ok came
  · intro error after failed
    -- Nothing touches the document before the write, and nothing fails after it.
    rw [parts.effect, effect_bind] at failed
    split at failed
    next rest ready came =>
      rw [guards.wrote (finish_error failed)]
      exact guards.frame came drafts (by decide)
    next came =>
      cases failed
      exact guards.frame came drafts (by decide)

section

/-- The configuration of some nodes that can be read, but not written. -/
def sealed : Memory := { routed with faults := { patch := true } }

theorem written_once_sealed :
    ∃ error after, effect Memory.answer sealed (passOver accepting .sync (.nodes workers)) = (.error error, after) ∧
      after.document = sealed.document ∧
      WritesOnce Memory.answer (·.document) accepting .sync (.nodes workers) sealed := by
  have writes : WritesOnce Memory.answer (·.document) accepting .sync (.nodes workers) sealed :=
    written_once guards_memory accepting .sync (.nodes workers) sealed
  have located : accepting.location = some ⟨"metallb-system", "config"⟩ := rfl
  have loads : effect Memory.answer sealed (Pass.load "config") = (.ok scattered, sealed) :=
    effect_load_ok Memory.answer sealed "config" scattered rfl (ConfigRoundTrip.read_write scattered)
  have refused : (effect Memory.answer sealed
      (Pass.editForNodes accepting .sync scattered workers >>= writeBack "config")).1.toOption = none := by decide +kernel
  have failed : (effect Memory.answer sealed (passOver accepting .sync (.nodes workers))).1.toOption = none := by
    rw [passOver, effect_nodes Memory.answer sealed located, effect_then _ loads]
    exact refused
  generalize ran : effect Memory.answer sealed (passOver accepting .sync (.nodes workers)) = result at failed
  obtain ⟨error | _, after⟩ := result
  · exact ⟨error, after, rfl, writes.failed error after ran, writes⟩
  · cases failed

end

end PeerPool.Proofs.WrittenOnce
