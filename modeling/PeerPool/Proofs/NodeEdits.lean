import PeerPool.Proofs.PeersSynchronized

/-! What a pass over nodes makes of the configuration, by what is said about the routers of the
nodes. It goes by a flag to tell whether anything has changed, and the flag is right: a pass that
removes peers and adds others never comes back to where it was. -/

namespace PeerPool.Proofs.NodeEdits
open PassLogic PassCalls PassPeers PeerEdits PeersSynchronized Synchronized Cluster

/-- The configuration is edited for a batch of nodes, of which `lookup` tells the routers. -/
inductive EditedFor (settings : Settings) (lookup : List PeeringNode → List (List String)) (loaded : Config)
    (batch : List Node) : Mode → Edited → Prop where
  | removed {names : List String} : batch.map (·.metadata.name) = names.map some →
      EditedFor settings lookup loaded batch .remove (withoutNodes ⟨loaded, false⟩ names)
  | added {selected : List PeeringNode} : Selects settings.nodeSelector batch selected →
      EditedFor settings lookup loaded batch .add (withPeers settings ⟨loaded, false⟩ (pairsOf selected (lookup selected)))
  | synchronized {selected : List PeeringNode} : Selects settings.nodeSelector batch selected →
      EditedFor settings lookup loaded batch .sync
        (withPeers settings (loaded.retainNodes (selected.map (·.name)))
          (pairsOf (missingNodes selected loaded) (lookup (missingNodes selected loaded))))

variable {σ : Type} {answer : Answers σ} {settings : Settings} {lookup : List PeeringNode → List (List String)}
  {loaded : Config} {batch : List Node} {mode : Mode} {edited : Edited}

theorem editForNodes_ok {state after : σ}
    (ok : effect answer state (Pass.editForNodes settings mode loaded batch) = (.ok edited, after)) :
    EditedFor settings (fun nodes => (resolved answer state nodes).1) loaded batch mode edited := by
  cases mode with
  | remove =>
    obtain ⟨result, ran, removes⟩ := effect_removeNodes answer state ⟨loaded, false⟩ batch
    cases ran.symm.trans ok
    obtain ⟨names, all, rfl⟩ := removes edited rfl
    exact .removed all
  | add =>
    obtain ⟨selected, between, chooses, adds⟩ := (effect_bind_ok answer).mp ok
    obtain ⟨_, chose, _, selects⟩ := effect_peeringNodes answer state settings.nodeSelector batch
    cases chooses.symm.trans chose
    rw [effect_addNodes] at adds
    cases adds
    exact .added (selects selected rfl)
  | sync =>
    obtain ⟨selected, between, chooses, syncs⟩ := (effect_bind_ok answer).mp ok
    obtain ⟨_, chose, _, selects⟩ := effect_peeringNodes answer state settings.nodeSelector batch
    cases chooses.symm.trans chose
    rw [(syncNodes_adds state loaded selected).1, effect_addNodes] at syncs
    cases syncs
    exact .synchronized (selects selected rfl)

theorem EditedFor.edits (edited_for : EditedFor settings lookup loaded batch mode edited) : EditsPeers loaded edited := by
  cases edited_for with
  | removed _ => exact withoutNodes_edits (.refl loaded) _
  | added _ => exact withPeers_edits settings (.refl loaded) _
  | synchronized _ => exact withPeers_edits settings (filterPeers_edits loaded _) _

theorem selects_injective : Function.Injective fun node : PeeringNode => (some node.name, some node.providerId) := by
  rintro ⟨name, providerId⟩ ⟨other, otherId⟩ same
  cases same
  rfl

/-- The node is to peer, under this name and with this provider ID. -/
structure PeersAs (selector : Selector) (node : Node) (name providerId : String) : Prop where
  accepted : Selector.accepts selector node.labels = true
  named : node.metadata.name = some name
  given : node.assignedId? = some providerId

theorem mem_selects {selector : Selector} {selected : List PeeringNode} (selects : Selects selector batch selected)
    {name providerId : String} : ⟨name, providerId⟩ ∈ selected ↔ ∃ node ∈ batch, PeersAs selector node name providerId := by
  rw [← List.mem_map_of_injective selects_injective, selects]
  simp only [List.mem_map, List.mem_filter, Prod.mk.injEq]
  constructor
  · rintro ⟨node, ⟨member, accepted⟩, named, given⟩
    exact ⟨node, member, accepted, named, given⟩
  · rintro ⟨node, member, accepted, named, given⟩
    exact ⟨node, ⟨member, accepted⟩, named, given⟩

theorem Selects.unique {selector : Selector} {selected others : List PeeringNode} (first : Selects selector batch selected)
    (second : Selects selector batch others) : selected = others :=
  List.map_injective_iff.mpr selects_injective (first.trans second.symm)

theorem EditedFor.unique {other : Edited} (edited_for : EditedFor settings lookup loaded batch mode edited)
    (other_for : EditedFor settings lookup loaded batch mode other) : edited = other := by
  cases edited_for with
  | removed first =>
    cases other_for with
    | removed second => rw [List.map_injective_iff.mpr (fun _ _ => Option.some.inj) (first.symm.trans second)]
  | added first =>
    cases other_for with
    | added second => rw [Selects.unique first second]
  | synchronized first =>
    cases other_for with
    | synchronized second => rw [Selects.unique first second]

/-- Peers that were removed for naming other nodes do not come back as peers of the selected ones. -/
theorem retained_differs {selected : List PeeringNode} {pairs : List (String × String)}
    (known : ∀ pair ∈ pairs, pair.1 ∈ selected.map (·.name)) (stale : (loaded.retainNodes (selected.map (·.name))).changed = true) :
    (withPeers settings (loaded.retainNodes (selected.map (·.name))) pairs).config ≠ loaded := by
  obtain ⟨peer, member, other⟩ := filterPeers_changed stale
  intro same
  rw [← same] at member
  rcases mem_withPeers settings member with kept | ⟨pair, inside, rfl⟩
  · exact Bool.eq_false_iff.mp other (List.mem_filter.mp kept).2
  · rw [hostnames_peerOf] at other
    simp only [List.all_cons, List.all_nil, Bool.and_true] at other
    exact Bool.eq_false_iff.mp other (List.contains_iff_mem.mpr (known pair inside))

theorem EditedFor.changed_iff (edited_for : EditedFor settings lookup loaded batch mode edited) :
    edited.changed = true ↔ edited.config ≠ loaded := by
  constructor
  · cases edited_for with
    | removed _ =>
      intro changed same
      rcases (withoutNodes_shrinks ⟨loaded, false⟩ _).2 changed with before | shorter
      · cases before
      · rw [same] at shorter
        exact Nat.lt_irrefl _ shorter
    | added _ =>
      intro changed same
      rcases (withPeers_grows settings ⟨loaded, false⟩ _).2 changed with before | longer
      · cases before
      · rw [same] at longer
        exact Nat.lt_irrefl _ longer
    | @synchronized selected _ =>
      intro changed
      by_cases stale : (loaded.retainNodes (selected.map (·.name))).changed = true
      · refine retained_differs ?_ stale
        intro pair member
        obtain ⟨entry, zipped, same, _⟩ := mem_pairsOf.mp member
        exact List.mem_map.mpr ⟨entry.1, (mem_missingNodes.mp (List.of_mem_zip zipped).1).1, same⟩
      · have kept := (filterPeers_edits loaded _).idle (Bool.not_eq_true _ ▸ stale)
        rcases (withPeers_grows settings (loaded.retainNodes (selected.map (·.name))) _).2 changed with before | longer
        · exact absurd before stale
        · intro same
          rw [same] at longer
          exact Nat.ne_of_lt longer (congrArg (·.peers.length) kept)
  · intro differs
    by_contra unchanged
    exact differs (edited_for.edits.idle (Bool.not_eq_true _ ▸ unchanged))

/-- Editing the configuration for nodes fails only for want of something about one of them. -/
theorem editForNodes_ok_iff {state : σ} :
    (∃ edited after, effect answer state (Pass.editForNodes settings mode loaded batch) = (.ok edited, after)) ↔
      (∀ node ∈ batch, node.metadata.name.isSome = true) ∧
        (mode ≠ .remove → ∀ node ∈ batch, Complete settings.nodeSelector node) := by
  constructor
  · rintro ⟨edited, after, ok⟩
    have chosen {next : List PeeringNode → Pass Edited}
        (ok : effect answer state (Pass.peeringNodes settings.nodeSelector batch >>= next) = (.ok edited, after)) :
        ∀ node ∈ batch, Complete settings.nodeSelector node := by
      obtain ⟨selected, _, chooses, _⟩ := (effect_bind_ok answer).mp ok
      exact peeringNodes_complete chooses
    cases mode with
    | remove =>
      obtain ⟨_, ran, removes⟩ := effect_removeNodes answer state ⟨loaded, false⟩ batch
      cases ran.symm.trans ok
      obtain ⟨names, all, _⟩ := removes edited rfl
      refine ⟨fun node member => ?_, fun other => absurd rfl other⟩
      have listed : node.metadata.name ∈ names.map some := all ▸ List.mem_map_of_mem member
      obtain ⟨name, _, same⟩ := List.mem_map.mp listed
      exact Option.isSome_of_eq_some same.symm
    | add => exact ⟨fun node member => (chosen ok node member).named, fun _ => chosen ok⟩
    | sync => exact ⟨fun node member => (chosen ok node member).named, fun _ => chosen ok⟩
  · rintro ⟨named, complete⟩
    cases mode with
    | remove =>
      obtain ⟨final, ok⟩ := removeNodes_ok answer state ⟨loaded, false⟩ named
      exact ⟨final, state, ok⟩
    | add =>
      obtain ⟨selected, chooses⟩ := peeringNodes_ok answer state (complete (by decide))
      exact ⟨_, _, (effect_then answer chooses _).trans (effect_addNodes ..)⟩
    | sync =>
      obtain ⟨selected, chooses⟩ := peeringNodes_ok answer state (complete (by decide))
      exact ⟨_, _, (effect_then answer chooses _).trans ((syncNodes_adds ..).1.trans (effect_addNodes ..))⟩

/-- What it takes for a pass over nodes to succeed: a document that can be read, nodes that say
what must be known about them, and nobody who refuses what there is to write. -/
structure Undisturbed (answer : Answers σ) (settings : Settings) (name : String) (mode : Mode) (batch : List Node)
    (state : σ) : Prop where
  loads : ∃ loaded, (effect answer state (Pass.load name)).1 = .ok loaded
  named : ∀ node ∈ batch, node.metadata.name.isSome = true
  complete : mode ≠ .remove → ∀ node ∈ batch, Complete settings.nodeSelector node
  saves : ∀ before patch, (before, .patchDocument name patch) ∈ made answer state (Pass.nodes settings mode batch) →
    (answer before (.patchDocument name patch)).1 = .ok ()

theorem nodes_patches {location : Location} (located : settings.location = some location) {state opened between : σ}
    (loads : effect answer state (Pass.load location.name) = (.ok loaded, opened))
    (edits : effect answer opened (Pass.editForNodes settings mode loaded batch) = (.ok edited, between)) :
    ofKind .patch (made answer state (Pass.nodes settings mode batch)) =
      made answer between (writeBack location.name edited) := by
  have loading : Makes [.load] (Pass.load location.name) := makes_load (by decide) location.name
  have editing : Makes [.resolve] (Pass.editForNodes settings mode loaded batch) :=
    makes_editForNodes settings (by decide) mode loaded batch
  rw [made_nodes answer state located, loading.ofKind_bind (by decide), loads]
  simp only
  rw [editing.ofKind_bind (by decide), edits]
  simp only
  rw [made_writeBack]
  split <;> rfl

theorem nodes_ok_iff {state : σ} :
    (effect answer state (Pass.nodes settings mode batch)).1 = .ok () ↔
      ∀ location, settings.location = some location → Undisturbed answer settings location.name mode batch state := by
  cases located : settings.location with
  | none =>
    have idle : effect answer state (Pass.nodes settings mode batch) = (.ok (), state) := by
      unfold Pass.nodes
      rw [located]
      rfl
    rw [idle]
    exact ⟨fun _ _ given => (by cases given), fun _ => rfl⟩
  | some location =>
    rw [effect_nodes answer state located]
    have written {loaded : Config} {edited : Edited} {opened between : σ}
        (loads : effect answer state (Pass.load location.name) = (.ok loaded, opened))
        (edits : effect answer opened (Pass.editForNodes settings mode loaded batch) = (.ok edited, between))
        (before : σ) (patch : Json) :
        (before, .patchDocument location.name patch) ∈ made answer between (writeBack location.name edited) ↔
          (before, .patchDocument location.name patch) ∈ made answer state (Pass.nodes settings mode batch) := by
      rw [← nodes_patches located loads edits]
      exact List.mem_filter.trans (and_iff_left rfl)
    constructor
    · rintro ok _ ⟨⟩
      obtain ⟨loaded, opened, loads, rest⟩ := (effect_bind_ok answer).mp (Prod.ext ok rfl)
      obtain ⟨edited, between, edits, writes⟩ := (effect_bind_ok answer).mp rest
      obtain ⟨named, complete⟩ := editForNodes_ok_iff.mp ⟨edited, between, edits⟩
      refine ⟨⟨loaded, congrArg Prod.fst loads⟩, named, complete, ?_⟩
      intro before patch member
      exact (writeBack_ok_iff ..).mp (congrArg Prod.fst writes) before patch ((written loads edits before patch).mpr member)
    · intro undisturbed
      obtain ⟨⟨loaded, loads⟩, named, complete, saves⟩ := undisturbed location rfl
      have loads : effect answer state (Pass.load location.name) = (.ok loaded, _) := Prod.ext loads rfl
      obtain ⟨edited, between, edits⟩ := editForNodes_ok_iff.mpr ⟨named, complete⟩
      rw [effect_then answer loads, effect_then answer edits, writeBack_ok_iff]
      exact fun before patch member => saves before patch ((written loads edits before patch).mp member)

theorem EditedFor.stored (edited_for : EditedFor settings lookup loaded batch mode edited) {text : String}
    (read : Config.read text = .ok loaded) : Config.read (if edited.changed then edited.config.write else text) = .ok edited.config := by
  split
  · exact ConfigRoundTrip.read_write edited.config
  next unchanged =>
    rw [edited_for.edits.idle (Bool.not_eq_true _ ▸ unchanged)]
    exact read

/-- A pass that succeeds edits what it has loaded and leaves that behind. -/
theorem nodes_edited {location : Location} {document : σ → String} (store : Store answer location.name document)
    (located : settings.location = some location) {state after : σ}
    (ok : effect answer state (Pass.nodes settings mode batch) = (.ok (), after)) :
    ∃ loaded opened edited, effect answer state (Pass.load location.name) = (.ok loaded, opened) ∧
      Config.read (document state) = .ok loaded ∧
      EditedFor settings (fun nodes => (resolved answer opened nodes).1) loaded batch mode edited ∧
      document after = if edited.changed then edited.config.write else document state := by
  rw [effect_nodes answer state located] at ok
  obtain ⟨loaded, opened, loads, rest⟩ := (effect_bind_ok answer).mp ok
  obtain ⟨edited, between, edits, writes⟩ := (effect_bind_ok answer).mp rest
  have loading : Makes [.load] (Pass.load location.name) := makes_load (by decide) location.name
  have editing : Makes [.resolve] (Pass.editForNodes settings mode loaded batch) :=
    makes_editForNodes settings (by decide) mode loaded batch
  have still : document between = document state :=
    (store.frame edits editing (by decide)).trans (store.frame loads loading (by decide))
  refine ⟨loaded, opened, edited, loads, loaded_is_stored store loads, editForNodes_ok edits, ?_⟩
  rw [writeBack_stores store writes, still]

end PeerPool.Proofs.NodeEdits
