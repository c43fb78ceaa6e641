import PeerPool.Proofs.AddedPeers
import PeerPool.Proofs.Coverage
import PeerPool.Proofs.WrittenOnce

/-! What a pass that removes nodes leaves of the peers. A peer goes if it is scoped to one of the nodes
by name and to nothing else, however often it says so. All peers that are added for nodes are of this
kind, so removing the nodes takes them out again and leaves no trace of them. -/

namespace PeerPool.Proofs.RemovedPeers
open PassLogic PassDocument PassCalls PassPeers PeerEdits PeersSynchronized NodeEdits Synchronized Coverage WrittenOnce
open Simulation Cluster

variable {σ : Type} {answer : Answers σ} {settings : Settings}

/-- The peer names the node, at least once, and asks for nothing else. -/
def ScopedTo (name : String) (peer : Peer) : Prop :=
  ∃ times, peer.selectors = List.replicate (times + 1) (NodeSelector.ofHostname name)

theorem scopedTo_iff {name : String} {peer : Peer} : ScopedTo name peer ↔ peer.hasSelectors [.ofHostname name] = true := by
  rw [Peer.hasSelectors, sameElements_iff]
  simp only [ScopedTo, List.mem_singleton]
  constructor
  · rintro ⟨times, same⟩ selector
    rw [same, List.mem_replicate]
    exact and_iff_right (Nat.succ_ne_zero times)
  · intro same
    have some : peer.selectors ≠ [] := List.ne_nil_of_mem ((same _).mpr rfl)
    refine ⟨peer.selectors.length - 1, List.eq_replicate_iff.mpr ⟨?_, fun selector member => (same selector).mp member⟩⟩
    have positive := List.length_pos_iff.mpr some
    omega

/-- The peer is scoped to one of the nodes. Nothing but their names matters. -/
def ScopedToAny (batch : List Node) (peer : Peer) : Prop :=
  ∃ node ∈ batch, ∃ name, node.metadata.name = some name ∧ ScopedTo name peer

instance (name : String) (peer : Peer) : Decidable (ScopedTo name peer) := decidable_of_iff' _ scopedTo_iff

instance (batch : List Node) (peer : Peer) : Decidable (ScopedToAny batch peer) :=
  decidable_of_iff (∃ node ∈ batch, ∃ name ∈ node.metadata.name, ScopedTo name peer) Iff.rfl

/-- The configuration without the peers of these nodes. -/
def withoutBatch (batch : List Node) (config : Config) : Config :=
  { config with peers := config.peers.filter (¬ ScopedToAny batch ·) }

theorem withoutNodes_peers (edited : Edited) (names : List String) :
    (withoutNodes edited names).config.peers = edited.config.peers.filter (∀ name ∈ names, ¬ ScopedTo name ·) := by
  induction names generalizing edited with
  | nil => simp [withoutNodes]
  | cons name rest ih =>
    have here : (withoutNode edited name).config.peers = edited.config.peers.filter (¬ ScopedTo name ·) := by
      simp only [withoutNode, Config.removePeers, Config.filterPeers, scopedTo_iff, Bool.not_eq_true, Bool.decide_eq_false]
    rw [withoutNodes, List.foldl_cons, ← withoutNodes, ih, here, List.filter_filter]
    apply List.filter_congr
    intro peer _
    simp [Bool.and_comm]

theorem config_eq {first second : Config} (same : SameBesidesPeers first second) (peers : second.peers = first.peers) : second = first := by
  obtain ⟨_, _, _⟩ := first
  obtain ⟨_, _, _⟩ := second
  obtain ⟨rfl, rfl⟩ := same
  cases peers
  rfl

/-- Removing the nodes one after another takes out the peers of all of them. -/
theorem withoutNodes_batch {batch : List Node} {names : List String} (all : batch.map (·.metadata.name) = names.map some) (loaded : Config) :
    (withoutNodes ⟨loaded, false⟩ names).config = withoutBatch batch loaded := by
  have listed (name : String) : name ∈ names ↔ ∃ node ∈ batch, node.metadata.name = some name := by
    rw [← List.mem_map_of_injective (fun _ _ => Option.some.inj), ← all, List.mem_map]
  apply config_eq
  · exact ⟨(withoutNodes_edits (.refl loaded) names).same.communities, (withoutNodes_edits (.refl loaded) names).same.pools⟩
  · rw [withoutNodes_peers]
    apply List.filter_congr
    intro peer _
    apply decide_eq_decide.mpr
    constructor
    · rintro spares ⟨node, member, name, named, holds⟩
      exact spares name ((listed name).mpr ⟨node, member, named⟩) holds
    · intro spares name inside holds
      obtain ⟨node, member, named⟩ := (listed name).mp inside
      exact spares ⟨node, member, name, named, holds⟩

/-- Peers that were added for the nodes are gone without a trace. -/
theorem withoutBatch_added (settings : Settings) {batch : List Node} (loaded : Config) {pairs : List (String × String)}
    (named : ∀ pair ∈ pairs, ∃ node ∈ batch, node.metadata.name = some pair.1) :
    withoutBatch batch (withPeers settings ⟨loaded, false⟩ pairs).config = withoutBatch batch loaded := by
  have edits := (withPeers_edits settings (.refl loaded) pairs).same
  refine config_eq ⟨edits.communities, edits.pools⟩ ?_
  simp only [withoutBatch]
  rw [withPeers_peers, List.filter_append, List.append_right_eq_self, List.filter_eq_nil_iff]
  intro peer member
  obtain ⟨pair, added, rfl⟩ := List.mem_map.mp member
  obtain ⟨node, listed, same⟩ := named pair (List.mem_filter.mp (List.mem_eraseDups.mp added)).1
  have gone : ScopedToAny batch (settings.peerOf pair.1 pair.2) := ⟨node, listed, pair.1, same, 0, rfl⟩
  simp [gone]

section

variable {location : Location} {document : σ → String} (located : settings.location = some location) {batch : List Node}
  {state : σ} {loaded : Config}
include located

theorem nodes_failed (guards : Guards answer document) {mode : Mode} {after : σ} {error : PassError}
    (failed : effect answer state (Pass.nodes settings mode batch) = (.error error, after)) : document after = document state := by
  have loading : Makes [.load] (Pass.load location.name) := makes_load (by decide) location.name
  have editing (loaded : Config) : Makes [.resolve] (Pass.editForNodes settings mode loaded batch) :=
    makes_editForNodes settings (by decide) mode loaded batch
  rw [effect_nodes answer state located, effect_bind] at failed
  generalize opens : effect answer state (Pass.load location.name) = opening at failed
  obtain ⟨_ | loaded, opened⟩ := opening
  · cases failed
    exact guards.frame opens loading (by decide)
  · have before := guards.frame opens loading (by decide)
    simp only at failed
    rw [effect_bind] at failed
    generalize edits : effect answer opened (Pass.editForNodes settings mode loaded batch) = editing' at failed
    obtain ⟨_ | edited, between⟩ := editing'
    · cases failed
      exact (guards.frame edits (editing loaded) (by decide)).trans before
    · exact (guards.unwritten failed).trans ((guards.frame edits (editing loaded) (by decide)).trans before)

variable (store : Store answer location.name document) (named : ∀ node ∈ batch, node.metadata.name.isSome = true)
  (read : Config.read (document state) = .ok loaded)
include store read

/-- Whatever becomes of a pass that adds nodes, removing them comes to the same after it as before. -/
theorem add_leaves (guards : Guards answer document) {result : Except PassError Unit} {after : σ}
    (ran : effect answer state (Pass.nodes settings .add batch) = (result, after)) :
    ∃ left, Config.read (document after) = .ok left ∧ withoutBatch batch left = withoutBatch batch loaded := by
  cases result with
  | error error =>
    refine ⟨loaded, ?_, rfl⟩
    rw [nodes_failed located guards ran]
    exact read
  | ok _ =>
    obtain ⟨opened, _, edited, _, before, edited_for, wrote⟩ := nodes_edited store located ran
    cases before.symm.trans read
    have stored := edited_for.stored read
    rw [← wrote] at stored
    refine ⟨_, stored, ?_⟩
    cases edited_for with
    | @added selected selects =>
      refine withoutBatch_added settings loaded fun pair member => ?_
      obtain ⟨⟨⟨name, providerId⟩, _⟩, zipped, rfl, _⟩ := mem_pairsOf.mp member
      obtain ⟨node, listed, peers⟩ := (mem_selects selects).mp (List.of_mem_zip zipped).1
      exact ⟨node, listed, peers.named⟩

include named

theorem remove_goes (grants : Grants answer state (Pass.nodes settings .remove batch)) :
    ∃ after, effect answer state (Pass.nodes settings .remove batch) = (.ok (), after) ∧
      Config.read (document after) = .ok (withoutBatch batch loaded) := by
  have opens : (state, .loadDocument location.name) ∈ made answer state (Pass.nodes settings .remove batch) := by
    rw [made_nodes answer state located]
    apply made_first
    rw [made_load]
    exact List.mem_singleton_self _
  obtain ⟨text, answered⟩ := isOk_iff.mp (grants _ _ opens)
  have loads := effect_load_ok answer state location.name loaded (Prod.ext answered rfl) (store.loads _ _ answered ▸ read)
  have ok : (effect answer state (Pass.nodes settings .remove batch)).1 = .ok () := by
    rw [nodes_ok_iff]
    intro _ same
    cases located.symm.trans same
    refine ⟨⟨loaded, congrArg Prod.fst loads⟩, named, fun other => absurd rfl other, ?_⟩
    intro before patch member
    obtain ⟨⟨⟩, accepted⟩ := isOk_iff.mp (grants _ _ member)
    exact accepted
  obtain ⟨after, ran⟩ := (effect_ok_iff answer).mp ok
  obtain ⟨_, _, edited, _, before, edited_for, wrote⟩ := nodes_edited store located ran
  cases before.symm.trans read
  have stored := edited_for.stored read
  rw [← wrote] at stored
  cases edited_for with
  | removed all =>
    rw [withoutNodes_batch all] at stored
    exact ⟨after, ran, stored⟩

end

/-- Removing nodes takes the peers that are scoped to one of them and nothing else, also if the same nodes have just been added. -/
theorem nodes_removed {location : Location} {document : σ → String} (store : Store answer location.name document)
    (guards : Guards answer document) (located : settings.location = some location) {batch : List Node}
    (named : ∀ node ∈ batch, node.metadata.name.isSome = true) {state : σ} {loaded : Config}
    (read : Config.read (document state) = .ok loaded) :
    (Grants answer state (Pass.nodes settings .remove batch) →
      ∃ after, effect answer state (Pass.nodes settings .remove batch) = (.ok (), after) ∧
        Config.read (document after) = .ok (withoutBatch batch loaded)) ∧
    ∀ result between, effect answer state (Pass.nodes settings .add batch) = (result, between) →
      Grants answer between (Pass.nodes settings .remove batch) →
      ∃ after, effect answer between (Pass.nodes settings .remove batch) = (.ok (), after) ∧
        Config.read (document after) = .ok (withoutBatch batch loaded) := by
  refine ⟨remove_goes located store named read, fun result between added grants => ?_⟩
  obtain ⟨left, reread, same⟩ := add_leaves located store read guards added
  rw [← same]
  exact remove_goes located store named reread grants

section

open AddedPeers

theorem guards_routing (routers : String → Except Provider.Error (List String)) : Guards (routing routers) id where
  keeps := (store_routing routers "config").keeps
  refuses _ _ _ _ refused := nomatch refused

/-- All routers can be found, and some nodes have none. -/
def reachable (providerId : String) : Except Provider.Error (List String) :=
  .ok (if providerId = "n1" then ["r1", "r9", "r1"] else [])

theorem reachable_grants (settings : Settings) (mode : Mode) (batch : List Node) (text : String) :
    Grants (routing reachable) text (Pass.nodes settings mode batch) := by
  intro before call member
  have known := (makes_nodes settings mode batch).only member
  cases call with
  | loadDocument name => rfl
  | patchDocument name patch => rfl
  | resolvePeers providerId => rfl
  | _ => exact absurd known (by simp [kind])

/-- Peers that name no node, one of the nodes twice, another one besides, or one that has to be in a place. -/
def tangled : Config where
  peers := [peered [] "r0", peered ["n1", "n1"] "r1", peered ["n1", "gone"] "r2", peered ["n2"] "r3", peered ["n3"] "r4",
    { peered [] "r5" with selectors := [{ labels := .ofList [(hostnameLabel, "n1"), ("zone", "z")] }] },
    { peered [] "r6" with selectors := [{ NodeSelector.ofHostname "n1" with expressions := [⟨"zone", "Exists", []⟩] }] }]

/-- One node is listed twice, with other labels, and one has no provider ID. -/
def leaving : List Node :=
  [named "n1" [("role", "worker")], { named "n2" [] with providerId := none }, named "n1" []]

example : (withoutBatch leaving tangled).peers.map (·.address) = ["r0", "r2", "r4", "r5", "r6"] := by decide

theorem nodes_removed_tangled :
    (∀ node ∈ leaving, node.metadata.name.isSome = true) ∧ Config.read tangled.write = .ok tangled ∧
      (∃ after, effect (routing reachable) tangled.write (Pass.nodes accepting .remove leaving) = (.ok (), after) ∧
        Config.read after = .ok (withoutBatch leaving tangled)) ∧
      ∃ after, effect (routing reachable) (effect (routing reachable) tangled.write (Pass.nodes accepting .add leaving)).2
          (Pass.nodes accepting .remove leaving) = (.ok (), after) ∧
        Config.read after = .ok (withoutBatch leaving tangled) := by
  have located : accepting.location = some ⟨"metallb-system", "config"⟩ := rfl
  have named : ∀ node ∈ leaving, node.metadata.name.isSome = true := by decide
  have read := ConfigRoundTrip.read_write tangled
  have settled := nodes_removed (store_routing reachable "config") (guards_routing reachable) located named read
  exact ⟨named, read, settled.1 (reachable_grants _ _ _ _), settled.2 _ _ (Prod.eta _).symm (reachable_grants _ _ _ _)⟩

end

end PeerPool.Proofs.RemovedPeers
