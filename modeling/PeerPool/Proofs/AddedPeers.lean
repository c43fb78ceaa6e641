import Mathlib.Data.List.Perm.Basic
import PeerPool.Proofs.Distinct
import PeerPool.Proofs.NodeEdits

/-! What a pass that adds nodes makes of the peers. Those that were there stay ahead, whatever they are
scoped to, and behind them comes a peer for each pair of a node and an address that none of them stands
for. The order in which the nodes are listed decides about nothing but the order of what is added. -/

namespace PeerPool.Proofs.AddedPeers
open Distinct PassLogic PassDocument PassPeers PeerEdits PeersSynchronized NodeEdits Synchronized Simulation Cluster

variable {σ : Type} {answer : Answers σ} {settings : Settings}

/-- Some peer has the address and is scoped to the node by name, however often, and to nothing else. -/
def Known (config : Config) (pair : String × String) : Prop :=
  ∃ peer ∈ config.peers, peer.address = pair.2 ∧ ∀ selector, selector ∈ peer.selectors ↔ selector = .ofHostname pair.1

theorem known_iff {config : Config} {pair : String × String} :
    Known config pair ↔ config.hasPeer pair.2 [.ofHostname pair.1] = true := by
  simp only [Known, Config.hasPeer, Peer.hasSelectors, List.any_eq_true, Bool.and_eq_true, beq_iff_eq, sameElements_iff,
    List.mem_singleton]

instance (config : Config) (pair : String × String) : Decidable (Known config pair) := decidable_of_iff' _ known_iff

/-- The pairs that no peer stands for, each where it comes up first. -/
def newPairs (config : Config) (pairs : List (String × String)) : List (String × String) :=
  (pairs.filter (¬ Known config ·)).eraseDups

theorem withPeers_new (settings : Settings) (edited : Edited) (pairs : List (String × String)) :
    (withPeers settings edited pairs).config.peers =
      edited.config.peers ++ (newPairs edited.config pairs).map fun pair => settings.peerOf pair.1 pair.2 := by
  have new : (pairs.filter fun pair => !edited.config.hasPeer pair.2 [.ofHostname pair.1]) =
      pairs.filter (¬ Known edited.config ·) := by
    apply List.filter_congr
    intro pair _
    simp [known_iff]
  rw [withPeers_peers, new, newPairs]

/-- The configuration after nodes were added to it, by what came back for each of them. -/
structure PeersAdded (settings : Settings) (loaded : Config) (selected : List PeeringNode) (answers : List (String × List String))
    (config : Config) : Prop where
  /-- The provider is asked about each of the nodes in turn. -/
  asked : answers.map Prod.fst = selected.map (·.providerId)
  peers : config.peers = loaded.peers ++
    (newPairs loaded (pairsOf selected (answers.map Prod.snd))).map fun pair => settings.peerOf pair.1 pair.2
  same : SameBesidesPeers loaded config

theorem peersAdded_of_replies (settings : Settings) (loaded : Config) {selected : List PeeringNode} {replies : List (List String)}
    (full : replies.length = selected.length) :
    PeersAdded settings loaded selected ((selected.map (·.providerId)).zip replies)
      (withPeers settings ⟨loaded, false⟩ (pairsOf selected replies)).config := by
  have came : ((selected.map (·.providerId)).zip replies).map Prod.snd = replies := List.map_snd_zip (by simp [full])
  refine ⟨List.map_fst_zip (by simp [full]), ?_, (withPeers_edits settings (.refl loaded) _).same⟩
  rw [came]
  exact withPeers_new settings ⟨loaded, false⟩ _

section

theorem newPairs_perm (config : Config) {pairs others : List (String × String)} (perm : pairs.Perm others) :
    (newPairs config pairs).Perm (newPairs config others) := by
  refine (List.perm_ext_iff_of_nodup (nodup_eraseDups _) (nodup_eraseDups _)).mpr ?_
  intro pair
  rw [List.mem_eraseDups, List.mem_eraseDups]
  exact (perm.filter _).mem_iff

theorem pairsOf_map (nodes : List PeeringNode) (addresses : PeeringNode → List String) :
    pairsOf nodes (nodes.map addresses) = nodes.flatMap fun node => (addresses node).map (node.name, ·) := by
  induction nodes with
  | nil => rfl
  | cons node rest ih => exact congrArg (_ ++ ·) ih

theorem selects_perm {selector : Selector} {batch other : List Node} (perm : batch.Perm other) {selected others : List PeeringNode}
    (selects : Selects selector batch selected) (reselects : Selects selector other others) : selected.Perm others := by
  rw [← List.map_perm_map_iff selects_injective, selects, reselects]
  exact (perm.filter _).map _

end

section

variable {location : Location} {document : σ → String} {batch : List Node}
  (located : settings.location = some location)
include located

/-- A pass that adds nodes and succeeds adds peers for what it is told after it has loaded the configuration. -/
theorem add_told (store : Store answer location.name document) {state after : σ}
    (ok : effect answer state (Pass.nodes settings .add batch) = (.ok (), after)) :
    ∃ loaded opened selected, effect answer state (Pass.load location.name) = (.ok loaded, opened) ∧
      Config.read (document state) = .ok loaded ∧ Selects settings.nodeSelector batch selected ∧
      learned answer (made answer state (Pass.nodes settings .add batch)) =
        (selected.map (·.providerId)).zip (resolved answer opened selected).1 ∧
      Config.read (document after) =
        .ok (withPeers settings ⟨loaded, false⟩ (pairsOf selected (resolved answer opened selected).1)).config := by
  obtain ⟨loaded, opened, edited, loads, read, edited_for, wrote⟩ := nodes_edited store located ok
  have stored := edited_for.stored read
  rw [← wrote] at stored
  cases edited_for with
  | @added selected selects =>
    refine ⟨loaded, opened, selected, loads, read, selects, ?_, stored⟩
    have complete := (nodes_ok_iff.mp (congrArg Prod.fst ok) location located).complete (by decide)
    obtain ⟨others, chooses⟩ := peeringNodes_ok answer opened complete
    obtain ⟨_, chose, _, reselects⟩ := effect_peeringNodes answer opened settings.nodeSelector batch
    cases chooses.symm.trans chose
    cases Selects.unique selects (reselects others rfl)
    rw [learned_edits located loads, Pass.editForNodes, made_chosen answer chooses, learned_addNodes]

/-- It takes the same for two passes over the same nodes to succeed, but that each must be let write what it has to write. -/
theorem add_reorders {other : List Node} (perm : batch.Perm other) {state : σ}
    (ok : (effect answer state (Pass.nodes settings .add batch)).1 = .ok ())
    (saves : ∀ before patch, (before, .patchDocument location.name patch) ∈ made answer state (Pass.nodes settings .add other) →
      (answer before (.patchDocument location.name patch)).1 = .ok ()) :
    (effect answer state (Pass.nodes settings .add other)).1 = .ok () := by
  obtain ⟨loads, named, complete, _⟩ := nodes_ok_iff.mp ok location located
  rw [nodes_ok_iff]
  intro _ same
  cases located.symm.trans same
  refine ⟨loads, ?_, ?_, saves⟩
  · exact fun node member => named node (perm.mem_iff.mpr member)
  · exact fun adds node member => complete adds node (perm.mem_iff.mpr member)

end

/-- Of what was added, some comes in another place, and nothing else is different. -/
structure Reordered (loaded config other : Config) : Prop where
  peers : ∃ added readded, config.peers = loaded.peers ++ added ∧ other.peers = loaded.peers ++ readded ∧ readded.Perm added
  same : SameBesidesPeers config other

theorem reordered_of_perm (settings : Settings) (loaded : Config) {pairs others : List (String × String)} (perm : pairs.Perm others) :
    Reordered loaded (withPeers settings ⟨loaded, false⟩ pairs).config (withPeers settings ⟨loaded, false⟩ others).config := by
  have edits (pairs : List (String × String)) := (withPeers_edits settings (.refl loaded) pairs).same
  refine ⟨⟨_, _, withPeers_new settings _ pairs, withPeers_new settings _ others, (newPairs_perm loaded perm.symm).map _⟩, ?_⟩
  exact ⟨(edits others).communities.trans (edits pairs).communities.symm, (edits others).pools.trans (edits pairs).pools.symm⟩

theorem nodes_added {location : Location} {document : σ → String} (store : Store answer location.name document)
    (located : settings.location = some location) (batch : List Node) (state after : σ)
    (ok : effect answer state (Pass.nodes settings .add batch) = (.ok (), after)) :
    ∃ loaded selected config, Config.read (document state) = .ok loaded ∧ Selects settings.nodeSelector batch selected ∧
      Config.read (document after) = .ok config ∧
      PeersAdded settings loaded selected (learned answer (made answer state (Pass.nodes settings .add batch))) config ∧
      ∀ routers : String → Except Provider.Error (List String),
        (∀ state providerId, (answer state (.resolvePeers providerId)).1 = routers providerId) →
        ∀ other, batch.Perm other →
          (∀ before patch, (before, .patchDocument location.name patch) ∈ made answer state (Pass.nodes settings .add other) →
            (answer before (.patchDocument location.name patch)).1 = .ok ()) →
          ∃ last reordered, effect answer state (Pass.nodes settings .add other) = (.ok (), last) ∧
            Config.read (document last) = .ok reordered ∧ Reordered loaded config reordered := by
  obtain ⟨loaded, opened, selected, loads, read, selects, asked, stored⟩ := add_told located store ok
  refine ⟨loaded, selected, _, read, selects, stored, ?_, ?_⟩
  · rw [asked]
    exact peersAdded_of_replies settings loaded (resolved_length ..)
  · intro routers routes other perm saves
    have again : effect answer state (Pass.nodes settings .add other) = (.ok (), _) :=
      Prod.ext (add_reorders located perm (congrArg Prod.fst ok) saves) rfl
    obtain ⟨_, _, others, reloads, _, reselects, _, restored⟩ := add_told located store again
    cases loads.symm.trans reloads
    refine ⟨_, _, again, restored, reordered_of_perm settings loaded ?_⟩
    rw [resolved_constant routes, resolved_constant routes, pairsOf_map, pairsOf_map]
    exact (selects_perm perm selects reselects).flatMap_right _

section

/-- A document that is written whenever that is asked for, and routers that stay the same. There is nothing else. -/
def routing (routers : String → Except Provider.Error (List String)) : Answers String
  | text, .loadDocument _ => (.ok text, text)
  | text, .patchDocument _ patch => (.ok (), (patchDocument (some text) patch).getD text)
  | text, .resolvePeers providerId => (routers providerId, text)
  | text, .listReservations _ => (.ok [], text)
  | text, .createReservation _ _ => (.error (.refused 422 "no capacity"), text)
  | text, .deleteReservation _ => (.ok (), text)
  | text, .getService _ name => (.error (.notFound name), text)
  | text, .updateService _ => (.ok (), text)

theorem store_routing (routers : String → Except Provider.Error (List String)) (name : String) :
    Store (routing routers) name id where
  loads _ _ answered := (Except.ok.inj answered).symm
  patches text written _ := by
    simp only [routing, ConfigRoundTrip.patchDocument_configPatch]
    rfl
  keeps text call other := by
    cases call with
    | patchDocument name patch => exact absurd rfl other
    | _ => rfl

/-- A peer for any node, one for a node that it names twice, one for two nodes, and one for another node. -/
def overlapping : Config where
  peers := [peered [] "r0", peered ["n1", "n1"] "r3", peered ["n1", "gone"] "r4", peered ["n2"] "r4"]

/-- Routers come up twice for a node, two nodes share one, and those of another node cannot be found. -/
def shared (providerId : String) : Except Provider.Error (List String) :=
  if providerId = "n1" then .ok ["r3", "r4", "r0", "r4"]
  else if providerId = "n2" then .ok ["r4", "r0"]
  else .error (.refused 500 "resolver unavailable")

theorem nodes_added_overlapping :
    ∃ after, effect (routing shared) overlapping.write (Pass.nodes accepting .add workers) = (.ok (), after) ∧
      ∃ loaded selected config, Config.read overlapping.write = .ok loaded ∧ Selects accepting.nodeSelector workers selected ∧
        Config.read after = .ok config ∧
        PeersAdded accepting loaded selected
          (learned (routing shared) (made (routing shared) overlapping.write (Pass.nodes accepting .add workers))) config ∧
        ∃ last reordered,
          effect (routing shared) overlapping.write (Pass.nodes accepting .add workers.reverse) = (.ok (), last) ∧
          Config.read last = .ok reordered ∧ Reordered loaded config reordered := by
  have located : accepting.location = some ⟨"metallb-system", "config"⟩ := rfl
  have loads : effect (routing shared) overlapping.write (Pass.load "config") = (.ok overlapping, overlapping.write) :=
    effect_load_ok _ _ "config" overlapping rfl (ConfigRoundTrip.read_write overlapping)
  have edits : (effect (routing shared) overlapping.write
      (Pass.editForNodes accepting .add overlapping workers >>= writeBack "config")).1 = .ok () := by decide +kernel
  have succeeds : (effect (routing shared) overlapping.write (Pass.nodes accepting .add workers)).1 = .ok () := by
    rw [effect_nodes _ _ located, effect_then _ loads]
    exact edits
  obtain ⟨after, ok⟩ := (effect_ok_iff _).mp succeeds
  have settled := nodes_added (store_routing shared "config") located workers overlapping.write after ok
  obtain ⟨loaded, selected, config, read, selects, stored, added, permutes⟩ := settled
  have reordered := permutes shared (fun _ _ => rfl) workers.reverse (List.reverse_perm workers).symm fun _ _ _ => rfl
  exact ⟨after, ok, loaded, selected, config, read, selects, stored, added, reordered⟩

end

end PeerPool.Proofs.AddedPeers
