import PeerPool.Proofs.RemovedPeers
import PeerPool.Proofs.SkippedUpdates

/-! What a pass over nodes does to a configuration that an earlier run of it has left: nothing. In a
synchronizing pass the second run asks about other nodes than the first, since it finds peers for most of
them. Those it still asks about are the ones that nothing was found for, and nothing is found for them again. -/

namespace PeerPool.Proofs.SettledPeers
open PassLogic PassDocument PassCalls PassPeers PeerEdits PeersSynchronized NodeEdits SkippedUpdates Synchronized RemovedPeers
open Cluster

variable {σ : Type} {answer : Answers σ} {settings : Settings} {routers : Routers} {loaded : Config} {batch : List Node}
  {mode : Mode} {edited : Edited}

/-- A pass over these nodes finds nothing to change in the configuration. -/
def Settled (settings : Settings) (routers : Routers) (mode : Mode) (batch : List Node) (config : Config) : Prop :=
  ∀ edited, EditedFor settings (lookup routers) config batch mode edited → edited.config = config

theorem peers_again (settings : Settings) (loaded : Config) (pairs : List (String × String)) :
    (withPeers settings ⟨(withPeers settings ⟨loaded, false⟩ pairs).config, false⟩ pairs).config =
      (withPeers settings ⟨loaded, false⟩ pairs).config := by
  have known (pair : String × String) (member : pair ∈ pairs) := withPeers_has settings ⟨loaded, false⟩ member
  generalize (withPeers settings ⟨loaded, false⟩ pairs).config = added at known
  have idle : withPeers settings ⟨added, false⟩ pairs = ⟨added, false⟩ := withPeers_idle settings known
  rw [idle]

section

variable (settings routers) (loaded : Config) (selected : List PeeringNode)

/-- The configuration of the selected nodes, with what is said about the routers of those that had no peer left. -/
def synchronizedWith : Edited :=
  withPeers settings (loaded.retainNodes (selected.map (·.name)))
    (pairsOf (missingNodes selected loaded) (lookup routers (missingNodes selected loaded)))

theorem kept_synchronized {peer : Peer} (kept : peer ∈ keptPeers selected loaded) :
    peer ∈ (synchronizedWith settings routers loaded selected).config.peers := by
  rw [synchronizedWith, withPeers_peers]
  exact List.mem_append_left _ kept

/-- No peer names a node that is not selected any more, so all of them stay. -/
theorem keptPeers_synchronized :
    keptPeers selected (synchronizedWith settings routers loaded selected).config =
      (synchronizedWith settings routers loaded selected).config.peers := by
  rw [keptPeers, List.filter_eq_self]
  intro peer member
  rw [List.all_eq_true]
  intro name inside
  rw [List.contains_iff_mem]
  rcases mem_withPeers settings member with stays | ⟨pair, added, rfl⟩
  · exact (mem_keptPeers.mp stays).2 name inside
  · obtain ⟨node, missing, same, _⟩ := mem_pairsOf_lookup.mp added
    rw [hostnames_peerOf, List.mem_singleton] at inside
    rw [inside, ← same]
    exact List.mem_map_of_mem (mem_missingNodes.mp missing).1

/-- Whoever is still without a peer was without one before, and would have one now if a router had been found. -/
theorem missing_unanswered {node : PeeringNode}
    (missing : node ∈ missingNodes selected (synchronizedWith settings routers loaded selected).config) :
    addressesOf (routers node.providerId) = [] := by
  obtain ⟨chosen, unnamed⟩ := mem_missingNodes.mp missing
  rw [keptPeers_synchronized] at unnamed
  have before : node ∈ missingNodes selected loaded := by
    refine mem_missingNodes.mpr ⟨chosen, ?_⟩
    intro peer kept
    exact unnamed peer (kept_synchronized settings routers loaded selected kept)
  rw [List.eq_nil_iff_forall_not_mem]
  intro address found
  have has : (synchronizedWith settings routers loaded selected).config.hasPeer address [.ofHostname node.name] = true :=
    withPeers_lookup before found _
  obtain ⟨peer, member, holds⟩ := List.any_eq_true.mp has
  exact unnamed peer member (mem_hostnames (Bool.and_eq_true_iff.mp holds).2)

theorem synchronized_again :
    (synchronizedWith settings routers (synchronizedWith settings routers loaded selected).config selected).config =
      (synchronizedWith settings routers loaded selected).config := by
  have none : pairsOf (missingNodes selected (synchronizedWith settings routers loaded selected).config)
      (lookup routers (missingNodes selected (synchronizedWith settings routers loaded selected).config)) = [] := by
    rw [List.eq_nil_iff_forall_not_mem]
    intro pair member
    obtain ⟨node, missing, _, address⟩ := mem_pairsOf_lookup.mp member
    rw [missing_unanswered settings routers loaded selected missing] at address
    exact absurd address List.not_mem_nil
  have stay := keptPeers_synchronized settings routers loaded selected
  generalize (synchronizedWith settings routers loaded selected).config = config at none stay
  rw [synchronizedWith, none]
  exact config_eq ⟨rfl, rfl⟩ stay

end

/-- Whatever a pass makes of a configuration, it finds nothing to change in that. -/
theorem edits_settle (edited_for : EditedFor settings (lookup routers) loaded batch mode edited) :
    Settled settings routers mode batch edited.config := by
  intro other again
  cases edited_for with
  | removed all =>
    cases again with
    | removed others =>
      rw [withoutNodes_batch all, withoutNodes_batch others]
      simp only [withoutBatch, List.filter_filter, Bool.and_self]
  | @added selected selects =>
    cases again with
    | added reselects =>
      cases Selects.unique selects reselects
      exact peers_again settings loaded (pairsOf selected (lookup routers selected))
  | @synchronized selected selects =>
    cases again with
    | synchronized reselects =>
      cases Selects.unique selects reselects
      exact synchronized_again settings routers loaded selected

section

variable {location : Location} (located : settings.location = some location)
  (routes : ∀ state providerId, (answer state (.resolvePeers providerId)).1 = routers providerId)
include located routes

/-- A pass that finds nothing to change writes nothing, whether it gets that far or not. -/
theorem settled_unwritten {document : σ → String} (store : Store answer location.name document) {state : σ} {config : Config}
    (read : Config.read (document state) = .ok config) (settled : Settled settings routers mode batch config) :
    ofKind .patch (made answer state (Pass.nodes settings mode batch)) = [] := by
  have loading : Makes [.load] (Pass.load location.name) := makes_load (by decide) location.name
  have editing (config : Config) : Makes [.resolve] (Pass.editForNodes settings mode config batch) :=
    makes_editForNodes settings (by decide) mode config batch
  rw [made_nodes answer state located, loading.ofKind_bind (by decide)]
  generalize loads : effect answer state (Pass.load location.name) = opening
  obtain ⟨_ | loaded, opened⟩ := opening
  · rfl
  · simp only
    rw [(editing loaded).ofKind_bind (by decide)]
    generalize edits : effect answer opened (Pass.editForNodes settings mode loaded batch) = editing'
    obtain ⟨_ | edited, between⟩ := editing'
    · rfl
    · have edited_for := editForNodes_ok edits
      rw [told_lookup routes] at edited_for
      cases (loaded_is_stored store loads).symm.trans read
      have unchanged : ¬ edited.changed = true := mt edited_for.changed_iff.mp (not_not.mpr (settled edited edited_for))
      simp only
      rw [made_writeBack, if_neg unchanged]
      rfl

end

theorem kind_ne {wanted : Kind} {calls : List (σ × Call)} (none : ofKind wanted calls = []) {before : σ} {call : Call}
    (member : (before, call) ∈ calls) : kind call ≠ wanted :=
  fun same => List.filter_eq_nil_iff.mp none _ member (decide_eq_true same)

/-- Where no call writes the document, it stays as it is. -/
theorem unwritten_keeps {name : String} {document : σ → String} (store : Store answer name document) {α : Type} {pass : Pass α}
    {state : σ} (unwritten : ofKind .patch (made answer state pass) = []) :
    document (effect answer state pass).2 = document state := by
  refine (calls_throughout (document · = document state) ?_ rfl).2
  intro before call member same
  exact (store.keeps before call (kind_ne unwritten member)).trans same

/-- A pass over nodes that has succeeded writes nothing when it is run again, and leaves what it has left. It
succeeds again if it can load that. -/
theorem rerun_settled {document : σ → String}
    (stores : ∀ location, settings.location = some location → Store answer location.name document)
    (routes : ∀ state providerId, (answer state (.resolvePeers providerId)).1 = routers providerId) {state after later : σ}
    (ok : effect answer state (Pass.nodes settings mode batch) = (.ok (), after)) (same : document later = document after) :
    ofKind .patch (made answer later (Pass.nodes settings mode batch)) = [] ∧
      document (effect answer later (Pass.nodes settings mode batch)).2 = document after ∧
      ((∀ location, settings.location = some location → (answer later (.loadDocument location.name)).1.isOk = true) →
        (effect answer later (Pass.nodes settings mode batch)).1 = .ok ()) := by
  cases located : settings.location with
  | none =>
    unfold Pass.nodes
    rw [located]
    exact ⟨rfl, same, fun _ => rfl⟩
  | some location =>
    have store := stores location located
    obtain ⟨loaded, edited, _, edited_for, left⟩ := (nodes_revised routes located store ok).reads
    rw [← same] at left
    have unwritten := settled_unwritten located routes store left (edits_settle edited_for)
    refine ⟨unwritten, (unwritten_keeps store unwritten).trans same, ?_⟩
    intro opens
    obtain ⟨_, named, complete, _⟩ := nodes_ok_iff.mp (congrArg Prod.fst ok) location located
    obtain ⟨text, answered⟩ := isOk_iff.mp (opens location rfl)
    have loads := effect_load_ok answer later location.name edited.config (Prod.ext answered rfl)
      (store.loads later text answered ▸ left)
    rw [nodes_ok_iff]
    intro _ again
    cases located.symm.trans again
    refine ⟨⟨edited.config, congrArg Prod.fst loads⟩, named, complete, ?_⟩
    intro before patch member
    exact absurd rfl (kind_ne unwritten member)

section

open AddedPeers

/-- Two machines go by one name, and for one of them no routers can be found. Nor can those of another node. -/
def namesakes : List Node :=
  [named "n1" [("role", "worker")], { named "n1" [("role", "worker")] with providerId := some "n9" },
    named "n2" [("role", "worker")], named "n3" [("role", "worker")]]

theorem rerun_settled_namesakes :
    ∃ after, effect (routing shared) scattered.write (Pass.nodes accepting .sync namesakes) = (.ok (), after) ∧
      ofKind .patch (made (routing shared) after (Pass.nodes accepting .sync namesakes)) = [] ∧
      (effect (routing shared) after (Pass.nodes accepting .sync namesakes)).2 = after ∧
      (effect (routing shared) after (Pass.nodes accepting .sync namesakes)).1 = .ok () := by
  have located : accepting.location = some ⟨"metallb-system", "config"⟩ := rfl
  have loads : effect (routing shared) scattered.write (Pass.load "config") = (.ok scattered, scattered.write) :=
    effect_load_ok _ _ "config" scattered rfl (ConfigRoundTrip.read_write scattered)
  have edits : (effect (routing shared) scattered.write
      (Pass.editForNodes accepting .sync scattered namesakes >>= writeBack "config")).1 = .ok () := by decide +kernel
  have succeeds : (effect (routing shared) scattered.write (Pass.nodes accepting .sync namesakes)).1 = .ok () := by
    rw [effect_nodes _ _ located, effect_then _ loads]
    exact edits
  obtain ⟨after, ok⟩ := (effect_ok_iff _).mp succeeds
  have settled := rerun_settled (fun location _ => store_routing shared location.name) (fun _ _ => rfl) ok rfl
  obtain ⟨unwritten, stays, succeeds_again⟩ := settled
  exact ⟨after, ok, unwritten, stays, succeeds_again fun _ _ => rfl⟩

end

end PeerPool.Proofs.SettledPeers
