import PeerPool.Proofs.NodeRounds

/-! How the pass ended that a node was last handed over by, when the watch leaves out a pass for
it. A node is tracked as soon as it is handed over, whatever the pass makes of it, so what is left
out is made up for only if nothing stood in the way of that pass. -/

namespace PeerPool.Proofs.HandedOver
open PassLogic PassDocument PassPeers PeersSynchronized NodeEdits NodeRounds Simulation Agent Cluster

variable {σ : Type}

/-- An event by which the watch hands a node over with its provider ID, and the pass that it runs. -/
inductive HandsOver (peered : PeeredNodes) (name : String) : WatchEvent Node → Mode → List Node → Prop where
  | applied {node : Node} : node.assignedId?.isSome = true → trackedAs node = name → (peered.applied node).1 = true →
      HandsOver peered name (.applied node) .add [node]
  | restarted {nodes : List Node} {node : Node} : node ∈ nodes → node.assignedId?.isSome = true → trackedAs node = name →
      HandsOver peered name (.restarted nodes) .sync nodes

variable {peered : PeeredNodes} {name : String} {event : WatchEvent Node} {mode : Mode} {batch : List Node}

theorem HandsOver.runs (hands : HandsOver peered name event mode batch) : called event = some (mode, batch) ∧ skips peered event = false := by
  cases hands with
  | applied _ _ needed => exact ⟨rfl, by simp only [skips, needed, Bool.not_true]⟩
  | restarted _ _ _ => exact ⟨rfl, rfl⟩

theorem tracked_before (tracked : name ∈ (tracks peered event).names) (other : ∀ mode batch, ¬ HandsOver peered name event mode batch) :
    name ∈ peered.names := by
  cases event with
  | applied node =>
    simp only [tracks, PeeredNodes.applied] at tracked
    split at tracked
    next => exact tracked
    next providerId given =>
      split at tracked
      next => exact tracked
      next new =>
        rcases List.mem_cons.mp tracked with same | tracked
        · refine absurd (HandsOver.applied (Option.isSome_of_eq_some given) same.symm ?_) (other _ _)
          simp only [PeeredNodes.applied, given]
          rw [if_neg new]
        · exact tracked
  | deleted node => exact (List.mem_filter.mp tracked).1
  | restarted nodes =>
    obtain ⟨node, member, same⟩ := List.mem_map.mp tracked
    obtain ⟨member, given⟩ := List.mem_filter.mp member
    exact absurd (HandsOver.restarted member given same) (other _ _)
  | failed code => exact tracked

/-- The last event of a history that hands a node over, with the pass that it starts. -/
structure LastHandedOver (answer : Replies σ) (settings : Settings) (start : σ) (name : String) (history : List (WatchEvent Node))
    (before : List (WatchEvent Node)) (event : WatchEvent Node) (between : List (WatchEvent Node)) (mode : Mode)
    (batch : List Node) : Prop where
  splits : history = before ++ event :: between
  hands : HandsOver (watched answer settings start before).1 name event mode batch
  last : ∀ first other rest, between = first ++ other :: rest →
    ∀ mode batch, ¬ HandsOver (watched answer settings start (before ++ event :: first)).1 name other mode batch

section

variable (answer : Replies σ) (settings : Settings) (start : σ)

theorem tracked_handed_over {history : List (WatchEvent Node)} (tracked : name ∈ (watched answer settings start history).1.names) :
    ∃ before event between mode batch, LastHandedOver answer settings start name history before event between mode batch := by
  induction history using List.reverseRecOn with
  | nil => exact absurd tracked List.not_mem_nil
  | append_singleton history event ih =>
    rw [watched_append] at tracked
    -- Either the last event is the one, or it only adds to what has been heard since.
    by_cases hands : ∃ mode batch, HandsOver (watched answer settings start history).1 name event mode batch
    · obtain ⟨mode, batch, hands⟩ := hands
      refine ⟨history, event, [], mode, batch, rfl, hands, ?_⟩
      intro first other rest nothing
      exact absurd nothing (by simp)
    · have other (mode : Mode) (batch : List Node) : ¬ HandsOver (watched answer settings start history).1 name event mode batch :=
        fun found => hands ⟨mode, batch, found⟩
      obtain ⟨before, earlier, between, mode, batch, splits, hands, last⟩ := ih (tracked_before tracked other)
      refine ⟨before, earlier, between ++ [event], mode, batch, ?_, hands, ?_⟩
      · rw [splits, List.append_assoc, List.cons_append]
      · intro first later rest same
        rcases List.eq_nil_or_concat rest with rfl | ⟨rest, final, rfl⟩
        · obtain ⟨rfl, alone⟩ := List.append_inj' same rfl
          rw [List.singleton_inj.mp alone] at other
          rw [← splits]
          exact other
        · rw [List.concat_eq_append, ← List.cons_append, ← List.append_assoc] at same
          exact last first later rest (List.append_inj' same rfl).1

/-- Where the watch leaves out a pass for a node, the pass that it last handed the node over by
ended well exactly if it could read the configuration, found all it must know about its nodes and
was allowed to write. -/
theorem skipped_after_handover {history : List (WatchEvent Node)} {node : Node}
    (skipped : ((watched answer settings start history).1.applied node).1 = false) :
    ∃ before event between mode batch,
      LastHandedOver answer settings start (trackedAs node) history before event between mode batch ∧
      let ready := (watched answer settings start before).2
      (watched answer settings start (before ++ [event])).2 = (answer (runs answer settings ready mode batch).2 .release).2 ∧
      ((runs answer settings ready mode batch).1 = .ok () ↔ ∀ location, settings.location = some location →
        Undisturbed (onCalls answer) settings location.name mode batch (begins answer ready)) := by
  have tracked : trackedAs node ∈ (watched answer settings start history).1.names := by
    simp only [PeeredNodes.applied] at skipped
    split at skipped
    · cases skipped
    · split at skipped
      next found => exact List.contains_iff_mem.mp found
      next => cases skipped
  obtain ⟨before, event, between, mode, batch, handed⟩ := tracked_handed_over answer settings start tracked
  obtain ⟨calls, runs⟩ := handed.hands.runs
  refine ⟨before, event, between, mode, batch, handed, ?_, nodes_ok_iff⟩
  rw [watched_append]
  simp only [runs, Bool.false_eq_true, if_false, attends, calls]

end

section

/-- A node of the same kind that still waits for its provider ID. -/
def unready : Node := { metadata := { name := some "n2", labels := some (.ofList [("role", "worker")]) } }

theorem skipped_after_handover_worker :
    let history : List (WatchEvent Node) := [.applied unready, .applied worker]
    ((watched calmly accepting blank history).1.applied worker).1 = false ∧
      ∃ before event between mode batch,
        LastHandedOver calmly accepting blank (trackedAs worker) history before event between mode batch ∧
        let ready := (watched calmly accepting blank before).2
        (watched calmly accepting blank (before ++ [event])).2 = (calmly (runs calmly accepting ready mode batch).2 .release).2 ∧
        ((runs calmly accepting ready mode batch).1 = .ok () ↔ ∀ location, accepting.location = some location →
          Undisturbed (onCalls calmly) accepting location.name mode batch (begins calmly ready)) := by
  intro history
  have skipped : ((watched calmly accepting blank history).1.applied worker).1 = false := by
    rw [watched_tracks]
    decide
  exact ⟨skipped, skipped_after_handover calmly accepting blank skipped⟩

/-- A node that was listed with one that is not ready has been handed over by a pass that gave up,
and is left out from then on. -/
theorem failed_handover_is_skipped :
    let listing : WatchEvent Node := .restarted [worker, unready]
    ((watched calmly accepting blank [listing]).1.applied worker).1 = false ∧
      LastHandedOver calmly accepting blank (trackedAs worker) [listing] [] listing [] .sync [worker, unready] ∧
      (runs calmly accepting blank .sync [worker, unready]).1 = .error (.missingProviderId "n2") := by
  intro listing
  refine ⟨?_, ?_, ?_⟩
  · rw [watched_tracks]
    decide
  · refine ⟨rfl, .restarted (List.mem_cons_self ..) rfl rfl, ?_⟩
    intro first other rest nothing
    exact absurd nothing (by simp)
  · have located : accepting.location = some ⟨"metallb-system", "config"⟩ := rfl
    have loads : effect (onCalls calmly) blank (Pass.load "config") = (.ok {}, blank) :=
      effect_load_ok _ blank "config" {} rfl (ConfigRoundTrip.read_write {})
    change (effect (onCalls calmly) blank (Pass.nodes accepting .sync [worker, unready])).1 = _
    rw [effect_nodes _ blank located, effect_then _ loads]
    rfl

end

end PeerPool.Proofs.HandedOver
