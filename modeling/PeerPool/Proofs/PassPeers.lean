import PeerPool.Proofs.PassCalls
import PeerPool.Proofs.PeerEdits

/-! Passes over nodes as sequences of parts, and what each part makes of the configuration in
any world. They ask for nothing but the document and the routers of nodes. -/

namespace PeerPool.Proofs.PassPeers
open PassLogic PassCalls PeerEdits Cluster

variable {σ : Type} (answer : Answers σ) (state : σ) (settings : Settings)

/-- The addresses that an answer comes to: none, if it is a refusal. -/
def addressesOf (reply : Except Provider.Error (List String)) : List String := reply.toOption.getD []

/-- The addresses of the routers of nodes, asked for one node after another, and the state then. -/
def resolved (answer : Answers σ) (state : σ) : List PeeringNode → List (List String) × σ
  | [] => ([], state)
  | node :: rest =>
    let reply := answer state (.resolvePeers node.providerId)
    let later := resolved answer reply.2 rest
    (addressesOf reply.1 :: later.1, later.2)

/-- Nodes with each of their addresses. -/
def pairsOf (nodes : List PeeringNode) (replies : List (List String)) : List (String × String) :=
  (nodes.zip replies).flatMap fun (node, addresses) => addresses.map (node.name, ·)

/-- What is asked about the routers of nodes, with the addresses that come back. -/
def learned (answer : Answers σ) (calls : List (σ × Call)) : List (String × List String) :=
  calls.filterMap fun
    | (before, .resolvePeers providerId) => some (providerId, addressesOf (answer before (.resolvePeers providerId)).1)
    | _ => none

theorem learned_append (first second : List (σ × Call)) :
    learned answer (first ++ second) = learned answer first ++ learned answer second := List.filterMap_append

theorem effect_addPeers (node : String) (edited : Edited) (addresses : List String) :
    effect answer state (Pass.addPeers settings node edited addresses) =
      (.ok (withPeers settings edited (addresses.map (node, ·))), state) := by
  induction addresses generalizing edited with
  | nil => rfl
  | cons address rest ih =>
    rw [Pass.addPeers]
    simp only
    split <;> exact ih _

theorem made_addPeers (node : String) (edited : Edited) (addresses : List String) :
    made answer state (Pass.addPeers settings node edited addresses) = [] := by
  induction addresses generalizing edited with
  | nil => rfl
  | cons address rest ih =>
    rw [Pass.addPeers]
    simp only
    split <;> exact ih _

/-- However the routers of a node come to be known, what follows is the same but for the log. -/
theorem addNodes_cons (edited : Edited) (node : PeeringNode) (rest : List PeeringNode) :
    let reply := answer state (.resolvePeers node.providerId)
    let added := withPeers settings edited ((addressesOf reply.1).map (node.name, ·))
    effect answer state (Pass.addNodes settings edited (node :: rest)) =
        effect answer reply.2 (Pass.addNodes settings added rest) ∧
      made answer state (Pass.addNodes settings edited (node :: rest)) =
        (state, .resolvePeers node.providerId) :: made answer reply.2 (Pass.addNodes settings added rest) := by
  rw [Pass.addNodes, effect_ask_bind, made_ask_bind]
  generalize answer state (.resolvePeers node.providerId) = reply
  obtain ⟨error | addresses, between⟩ := reply
  · exact ⟨rfl, rfl⟩
  · cases addresses with
    | nil => exact ⟨rfl, rfl⟩
    | cons address others =>
      simp only [effect_bind, made_bind, effect_addPeers, made_addPeers]
      exact ⟨rfl, rfl⟩

theorem effect_addNodes (edited : Edited) (nodes : List PeeringNode) :
    effect answer state (Pass.addNodes settings edited nodes) =
      (.ok (withPeers settings edited (pairsOf nodes (resolved answer state nodes).1)), (resolved answer state nodes).2) := by
  induction nodes generalizing state edited with
  | nil => rfl
  | cons node rest ih =>
    rw [(addNodes_cons answer state settings edited node rest).1, ih]
    simp only [resolved, pairsOf, List.zip_cons_cons, List.flatMap_cons, withPeers, List.foldl_append]

/-- The provider is asked about each node once, in their order. -/
theorem learned_addNodes (edited : Edited) (nodes : List PeeringNode) :
    learned answer (made answer state (Pass.addNodes settings edited nodes)) =
      (nodes.map (·.providerId)).zip (resolved answer state nodes).1 := by
  induction nodes generalizing state edited with
  | nil => rfl
  | cons node rest ih =>
    rw [(addNodes_cons answer state settings edited node rest).2]
    exact congrArg (_ :: ·) (ih _ _)

/-- Where the answers never change, it does not matter when they are asked for. -/
theorem resolved_constant {answer : Answers σ} {routers : String → Except Provider.Error (List String)}
    (routes : ∀ state providerId, (answer state (.resolvePeers providerId)).1 = routers providerId) (state : σ)
    (nodes : List PeeringNode) : (resolved answer state nodes).1 = nodes.map fun node => addressesOf (routers node.providerId) := by
  induction nodes generalizing state with
  | nil => rfl
  | cons node rest ih =>
    simp only [resolved, List.map_cons, routes state node.providerId]
    exact congrArg (_ :: ·) (ih _)

theorem resolved_length (nodes : List PeeringNode) : (resolved answer state nodes).1.length = nodes.length := by
  induction nodes generalizing state with
  | nil => rfl
  | cons node rest ih => exact congrArg (· + 1) (ih _)

theorem makes_addPeers {kinds : List Kind} (node : String) (edited : Edited) (addresses : List String) :
    Makes kinds (Pass.addPeers settings node edited addresses) := by
  induction addresses generalizing edited with
  | nil => exact .pure _
  | cons address rest ih =>
    rw [Pass.addPeers]
    simp only
    split
    · exact .bind (.say _ _) fun _ => ih _
    · exact ih _

theorem makes_addNodes {kinds : List Kind} (resolve : .resolve ∈ kinds) (edited : Edited) (nodes : List PeeringNode) :
    Makes kinds (Pass.addNodes settings edited nodes) := by
  induction nodes generalizing edited with
  | nil => exact .pure _
  | cons node rest ih =>
    rw [Pass.addNodes]
    refine .bind (.ask resolve) fun reply => ?_
    split
    · exact .bind (.say _ _) fun _ => ih edited
    · exact .bind (makes_addPeers settings node.name edited _) fun _ => ih _
    · exact .bind (.say _ _) fun _ => ih edited

/-- These are the nodes of a batch that the selector accepts, each with its name and its provider ID. -/
def Selects (selector : Selector) (batch : List Node) (selected : List PeeringNode) : Prop :=
  selected.map (fun node => (some node.name, some node.providerId)) =
    (batch.filter (Selector.accepts selector ·.labels)).map fun node => (node.metadata.name, node.assignedId?)

/-- Choosing nodes asks nothing, and if it succeeds it has chosen all that are selected. -/
theorem effect_peeringNodes (selector : Selector) (batch : List Node) :
    ∃ result, effect answer state (Pass.peeringNodes selector batch) = (result, state) ∧
      made answer state (Pass.peeringNodes selector batch) = [] ∧
      ∀ selected, result = .ok selected → Selects selector batch selected := by
  induction batch with
  | nil =>
    refine ⟨_, rfl, rfl, ?_⟩
    intro selected ok
    cases ok
    rfl
  | cons node rest ih =>
    obtain ⟨result, ran, quiet, selects⟩ := ih
    rw [Pass.peeringNodes, Pass.nodeName]
    cases name : node.metadata.name with
    | none => exact ⟨_, rfl, rfl, fun selected ok => by cases ok⟩
    | some name =>
      simp only [pure_bind]
      split
      next accepted =>
        cases given : node.assignedId? with
        | none => exact ⟨_, rfl, rfl, fun selected ok => by cases ok⟩
        | some providerId =>
          simp only [effect_bind, made_bind, ran, quiet]
          cases result with
          | error error => exact ⟨_, rfl, rfl, fun selected ok => by cases ok⟩
          | ok others =>
            refine ⟨_, rfl, rfl, ?_⟩
            intro selected ok
            cases ok
            have later := selects others rfl
            rw [Selects, List.filter_cons_of_pos (by exact accepted), List.map_cons, List.map_cons, name, given, ← later]
      next refused =>
        refine ⟨result, ran, quiet, ?_⟩
        intro selected ok
        rw [Selects, List.filter_cons_of_neg (by exact refused)]
        exact selects selected ok

/-- The calls are those that are made once the nodes are chosen. -/
theorem made_chosen {β : Type} {state after : σ} {selector : Selector} {batch : List Node} {selected : List PeeringNode}
    (chooses : effect answer state (Pass.peeringNodes selector batch) = (.ok selected, after))
    {next : List PeeringNode → Pass β} :
    made answer state (Pass.peeringNodes selector batch >>= next) = made answer after (next selected) := by
  obtain ⟨_, _, quiet, _⟩ := effect_peeringNodes answer state selector batch
  rw [made_bind, chooses, quiet, List.nil_append]

theorem makes_peeringNodes {kinds : List Kind} (selector : Selector) (batch : List Node) :
    Makes kinds (Pass.peeringNodes selector batch) := by
  induction batch with
  | nil => exact .pure _
  | cons node rest ih =>
    rw [Pass.peeringNodes, Pass.nodeName]
    cases node.metadata.name with
    | none => exact .throw _
    | some name =>
      simp only [pure_bind]
      split
      · split
        · exact .bind ih fun _ => .pure _
        · exact .throw _
      · exact .bind (.say _ _) fun _ => ih

/-- Removing nodes asks nothing, and if it succeeds it has removed the peers of all that are named. -/
theorem effect_removeNodes (edited : Edited) (batch : List Node) :
    ∃ result, effect answer state (Pass.removeNodes edited batch) = (result, state) ∧
      ∀ final, result = .ok final → ∃ names, batch.map (·.metadata.name) = names.map some ∧ final = withoutNodes edited names := by
  induction batch generalizing edited with
  | nil =>
    refine ⟨_, rfl, ?_⟩
    intro final ok
    cases ok
    exact ⟨[], rfl, rfl⟩
  | cons node rest ih =>
    rw [Pass.removeNodes, Pass.nodeName]
    cases named : node.metadata.name with
    | none => exact ⟨_, rfl, fun final ok => by cases ok⟩
    | some name =>
      obtain ⟨result, ran, removes⟩ := ih (withoutNode edited name)
      refine ⟨result, ?_, ?_⟩
      · simp only [pure_bind]
        split <;> exact ran
      · intro final ok
        obtain ⟨names, all, same⟩ := removes final ok
        exact ⟨name :: names, by simp [named, all], same⟩

theorem makes_removeNodes {kinds : List Kind} (edited : Edited) (batch : List Node) :
    Makes kinds (Pass.removeNodes edited batch) := by
  induction batch generalizing edited with
  | nil => exact .pure _
  | cons node rest ih =>
    rw [Pass.removeNodes, Pass.nodeName]
    cases node.metadata.name with
    | none => exact .throw _
    | some name =>
      simp only [pure_bind]
      split
      · exact .bind (.say _ _) fun _ => ih _
      · exact ih _

theorem makes_syncNodes {kinds : List Kind} (resolve : .resolve ∈ kinds) (config : Config) (selected : List PeeringNode) :
    Makes kinds (Pass.syncNodes settings config selected) := by
  unfold Pass.syncNodes
  simp only
  split
  · exact .bind (.say _ _) fun _ => makes_addNodes settings resolve _ _
  · exact makes_addNodes settings resolve _ _

theorem makes_editForNodes {kinds : List Kind} (resolve : .resolve ∈ kinds) (mode : Mode) (config : Config) (batch : List Node) :
    Makes kinds (Pass.editForNodes settings mode config batch) := by
  cases mode with
  | remove => exact makes_removeNodes _ batch
  | add => exact .bind (makes_peeringNodes _ batch) fun selected => makes_addNodes settings resolve _ selected
  | sync => exact .bind (makes_peeringNodes _ batch) fun selected => makes_syncNodes settings resolve config selected

/-- A node has all that a pass must know about it. -/
structure Complete (selector : Selector) (node : Node) : Prop where
  named : node.metadata.name.isSome = true
  given : Selector.accepts selector node.labels = true → node.assignedId?.isSome = true

theorem peeringNodes_ok {selector : Selector} {batch : List Node} (complete : ∀ node ∈ batch, Complete selector node) :
    ∃ selected, effect answer state (Pass.peeringNodes selector batch) = (.ok selected, state) := by
  induction batch with
  | nil => exact ⟨[], rfl⟩
  | cons node rest ih =>
    obtain ⟨others, later⟩ := ih fun other member => complete other (List.mem_cons_of_mem _ member)
    obtain ⟨named, given⟩ := complete node (List.mem_cons_self ..)
    obtain ⟨name, named⟩ := Option.isSome_iff_exists.mp named
    rw [Pass.peeringNodes, Pass.nodeName, named]
    simp only [pure_bind]
    split
    next accepted =>
      obtain ⟨providerId, given⟩ := Option.isSome_iff_exists.mp (given accepted)
      simp only [given, effect_bind, later]
      exact ⟨_, rfl⟩
    next => exact ⟨others, later⟩

theorem peeringNodes_complete {answer : Answers σ} {state after : σ} {selector : Selector} {batch : List Node}
    {selected : List PeeringNode} (ok : effect answer state (Pass.peeringNodes selector batch) = (.ok selected, after)) :
    ∀ node ∈ batch, Complete selector node := by
  induction batch generalizing selected after with
  | nil => exact fun _ member => absurd member List.not_mem_nil
  | cons node rest ih =>
    rw [Pass.peeringNodes, Pass.nodeName] at ok
    cases named : node.metadata.name with
    | none =>
      rw [named] at ok
      cases ok
    | some name =>
      rw [named] at ok
      simp only [pure_bind] at ok
      split at ok
      next =>
        split at ok
        next providerId given =>
          obtain ⟨others, between, later, _⟩ := (effect_bind_ok answer).mp ok
          exact List.forall_mem_cons.mpr ⟨⟨Option.isSome_of_eq_some named, fun _ => Option.isSome_of_eq_some given⟩, ih later⟩
        next => cases ok
      next refused =>
        exact List.forall_mem_cons.mpr ⟨⟨Option.isSome_of_eq_some named, fun accepted => absurd accepted refused⟩, ih ok⟩

theorem removeNodes_ok (edited : Edited) {batch : List Node} (named : ∀ node ∈ batch, node.metadata.name.isSome = true) :
    ∃ final, effect answer state (Pass.removeNodes edited batch) = (.ok final, state) := by
  induction batch generalizing edited with
  | nil => exact ⟨edited, rfl⟩
  | cons node rest ih =>
    obtain ⟨here, later⟩ := List.forall_mem_cons.mp named
    obtain ⟨name, here⟩ := Option.isSome_iff_exists.mp here
    rw [Pass.removeNodes, Pass.nodeName, here]
    simp only [pure_bind]
    split <;> exact ih _ later

/-- Writes a configuration back if something has changed it. -/
def writeBack (name : String) (edited : Edited) : Pass Unit :=
  if edited.changed then Pass.save name edited.config else Pass.debug "Node peers unchanged, skipping the update..."

theorem makes_writeBack {kinds : List Kind} (patch : .patch ∈ kinds) (name : String) (edited : Edited) :
    Makes kinds (writeBack name edited) := by
  unfold writeBack
  split
  · exact makes_save patch name edited.config
  · exact .say _ _

variable {settings}

theorem nodes_eq {location : Location} (located : settings.location = some location) (mode : Mode) (batch : List Node) :
    Pass.nodes settings mode batch = (do
      Pass.info s!"Reconciling {batch.length} node(s) ({mode.write})..."
      let loaded ← Pass.load location.name
      let edited ← Pass.editForNodes settings mode loaded batch
      writeBack location.name edited) := by
  unfold Pass.nodes
  rw [located]
  rfl

section

variable {location : Location} (located : settings.location = some location) (mode : Mode) (batch : List Node)
include located

theorem effect_nodes :
    effect answer state (Pass.nodes settings mode batch) =
      effect answer state (Pass.load location.name >>= fun loaded =>
        Pass.editForNodes settings mode loaded batch >>= writeBack location.name) := by
  rw [nodes_eq located]
  rfl

theorem made_nodes :
    made answer state (Pass.nodes settings mode batch) =
      made answer state (Pass.load location.name >>= fun loaded =>
        Pass.editForNodes settings mode loaded batch >>= writeBack location.name) := by
  rw [nodes_eq located]
  rfl

end

theorem makes_nodes (settings : Settings) (mode : Mode) (batch : List Node) :
    Makes [.load, .resolve, .patch] (Pass.nodes settings mode batch) := by
  cases located : settings.location with
  | none =>
    unfold Pass.nodes
    rw [located]
    exact .say _ _
  | some location =>
    rw [nodes_eq located]
    refine .bind (.say _ _) fun _ => .bind (makes_load (by decide) _) fun loaded => ?_
    exact .bind (makes_editForNodes settings (by decide) mode loaded batch) fun edited => makes_writeBack (by decide) location.name edited

theorem made_writeBack (name : String) (edited : Edited) :
    made answer state (writeBack name edited) =
      if edited.changed then [(state, .patchDocument name (configPatch edited.config.write))] else [] := by
  unfold writeBack
  split
  · exact PassDocument.made_save ..
  · rfl

/-- Writing back fails only if the patch is refused. -/
theorem writeBack_ok_iff (name : String) (edited : Edited) :
    (effect answer state (writeBack name edited)).1 = .ok () ↔
      ∀ before patch, (before, .patchDocument name patch) ∈ made answer state (writeBack name edited) →
        (answer before (.patchDocument name patch)).1 = .ok () := by
  rw [made_writeBack]
  unfold writeBack
  split
  · rw [PassDocument.effect_save, mapError_ok]
    constructor
    · intro ok before patch member
      cases List.mem_singleton.mp member
      exact ok
    · exact fun granted => granted state _ (List.mem_singleton.mpr rfl)
  · exact ⟨fun _ _ _ member => absurd member List.not_mem_nil, fun _ => rfl⟩

end PeerPool.Proofs.PassPeers
