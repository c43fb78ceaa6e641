import PeerPool.Proofs.PassPeers
import PeerPool.Proofs.Synchronized

/-! What a synchronizing pass over nodes that succeeds has brought about. It removes first and
looks then for nodes that nobody peers with, so what it adds never meets a peer that was there
before, and of what the provider says twice about a node only the first is taken. -/

namespace PeerPool.Proofs.PeersSynchronized
open PassLogic PassDocument PassCalls PeerEdits PassPeers Synchronized Simulation Cluster

variable {σ : Type} {answer : Answers σ} {settings : Settings}

theorem memory_keeps (state : Memory) (call : Call) (other : kind call ≠ .patch) :
    (Memory.answer state call).2.document = state.document := by
  cases call with
  | patchDocument name patch => exact absurd rfl other
  | createReservation project request =>
    simp only [Memory.answer, Memory.create]
    split
    · rfl
    · split <;> rfl
  | deleteReservation id =>
    simp only [Memory.answer, Memory.delete]
    split <;> rfl
  | updateService service =>
    simp only [Memory.answer, Memory.update]
    split <;> rfl
  | _ => rfl

theorem store_memory (name : String) : Store Memory.answer name (·.document.getD "") where
  loads state text answered := by
    simp only [Memory.answer, Memory.load] at answered
    split at answered
    · cases answered
    · split at answered
      next found => rw [found, ← Except.ok.inj answered, Option.getD_some]
      next => cases answered
  patches state text answered := by
    simp only [Memory.answer] at answered ⊢
    split at answered
    · cases answered
    next accepted =>
      rw [if_neg accepted]
      simp only [ConfigRoundTrip.patchDocument_configPatch, Option.getD_some]
  keeps state call other := congrArg (·.getD "") (memory_keeps state call other)

/-- The loaded peers that name no node but the selected ones. -/
def keptPeers (selected : List PeeringNode) (loaded : Config) : List Peer :=
  loaded.peers.filter fun peer => peer.hostnames.all (selected.map (·.name)).contains

/-- The selected nodes that none of these peers names. -/
def missingNodes (selected : List PeeringNode) (loaded : Config) : List PeeringNode :=
  selected.filter fun node => !(keptPeers selected loaded).any (·.hostnames.contains node.name)

/-- The configuration is in line with the selected nodes, by what was asked of the provider and
came back. -/
structure InLine (settings : Settings) (loaded : Config) (selected : List PeeringNode)
    (answers : List (String × List String)) (config : Config) : Prop where
  /-- The provider is asked about the nodes that nobody peers with any more, and no others. -/
  asked : answers.map Prod.fst = (missingNodes selected loaded).map (·.providerId)
  /-- What stays comes first, then a peer for each address, where it comes up first for its node. -/
  peers : config.peers = keptPeers selected loaded ++
    (pairsOf (missingNodes selected loaded) (answers.map Prod.snd)).eraseDups.map fun pair => settings.peerOf pair.1 pair.2
  /-- The nodes that are peered with are those that have kept a peer or have an address. -/
  named : ∀ name, name ∈ config.nodeNames ↔ name ∈ selected.map (·.name) ∧
    ((∃ peer ∈ keptPeers selected loaded, name ∈ peer.hostnames) ∨
      ∃ entry ∈ (missingNodes selected loaded).zip (answers.map Prod.snd), entry.1.name = name ∧ entry.2 ≠ [])
  same : SameBesidesPeers loaded config

theorem mem_keptPeers {selected : List PeeringNode} {loaded : Config} {peer : Peer} :
    peer ∈ keptPeers selected loaded ↔ peer ∈ loaded.peers ∧ ∀ name ∈ peer.hostnames, name ∈ selected.map (·.name) := by
  simp [keptPeers]

theorem mem_missingNodes {selected : List PeeringNode} {loaded : Config} {node : PeeringNode} :
    node ∈ missingNodes selected loaded ↔
      node ∈ selected ∧ ∀ peer ∈ keptPeers selected loaded, node.name ∉ peer.hostnames := by
  simp [missingNodes]

theorem mem_pairsOf {nodes : List PeeringNode} {replies : List (List String)} {pair : String × String} :
    pair ∈ pairsOf nodes replies ↔ ∃ entry ∈ nodes.zip replies, entry.1.name = pair.1 ∧ pair.2 ∈ entry.2 := by
  obtain ⟨name, address⟩ := pair
  simp only [pairsOf, List.mem_flatMap, List.mem_map, Prod.mk.injEq]
  constructor
  · rintro ⟨entry, member, _, inside, same, rfl⟩
    exact ⟨entry, member, same, inside⟩
  · rintro ⟨entry, member, same, inside⟩
    exact ⟨entry, member, address, inside, same, rfl⟩

/-- What the configuration becomes is told by what comes back for the nodes that nobody peers with. -/
theorem inLine_of_replies (settings : Settings) (loaded : Config) (selected : List PeeringNode) {replies : List (List String)}
    (full : replies.length = (missingNodes selected loaded).length) :
    InLine settings loaded selected (((missingNodes selected loaded).map (·.providerId)).zip replies)
      (withPeers settings (loaded.retainNodes (selected.map (·.name))) (pairsOf (missingNodes selected loaded) replies)).config := by
  have asked : (((missingNodes selected loaded).map (·.providerId)).zip replies).map Prod.fst =
      (missingNodes selected loaded).map (·.providerId) := List.map_fst_zip (by simp [full])
  have came : (((missingNodes selected loaded).map (·.providerId)).zip replies).map Prod.snd = replies :=
    List.map_snd_zip (by simp [full])
  have stay : (loaded.retainNodes (selected.map (·.name))).config.peers = keptPeers selected loaded := rfl
  have edits := withPeers_edits settings
    (filterPeers_edits loaded fun peer => peer.hostnames.all (selected.map (·.name)).contains)
    (pairsOf (missingNodes selected loaded) replies)
  have chosen {entry : PeeringNode × List String} (member : entry ∈ (missingNodes selected loaded).zip replies) :=
    mem_missingNodes.mp (List.of_mem_zip member).1
  have added : (withPeers settings (loaded.retainNodes (selected.map (·.name)))
      (pairsOf (missingNodes selected loaded) replies)).config.peers = keptPeers selected loaded ++
        (pairsOf (missingNodes selected loaded) replies).eraseDups.map fun pair => settings.peerOf pair.1 pair.2 := by
    rw [withPeers_apart, stay]
    intro pair member peer stays
    obtain ⟨entry, zipped, same, _⟩ := mem_pairsOf.mp member
    rw [← same]
    exact (chosen zipped).2 peer (stay ▸ stays)
  refine ⟨asked, ?_, ?_, edits.same⟩
  · rw [came]
    exact added
  · intro name
    rw [came, mem_nodeNames, added]
    simp only [List.mem_append, List.mem_map, List.mem_eraseDups]
    constructor
    · rintro ⟨peer, stays | ⟨pair, given, rfl⟩, inside⟩
      · have known := (mem_keptPeers.mp stays).2 name inside
        exact ⟨List.mem_map.mp known, .inl ⟨peer, stays, inside⟩⟩
      · rw [hostnames_peerOf, List.mem_singleton] at inside
        obtain ⟨entry, zipped, same, address⟩ := mem_pairsOf.mp given
        have named := same.trans inside.symm
        exact ⟨⟨entry.1, (chosen zipped).1, named⟩, .inr ⟨entry, zipped, named, List.ne_nil_of_mem address⟩⟩
    · rintro ⟨_, ⟨peer, stays, inside⟩ | ⟨entry, zipped, same, found⟩⟩
      · exact ⟨peer, .inl stays, inside⟩
      · obtain ⟨address, first⟩ := List.exists_mem_of_ne_nil _ found
        refine ⟨_, .inr ⟨(name, address), mem_pairsOf.mpr ⟨entry, zipped, same, first⟩, rfl⟩, ?_⟩
        rw [hostnames_peerOf]
        exact List.mem_singleton.mpr rfl

/-- Once the nodes are chosen, synchronizing comes down to adding those that nobody peers with. -/
theorem syncNodes_adds (state : σ) (loaded : Config) (selected : List PeeringNode) :
    effect answer state (Pass.syncNodes settings loaded selected) = effect answer state
        (Pass.addNodes settings (loaded.retainNodes (selected.map (·.name))) (missingNodes selected loaded)) ∧
      made answer state (Pass.syncNodes settings loaded selected) = made answer state
        (Pass.addNodes settings (loaded.retainNodes (selected.map (·.name))) (missingNodes selected loaded)) := by
  have missing : selected.filter (!(loaded.retainNodes (selected.map (·.name))).config.nodeNames.contains ·.name) =
      missingNodes selected loaded := by
    apply List.filter_congr
    intro node _
    rw [Bool.eq_iff_iff]
    simp [mem_nodeNames, Config.retainNodes, Config.filterPeers, keptPeers]
  rw [← missing]
  unfold Pass.syncNodes
  simp only
  split <;> exact ⟨rfl, rfl⟩

section

variable {location : Location} {document : σ → String} (store : Store answer location.name document) {state after : σ} {edited : Edited}
  (ok : effect answer state (writeBack location.name edited) = (.ok (), after))
include store ok

theorem writeBack_stores : document after = if edited.changed then edited.config.write else document state := by
  unfold writeBack at ok
  split at ok
  next changed =>
    rw [effect_save] at ok
    obtain ⟨result, rfl⟩ := Prod.mk.inj ok
    rw [if_pos changed]
    exact store.patches state edited.config.write (mapError_ok.mp result)
  next unchanged =>
    cases ok
    exact (if_neg unchanged).symm

theorem written_back {loaded : Config} (before : Config.read (document state) = .ok loaded) (edits : EditsPeers loaded edited) :
    Config.read (document after) = .ok edited.config := by
  rw [writeBack_stores store ok]
  split
  · exact ConfigRoundTrip.read_write edited.config
  next unchanged =>
    rw [edits.idle (Bool.not_eq_true _ ▸ unchanged)]
    exact before

end

/-- Of all that a pass asks, only what it asks to edit the configuration is about routers. -/
theorem learned_edits {location : Location} (located : settings.location = some location) {mode : Mode} {batch : List Node}
    {state opened : σ} {loaded : Config} (loads : effect answer state (Pass.load location.name) = (.ok loaded, opened)) :
    learned answer (made answer state (Pass.nodes settings mode batch)) =
      learned answer (made answer opened (Pass.editForNodes settings mode loaded batch)) := by
  have unasked : learned answer (made answer state (Pass.load location.name)) = [] := by
    rw [made_load]
    rfl
  have unwritten (between : σ) (edited : Edited) : learned answer (made answer between (writeBack location.name edited)) = [] := by
    rw [made_writeBack]
    split <;> rfl
  rw [made_nodes answer state located, made_bind, loads]
  simp only
  rw [learned_append, unasked, List.nil_append, made_bind, learned_append]
  generalize effect answer opened (Pass.editForNodes settings mode loaded batch) = result
  obtain ⟨error | edited, between⟩ := result
  · exact List.append_nil _
  · rw [unwritten, List.append_nil]

/-- The peers are those that were there and name no other node, in their order, and then one for
each address of each selected node that had none left. Nothing else of the configuration is
touched, and the provider is asked about no other node. -/
theorem nodes_synchronized {location : Location} {document : σ → String} (store : Store answer location.name document)
    (located : settings.location = some location) (batch : List Node) (state after : σ)
    (ok : effect answer state (Pass.nodes settings .sync batch) = (.ok (), after)) :
    ∃ loaded selected config, Config.read (document state) = .ok loaded ∧ Selects settings.nodeSelector batch selected ∧
      Config.read (document after) = .ok config ∧
      InLine settings loaded selected (learned answer (made answer state (Pass.nodes settings .sync batch))) config := by
  rw [effect_nodes answer state located] at ok
  obtain ⟨loaded, opened, loads, rest⟩ := (effect_bind_ok answer).mp ok
  obtain ⟨edited, between, edit, writes⟩ := (effect_bind_ok answer).mp rest
  obtain ⟨selected, _, chooses, syncs⟩ := (effect_bind_ok answer).mp edit
  obtain ⟨_, chose, _, selects⟩ := effect_peeringNodes answer opened settings.nodeSelector batch
  cases chooses.symm.trans chose
  obtain ⟨adds, asks⟩ := @syncNodes_adds σ answer settings opened loaded selected
  have asked := @learned_edits σ answer settings _ located .sync batch _ _ _ loads
  rw [Pass.editForNodes, made_chosen answer chooses, asks, learned_addNodes] at asked
  rw [adds, effect_addNodes] at syncs
  obtain ⟨same, rfl⟩ := Prod.mk.inj syncs
  cases same
  -- Nothing is written before the end, so what was loaded is still what is stored.
  have stored : Config.read (document state) = .ok loaded := loaded_is_stored store loads
  have still : document (resolved answer opened (missingNodes selected loaded)).2 = document state := by
    have loading : Makes [.load] (Pass.load location.name) := makes_load (by decide) location.name
    have adding : Makes [.resolve] (Pass.addNodes settings ⟨loaded, false⟩ (missingNodes selected loaded)) :=
      makes_addNodes settings (by decide) _ _
    rw [← store.frame loads loading (by decide)]
    exact store.frame (effect_addNodes answer opened settings ⟨loaded, false⟩ _) adding (by decide)
  have edits := withPeers_edits settings
    (filterPeers_edits loaded fun peer => peer.hostnames.all (selected.map (·.name)).contains)
    (pairsOf (missingNodes selected loaded) (resolved answer opened (missingNodes selected loaded)).1)
  have saved := written_back store writes (still ▸ stored) edits
  refine ⟨loaded, selected, _, stored, selects selected rfl, saved, ?_⟩
  rw [asked]
  exact inLine_of_replies settings loaded selected (resolved_length ..)

section

def peered (names : List String) (address : String) : Peer where
  localAsn := 65000
  peerAsn := 65530
  address := address
  selectors := names.map NodeSelector.ofHostname

def named (name : String) (labels : List (String × String)) : Node where
  metadata := { name := some name, labels := some (.ofList labels) }
  providerId := some name

/-- A peer for any node, one for two nodes of which one is gone, and one for a node that stays. -/
def scattered : Config where
  peers := [peered [] "r0", peered ["n1", "gone"] "r1", peered ["n2"] "r2"]

def accepting : Settings :=
  { apiKey := "", projectId := "", nodeSelector := [.equals "role" "worker"] }

/-- The first node is listed twice, and the last is not selected. -/
def workers : List Node :=
  [named "n1" [("role", "worker")], named "n2" [("role", "worker")], named "n3" [("role", "worker")],
    named "n1" [("role", "worker")], named "n4" []]

/-- One router comes up twice for a node, and those of another node cannot be found. -/
def routed : Memory where
  document := some scattered.write
  routers := [("n1", some ["r3", "r4", "r3"]), ("n2", some ["r5"]), ("n3", none)]

theorem nodes_synchronized_workers :
    ∃ after, effect Memory.answer routed (Pass.nodes accepting .sync workers) = (.ok (), after) ∧
      ∃ loaded selected config, Config.read (routed.document.getD "") = .ok loaded ∧
        Selects accepting.nodeSelector workers selected ∧ Config.read (after.document.getD "") = .ok config ∧
        InLine accepting loaded selected
          (learned Memory.answer (made Memory.answer routed (Pass.nodes accepting .sync workers))) config := by
  have located : accepting.location = some ⟨"metallb-system", "config"⟩ := rfl
  have loads : effect Memory.answer routed (Pass.load "config") = (.ok scattered, routed) :=
    effect_load_ok Memory.answer routed "config" scattered rfl (ConfigRoundTrip.read_write scattered)
  have edits : ∃ after, effect Memory.answer routed
      (Pass.editForNodes accepting .sync scattered workers >>= writeBack "config") = (.ok (), after) := by
    have succeeds : (effect Memory.answer routed
        (Pass.editForNodes accepting .sync scattered workers >>= writeBack "config")).1 = .ok () := by decide +kernel
    exact ⟨_, Prod.ext succeeds rfl⟩
  have ran : ∃ after, effect Memory.answer routed (Pass.nodes accepting .sync workers) = (.ok (), after) := by
    obtain ⟨after, edits⟩ := edits
    rw [effect_nodes Memory.answer routed located]
    exact ⟨after, (effect_bind_ok _).mpr ⟨scattered, routed, loads, edits⟩⟩
  obtain ⟨after, ok⟩ := ran
  have store : Store Memory.answer "config" (·.document.getD "") := store_memory "config"
  have settled := nodes_synchronized store located workers routed after ok
  exact ⟨after, ok, settled⟩

end

end PeerPool.Proofs.PeersSynchronized
