import PeerPool.Proofs.Coverage
import PeerPool.Proofs.NodeRounds

/-! What the watch misses by leaving out passes for nodes that it has handed over before. The
peers of a node depend on more than who it is: on its labels, on its provider ID and on what the
configuration had for it when it was listed. So the loop that leaves out passes keeps up with the
loop that runs them all exactly as long as no pass that is left out would have added a peer. -/

namespace PeerPool.Proofs.SkippedUpdates
open PassLogic PassDocument PassCalls PassPeers PeerEdits PeersSynchronized NodeEdits NodeRounds Synchronized Coverage
open Simulation Agent Cluster

variable {σ : Type}

abbrev Routers := String → Except Provider.Error (List String)

/-- A world in which nothing but passes touches the configuration, and what is said about the
routers of a machine is always the same. -/
structure Steady (answer : Replies σ) (name : String) (document : σ → String) (routers : Routers) : Prop where
  store : Store (onCalls answer) name document
  waits : ∀ state request, (∀ call, request ≠ .call call) → document (answer state request).2 = document state
  resolves : ∀ state providerId, (answer state (.call (.resolvePeers providerId))).1 = routers providerId

def lookup (routers : Routers) (nodes : List PeeringNode) : List (List String) :=
  nodes.map fun node => addressesOf (routers node.providerId)

/-- What a pass that succeeds makes of the text of the configuration. -/
def Revises (settings : Settings) (routers : Routers) (mode : Mode) (batch : List Node) (before after : String) : Prop :=
  ∃ loaded edited, Config.read before = .ok loaded ∧ EditedFor settings (lookup routers) loaded batch mode edited ∧
    after = if edited.changed then edited.config.write else before

def EndsWell (answer : Replies σ) (settings : Settings) (state : σ) (event : WatchEvent Node) : Prop :=
  ∀ mode batch, called event = some (mode, batch) → (runs answer settings state mode batch).1 = .ok ()

/-- The configuration has a peer for each router of the node, as far as it is to have peers. -/
def Provided (settings : Settings) (routers : Routers) (text : String) (node : Node) : Prop :=
  ∀ name providerId, PeersAs settings.nodeSelector node name providerId →
    ∀ address ∈ addressesOf (routers providerId), Peered text name address

/-- If the watch leaves out a pass upon the event, the pass would not have changed anything. -/
def Harmless (settings : Settings) (routers : Routers) (peered : PeeredNodes) (text : String) (event : WatchEvent Node) : Prop :=
  ∀ node, event = .applied node → (peered.applied node).1 = false → Provided settings routers text node

/-- What becomes of the text of the configuration when an event is attended to. -/
def Turns (settings : Settings) (routers : Routers) (event : WatchEvent Node) (before after : String) : Prop :=
  match called event with
  | some (mode, batch) => Revises settings routers mode batch before after
  | none => after = before

/-- The event hands over a selected node of this name with this provider ID, and it is not listed
while the configuration already names it. -/
inductive Serves (settings : Settings) (peered : PeeredNodes) (text name providerId : String) : WatchEvent Node → Prop where
  | applied {node : Node} : PeersAs settings.nodeSelector node name providerId → (peered.applied node).1 = true →
      Serves settings peered text name providerId (.applied node)
  | restarted {nodes : List Node} {node : Node} : node ∈ nodes → PeersAs settings.nodeSelector node name providerId →
      (∀ config, Config.read text = .ok config → name ∉ config.nodeNames) → Serves settings peered text name providerId (.restarted nodes)

/-- The event takes a node away: it is deleted, or not among the selected ones when all are listed. -/
def Drops (settings : Settings) (name : String) : WatchEvent Node → Prop
  | .deleted node => node.metadata.name = some name
  | .restarted nodes => ¬ Shows settings nodes name
  | _ => False

section

variable {settings : Settings} {routers : Routers} {mode : Mode} {batch : List Node} {before after : String}

theorem mem_pairsOf_lookup {nodes : List PeeringNode} {pair : String × String} :
    pair ∈ pairsOf nodes (lookup routers nodes) ↔
      ∃ node ∈ nodes, node.name = pair.1 ∧ pair.2 ∈ addressesOf (routers node.providerId) := by
  have zipped : nodes.zip (lookup routers nodes) = nodes.map fun node => (node, addressesOf (routers node.providerId)) := by
    induction nodes with
    | nil => rfl
    | cons node rest ih => exact congrArg (_ :: ·) ih
  rw [mem_pairsOf, zipped]
  simp only [List.mem_map, exists_exists_and_eq_and]

theorem withPeers_lookup {nodes : List PeeringNode} {name providerId address : String} (entry : ⟨name, providerId⟩ ∈ nodes)
    (member : address ∈ addressesOf (routers providerId)) (edited : Edited) :
    (withPeers settings edited (pairsOf nodes (lookup routers nodes))).config.hasPeer address [.ofHostname name] = true := by
  have pair : (name, address) ∈ pairsOf nodes (lookup routers nodes) := mem_pairsOf_lookup.mpr ⟨_, entry, rfl, member⟩
  exact withPeers_has settings edited pair

theorem Revises.unique {other : String} (revises : Revises settings routers mode batch before after)
    (again : Revises settings routers mode batch before other) : after = other := by
  obtain ⟨loaded, edited, read, edits, rfl⟩ := revises
  obtain ⟨reloaded, reedited, reread, reedits, rfl⟩ := again
  cases read.symm.trans reread
  rw [edits.unique reedits]

theorem Revises.reads (revises : Revises settings routers mode batch before after) :
    ∃ loaded edited, Config.read before = .ok loaded ∧ EditedFor settings (lookup routers) loaded batch mode edited ∧
      Config.read after = .ok edited.config := by
  obtain ⟨loaded, edited, read, edits, rfl⟩ := revises
  refine ⟨loaded, edited, read, edits, ?_⟩
  split
  · exact ConfigRoundTrip.read_write edited.config
  next unchanged =>
    rw [edits.edits.idle (Bool.not_eq_true _ ▸ unchanged)]
    exact read

/-- A pass that adds a node leaves the text alone exactly if the node has all of its peers. -/
theorem Revises.idle_iff {node : Node} (revises : Revises settings routers .add [node] before after) :
    after = before ↔ Provided settings routers before node := by
  obtain ⟨loaded, edited, read, edits, rfl⟩ := revises
  obtain ⟨selected, selects, rfl⟩ : ∃ selected, Selects settings.nodeSelector [node] selected ∧
      edited = withPeers settings ⟨loaded, false⟩ (pairsOf selected (lookup routers selected)) := by
    cases edits with
    | added selects => exact ⟨_, selects, rfl⟩
  constructor
  · intro same name providerId peers address member
    -- What is written reads as the edited configuration, so the text tells the two apart.
    have idle : (withPeers settings ⟨loaded, false⟩ (pairsOf selected (lookup routers selected))).config = loaded := by
      by_contra differs
      rw [if_pos (edits.changed_iff.mpr differs)] at same
      rw [← same, ConfigRoundTrip.read_write] at read
      exact differs (Except.ok.inj read)
    have entry : ⟨name, providerId⟩ ∈ selected := (mem_selects selects).mpr ⟨node, List.mem_singleton.mpr rfl, peers⟩
    exact ⟨loaded, read, idle ▸ withPeers_lookup entry member ⟨loaded, false⟩⟩
  · intro provided
    have known : ∀ pair ∈ pairsOf selected (lookup routers selected), loaded.hasPeer pair.2 [.ofHostname pair.1] = true := by
      intro pair member
      obtain ⟨entry, inside, same, address⟩ := mem_pairsOf_lookup.mp member
      obtain ⟨other, single, peers⟩ := (mem_selects selects).mp inside
      rw [List.mem_singleton.mp single] at peers
      obtain ⟨config, reread, found⟩ := provided entry.name entry.providerId peers pair.2 address
      cases read.symm.trans reread
      exact same ▸ found
    have idle : withPeers settings ⟨loaded, false⟩ (pairsOf selected (lookup routers selected)) = ⟨loaded, false⟩ :=
      withPeers_idle settings known
    rw [idle]
    rfl

theorem Turns.unique {event : WatchEvent Node} {other : String} (turns : Turns settings routers event before after)
    (again : Turns settings routers event before other) : after = other := by
  unfold Turns at turns again
  cases calls : called event with
  | some pass =>
    rw [calls] at turns again
    exact Revises.unique turns again
  | none =>
    rw [calls] at turns again
    exact Eq.trans turns (Eq.symm again)

theorem Turns.serves {event : WatchEvent Node} {peered : PeeredNodes} {name providerId : String}
    (turns : Turns settings routers event before after) (serves : Serves settings peered before name providerId event) :
    ∀ address ∈ addressesOf (routers providerId), Peered after name address := by
  intro address member
  cases serves with
  | applied peers _ =>
    obtain ⟨loaded, edited, _, edits, reread⟩ := Revises.reads turns
    refine ⟨edited.config, reread, ?_⟩
    cases edits with
    | @added selected selects =>
      have entry : ⟨name, providerId⟩ ∈ selected := (mem_selects selects).mpr ⟨_, List.mem_singleton.mpr rfl, peers⟩
      exact withPeers_lookup entry member _
  | restarted listed peers fresh =>
    obtain ⟨loaded, edited, read, edits, reread⟩ := Revises.reads turns
    refine ⟨edited.config, reread, ?_⟩
    cases edits with
    | @synchronized selected selects =>
      -- Whoever is listed is asked about only if nothing that stays names it.
      have entry : ⟨name, providerId⟩ ∈ missingNodes selected loaded := by
        refine mem_missingNodes.mpr ⟨(mem_selects selects).mpr ⟨_, listed, peers⟩, ?_⟩
        intro peer kept inside
        exact fresh loaded read (mem_nodeNames.mpr ⟨peer, (mem_keptPeers.mp kept).1, inside⟩)
      exact withPeers_lookup entry member _

theorem Revises.peered {name address : String} (revises : Revises settings routers mode batch before after)
    (peered : Peered before name address)
    (keeps : ∀ loaded edited, EditedFor settings (lookup routers) loaded batch mode edited →
      loaded.hasPeer address [.ofHostname name] = true → edited.config.hasPeer address [.ofHostname name] = true) :
    Peered after name address := by
  obtain ⟨config, known, has⟩ := peered
  obtain ⟨loaded, edited, read, edits, reread⟩ := revises.reads
  cases known.symm.trans read
  exact ⟨edited.config, reread, keeps config edited edits has⟩

theorem Turns.keeps {event : WatchEvent Node} {name address : String} (turns : Turns settings routers event before after)
    (stays : ¬ Drops settings name event) (peered : Peered before name address) : Peered after name address := by
  cases event with
  | applied node =>
    refine Revises.peered turns peered fun loaded edited edits has => ?_
    cases edits with
    | added _ => exact withPeers_keeps settings has _
  | deleted node =>
    refine Revises.peered turns peered fun loaded edited edits has => ?_
    cases edits with
    | @removed names all =>
      refine withoutNodes_keeps (fun inside => stays ?_) has
      have listed : some name ∈ [node].map (·.metadata.name) := all ▸ List.mem_map_of_mem inside
      exact (List.mem_singleton.mp listed).symm
  | restarted nodes =>
    refine Revises.peered turns peered fun loaded edited edits has => ?_
    cases edits with
    | synchronized selects =>
      have shown := (mem_selected selects).mpr (not_not.mp stays)
      exact withPeers_keeps settings (retainNodes_keeps shown has) _
  | failed code =>
    have same : after = before := turns
    exact same ▸ peered

end

section

variable {answer : Answers σ} {routers : Routers}
  (routes : ∀ state providerId, (answer state (.resolvePeers providerId)).1 = routers providerId)
include routes

/-- A pass asks in a state of its own, but what it is told does not depend on that. -/
theorem told_lookup (state : σ) : (fun nodes => (resolved answer state nodes).1) = lookup routers :=
  funext (resolved_constant routes state)

theorem nodes_revised {settings : Settings} {location : Location} (located : settings.location = some location)
    {document : σ → String} (store : Store answer location.name document) {mode : Mode} {batch : List Node} {state after : σ}
    (ok : effect answer state (Pass.nodes settings mode batch) = (.ok (), after)) :
    Revises settings routers mode batch (document state) (document after) := by
  obtain ⟨loaded, opened, edited, _, read, known, wrote⟩ := nodes_edited store located ok
  rw [told_lookup routes] at known
  exact ⟨loaded, edited, read, known, wrote⟩

end

section

variable {answer : Replies σ} {location : Location} {document : σ → String} {routers : Routers}
  (steady : Steady answer location.name document routers)
include steady

theorem Steady.begins (state : σ) : document (begins answer state) = document state :=
  (steady.waits _ .acquire fun _ => Request.noConfusion).trans (steady.waits state .nodeEvent fun _ => Request.noConfusion)

variable {settings : Settings} (located : settings.location = some location)
include located

theorem Steady.revises {state : σ} {mode : Mode} {batch : List Node} (ok : (runs answer settings state mode batch).1 = .ok ()) :
    Revises settings routers mode batch (document state) (document (runs answer settings state mode batch).2) := by
  have ran : effect (onCalls answer) (NodeRounds.begins answer state) (Pass.nodes settings mode batch) =
    (.ok (), (runs answer settings state mode batch).2) := Prod.ext ok rfl
  rw [← steady.begins state]
  exact nodes_revised steady.resolves located steady.store ran

theorem Steady.turns {state : σ} {event : WatchEvent Node} (ends : EndsWell answer settings state event) :
    Turns settings routers event (document state) (document (attends answer settings state event)) := by
  unfold Turns attends
  cases calls : called event with
  | some pass =>
    obtain ⟨mode, batch⟩ := pass
    simp only
    rw [steady.waits _ .release fun _ => Request.noConfusion]
    exact steady.revises located (ends mode batch calls)
  | none =>
    exact (steady.waits _ (.sleep retryDelay) fun _ => Request.noConfusion).trans (steady.waits state .nodeEvent fun _ => Request.noConfusion)

section

variable {start : σ} {history : List (WatchEvent Node)} {event : WatchEvent Node}

/-- Where the watch leaves out a pass it leaves the text alone, and else it attends to the event. -/
theorem Steady.watched_turns (ends : skips (watched answer settings start history).1 event = false →
      EndsWell answer settings (watched answer settings start history).2 event) :
    if skips (watched answer settings start history).1 event then
      document (watched answer settings start (history ++ [event])).2 = document (watched answer settings start history).2
    else Turns settings routers event (document (watched answer settings start history).2)
      (document (watched answer settings start (history ++ [event])).2) := by
  rw [watched_append]
  simp only
  split
  next => exact steady.waits _ .nodeEvent fun _ => Request.noConfusion
  next runs => exact steady.turns located (ends (Bool.not_eq_true _ ▸ runs))

/-- The two loops stay together over an event exactly if nothing is missed. -/
theorem Steady.agree_step
    (same : document (watched answer settings start history).2 = document (attended answer settings start history))
    (ends : skips (watched answer settings start history).1 event = false →
      EndsWell answer settings (watched answer settings start history).2 event)
    (ends_all : EndsWell answer settings (attended answer settings start history) event) :
    document (watched answer settings start (history ++ [event])).2 = document (attended answer settings start (history ++ [event])) ↔
      Harmless settings routers (watched answer settings start history).1 (document (watched answer settings start history).2) event := by
  have goes := steady.watched_turns located ends
  have turns := steady.turns located ends_all
  rw [attended_append]
  rw [← same] at turns
  split at goes
  next skipped =>
    cases event with
    | applied node =>
      have left : ((watched answer settings start history).1.applied node).1 = false := by simpa [skips] using skipped
      rw [goes, eq_comm]
      refine (Revises.idle_iff turns).trans ⟨?_, fun harmless => harmless node rfl left⟩
      rintro provided _ ⟨⟩ _
      exact provided
    | _ => cases skipped
  next runs =>
    refine iff_of_true (goes.unique turns) ?_
    rintro node rfl skipped
    exact absurd (by simp [skips, skipped]) runs

end

end

/-- No pass of either loop returns an error. -/
structure Errorless (answer : Replies σ) (settings : Settings) (start : σ) (events : List (WatchEvent Node)) : Prop where
  watched : ∀ before event rest, events = before ++ event :: rest → skips (watched answer settings start before).1 event = false →
    EndsWell answer settings (watched answer settings start before).2 event
  attended : ∀ before event rest, events = before ++ event :: rest →
    EndsWell answer settings (attended answer settings start before) event

/-- A node of this name and provider ID was served, and has not been taken away since. -/
def Served (answer : Replies σ) (settings : Settings) (start : σ) (document : σ → String) (history : List (WatchEvent Node))
    (name providerId : String) : Prop :=
  ∃ before event rest, history = before ++ event :: rest ∧
    Serves settings (watched answer settings start before).1 (document (watched answer settings start before).2) name providerId event ∧
    ∀ other ∈ rest, ¬ Drops settings name other

section

variable {answer : Replies σ} {location : Location} {document : σ → String} {routers : Routers}
  (steady : Steady answer location.name document routers) {settings : Settings} (located : settings.location = some location)
  {start : σ} {events : List (WatchEvent Node)} (errorless : Errorless answer settings start events)
include steady located errorless

theorem served_peered {history rest : List (WatchEvent Node)} (splits : events = history ++ rest) {name providerId : String}
    (served : Served answer settings start document history name providerId) :
    ∀ address ∈ addressesOf (routers providerId), Peered (document (watched answer settings start history).2) name address := by
  obtain ⟨before, event, between, rfl, serves, stays⟩ := served
  -- By what was heard since the node was served. Whether the watch attends to it or not, the peers stay.
  induction between using List.reverseRecOn generalizing rest with
  | nil =>
    have runs : skips (watched answer settings start before).1 event = false := by
      cases serves with
      | applied _ needed => simp only [skips, needed, Bool.not_true]
      | restarted _ _ _ => rfl
    have goes := steady.watched_turns located (errorless.watched before event rest (by simpa using splits))
    rw [if_neg (Bool.eq_false_iff.mp runs)] at goes
    exact goes.serves serves
  | append_singleton between other ih =>
    have earlier := @ih (other :: rest) (by simpa using splits) fun other member => stays other (List.mem_append_left _ member)
    have goes := steady.watched_turns located (errorless.watched (before ++ event :: between) other rest (by simpa using splits))
    rw [← List.cons_append, ← List.append_assoc]
    intro address member
    split at goes
    next =>
      rw [goes]
      exact earlier address member
    next => exact goes.keeps (stays other (by simp)) (earlier address member)

/-- The loop that leaves out passes keeps up with the loop that runs them all exactly as long as
every node that it leaves out has all of its peers, as one has that was served before, was not
taken away since and has kept its provider ID. -/
theorem skipping_agrees :
    ((∀ before, before <+: events →
        document (watched answer settings start before).2 = document (attended answer settings start before)) ↔
      ∀ before event rest, events = before ++ event :: rest → Harmless settings routers
        (watched answer settings start before).1 (document (watched answer settings start before).2) event) ∧
    ∀ before node rest, events = before ++ .applied node :: rest →
      (∀ name providerId, PeersAs settings.nodeSelector node name providerId →
        Served answer settings start document before name providerId) →
      Provided settings routers (document (watched answer settings start before).2) node := by
  have step {before : List (WatchEvent Node)} {event : WatchEvent Node} {rest : List (WatchEvent Node)}
      (splits : events = before ++ event :: rest)
      (same : document (watched answer settings start before).2 = document (attended answer settings start before)) :=
    steady.agree_step located same (errorless.watched before event rest splits) (errorless.attended before event rest splits)
  refine ⟨⟨?_, ?_⟩, ?_⟩
  · intro agree before event rest splits
    have shorter : before <+: events := ⟨event :: rest, splits.symm⟩
    have longer : before ++ [event] <+: events := ⟨rest, by simpa using splits.symm⟩
    exact (step splits (agree before shorter)).mp (agree _ longer)
  · intro harmless before
    -- Nothing is missed at the last event of the prefix, and before it the loops agree.
    induction before using List.reverseRecOn with
    | nil => exact fun _ => rfl
    | append_singleton before event ih =>
      rintro ⟨rest, splits⟩
      have splits : events = before ++ event :: rest := by simpa using splits.symm
      exact (step splits (ih ⟨event :: rest, splits.symm⟩)).mpr (harmless before event rest splits)
  · intro before node rest splits served name providerId peers
    exact served_peered steady located errorless splits (served name providerId peers)

end

section

theorem steady_calmly (name : String) : Steady calmly name id fun _ => .ok ["r1"] where
  store :=
    { loads := fun _ _ answered => (Except.ok.inj answered).symm
      patches := fun state text _ => by
        change ((Simulation.patchDocument (some state) (configPatch text)).getD state : String) = text
        rw [ConfigRoundTrip.patchDocument_configPatch]
        rfl
      keeps := fun state call other => by
        cases call with
        | patchDocument name patch => exact absurd rfl other
        | _ => rfl }
  waits state request other := by
    cases request with
    | call call => exact absurd rfl (other call)
    | _ => rfl
  resolves _ _ := rfl

def Known (settings : Settings) (event : WatchEvent Node) : Prop :=
  ∀ mode batch, called event = some (mode, batch) → ∀ node ∈ batch, Complete settings.nodeSelector node

def Readable (text : String) : Prop := ∃ config, Config.read text = .ok config

theorem calmly_ends {settings : Settings} {text : String} (readable : Readable text) {event : WatchEvent Node}
    (known : Known settings event) : EndsWell calmly settings text event := by
  intro mode batch calls
  obtain ⟨config, read⟩ := readable
  refine nodes_ok_iff.mpr fun location _ => ⟨⟨config, ?_⟩, ?_, fun _ => known mode batch calls, fun _ _ _ => rfl⟩
  · exact congrArg Prod.fst (effect_load_ok (onCalls calmly) text location.name config rfl read)
  · exact fun node member => (known mode batch calls node member).named

theorem Turns.readable {settings : Settings} {routers : Routers} {event : WatchEvent Node}
    {before after : String} (turns : Turns settings routers event before after) (readable : Readable before) : Readable after := by
  unfold Turns at turns
  cases calls : called event with
  | some pass =>
    rw [calls] at turns
    obtain ⟨_, edited, _, _, read⟩ := Revises.reads turns
    exact ⟨edited.config, read⟩
  | none =>
    rw [calls] at turns
    exact Eq.symm turns ▸ readable

theorem calmly_errorless {settings : Settings} {location : Location} (located : settings.location = some location)
    {start : String} (readable : Readable start) {events : List (WatchEvent Node)} (known : ∀ event ∈ events, Known settings event) :
    Errorless calmly settings start events := by
  have steady := steady_calmly location.name
  have still (before rest : List (WatchEvent Node)) (splits : events = before ++ rest) :
      Readable (watched calmly settings start before).2 ∧ Readable (attended calmly settings start before) := by
    induction before using List.reverseRecOn generalizing rest with
    | nil => exact ⟨readable, readable⟩
    | append_singleton before event ih =>
      obtain ⟨left, right⟩ := ih (event :: rest) (by simpa using splits)
      have known := known event (by simp [splits])
      have goes := steady.watched_turns located fun _ => calmly_ends left known
      rw [attended_append]
      refine ⟨?_, (steady.turns located (calmly_ends right known)).readable right⟩
      split at goes
      · have same : (watched calmly settings start (before ++ [event])).2 = (watched calmly settings start before).2 := goes
        exact same ▸ left
      · exact goes.readable left
  constructor
  · intro before event rest splits _
    exact calmly_ends (still before _ splits).1 (known event (by simp [splits]))
  · intro before event rest splits
    exact calmly_ends (still before _ splits).2 (known event (by simp [splits]))

theorem blank_readable : Readable blank := ⟨{}, ConfigRoundTrip.read_write {}⟩

/-- The node before it was labelled. -/
def plain : Node := named "n1" []

theorem known_single {event : WatchEvent Node} {mode : Mode} {node : Node} (calls : called event = some (mode, [node]))
    (complete : Complete accepting.nodeSelector node) : Known accepting event := by
  intro other batch same
  cases calls.symm.trans same
  exact List.forall_mem_singleton.mpr complete

theorem known_worker : Known accepting (.applied worker) := known_single rfl ⟨rfl, fun _ => rfl⟩

theorem accepting_located : accepting.location = some ⟨"metallb-system", "config"⟩ := rfl

/-- A node that was listed before the configuration named it is updated. -/
theorem skipping_agrees_worker :
    let events : List (WatchEvent Node) := [.restarted [worker], .applied worker]
    Errorless calmly accepting blank events ∧
      ((watched calmly accepting blank [.restarted [worker]]).1.applied worker).1 = false ∧
      ∀ before, before <+: events → (watched calmly accepting blank before).2 = attended calmly accepting blank before := by
  intro events
  have errorless : Errorless calmly accepting blank events := by
    apply calmly_errorless accepting_located blank_readable
    simp only [events, List.forall_mem_cons, List.not_mem_nil, false_implies, implies_true, and_true]
    exact ⟨known_single rfl ⟨rfl, fun _ => rfl⟩, known_worker⟩
  obtain ⟨agrees, served⟩ := skipping_agrees (steady_calmly "config") accepting_located errorless
  refine ⟨errorless, by rw [watched_tracks]; decide, agrees.mpr ?_⟩
  rintro before _ rest splits node rfl _
  have fresh (name : String) : ∀ config, Config.read blank = .ok config → name ∉ config.nodeNames := by
    intro config read
    cases (ConfigRoundTrip.read_write {}).symm.trans read
    exact List.not_mem_nil
  apply served before node rest splits
  intro name providerId peers
  have splits : [WatchEvent.restarted [worker], .applied worker] = before ++ .applied node :: rest := splits
  obtain _ | ⟨first, _ | ⟨second, before⟩⟩ := before
  · cases splits
  · cases splits
    exact ⟨[], _, [], rfl, .restarted (List.mem_singleton.mpr rfl) peers (fresh name), by simp⟩
  · simp at splits

/-- A node that was first seen without the label that selects it gets no peer when it is labelled. -/
theorem skipping_misses_labelled :
    let events : List (WatchEvent Node) := [.applied plain, .applied worker]
    Steady calmly "config" id (fun _ => .ok ["r1"]) ∧ Errorless calmly accepting blank events ∧
      ¬ Peered (watched calmly accepting blank events).2 "n1" "r1" ∧ Peered (attended calmly accepting blank events) "n1" "r1" := by
  intro events
  have steady := steady_calmly "config"
  have errorless : Errorless calmly accepting blank events := by
    apply calmly_errorless accepting_located blank_readable
    simp only [events, List.forall_mem_cons, List.not_mem_nil, false_implies, implies_true, and_true]
    exact ⟨known_single rfl ⟨rfl, fun _ => rfl⟩, known_worker⟩
  have refused : Provided accepting (fun _ => .ok ["r1"]) blank plain := fun _ _ peers => by cases peers.accepted
  have first : attended calmly accepting blank [.applied plain] = blank := by
    have turns := steady.turns accepting_located (errorless.attended [] (.applied plain) [.applied worker] rfl)
    rw [← attended_append] at turns
    exact (Revises.idle_iff turns).mpr refused
  have missed : (watched calmly accepting blank [.applied plain]).2 = blank := by
    have goes := steady.watched_turns accepting_located (errorless.watched [] (.applied plain) [.applied worker] rfl)
    exact (Revises.idle_iff goes).mpr refused
  have skipped : skips (watched calmly accepting blank [.applied plain]).1 (.applied worker) = true := by
    rw [watched_tracks]
    decide
  refine ⟨steady, errorless, ?_, ?_⟩
  · have goes := steady.watched_turns accepting_located (errorless.watched [.applied plain] (.applied worker) [] rfl)
    rw [if_pos skipped] at goes
    have still : (watched calmly accepting blank events).2 = blank := goes.trans missed
    rw [still]
    rintro ⟨config, read, known⟩
    cases (ConfigRoundTrip.read_write {}).symm.trans read
    cases known
  · have turns := steady.turns accepting_located (errorless.attended [.applied plain] (.applied worker) [] rfl)
    rw [← attended_append] at turns
    have serves : Serves accepting {} (id (attended calmly accepting blank [.applied plain])) "n1" "n1" (.applied worker) :=
      .applied ⟨by decide, rfl, by decide⟩ (by decide)
    exact turns.serves serves "r1" (List.mem_singleton.mpr rfl)

end

end PeerPool.Proofs.SkippedUpdates
