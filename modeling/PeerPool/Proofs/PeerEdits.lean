import Mathlib.Data.List.Induction
import PeerPool.Pass.Nodes
import PeerPool.Proofs.Distinct

/-! Which peers there are after an edit, and in which order. A peer that is scoped to one node
by name is there once for each address, however often it is added. -/

namespace PeerPool.Proofs.PeerEdits
open Distinct

/-- Everything but the peers is the same. -/
structure SameBesidesPeers (before after : Config) : Prop where
  communities : after.communities = before.communities
  pools : after.pools = before.pools

theorem SameBesidesPeers.refl (config : Config) : SameBesidesPeers config config := ⟨rfl, rfl⟩

theorem SameBesidesPeers.trans {first second third : Config} (before : SameBesidesPeers first second)
    (after : SameBesidesPeers second third) : SameBesidesPeers first third :=
  ⟨after.communities.trans before.communities, after.pools.trans before.pools⟩

/-- An edit of a configuration that leaves all but the peers alone, and says so if it has
changed nothing. -/
structure EditsPeers (original : Config) (edited : Edited) : Prop where
  same : SameBesidesPeers original edited.config
  idle : edited.changed = false → edited.config = original

theorem EditsPeers.refl (config : Config) : EditsPeers config ⟨config, false⟩ := ⟨.refl config, fun _ => rfl⟩

theorem sameElements_iff {α : Type} [BEq α] [LawfulBEq α] {left right : List α} :
    sameElements left right = true ↔ ∀ element, element ∈ left ↔ element ∈ right := by
  simp only [sameElements, Bool.and_eq_true, List.all_eq_true, List.contains_iff_mem]
  constructor
  · rintro ⟨forth, back⟩ element
    exact ⟨forth element, back element⟩
  · intro same
    exact ⟨fun element => (same element).mp, fun element => (same element).mpr⟩

theorem get_ofHostname (node : String) : (NodeSelector.ofHostname node).labels.get? hostnameLabel = some node :=
  Dict.get?_insert _ hostnameLabel node

theorem ofHostname_inj {node other : String} : NodeSelector.ofHostname node = NodeSelector.ofHostname other ↔ node = other := by
  constructor
  · intro same
    have labels := get_ofHostname node
    rw [same, get_ofHostname] at labels
    exact (Option.some.inj labels).symm
  · exact congrArg NodeSelector.ofHostname

/-- A peer with the selector of a node names the node. -/
theorem mem_hostnames {peer : Peer} {node : String} (holds : peer.hasSelectors [.ofHostname node] = true) :
    node ∈ peer.hostnames := by
  have member := (sameElements_iff.mp holds (.ofHostname node)).mpr (List.mem_singleton.mpr rfl)
  exact List.mem_filterMap.mpr ⟨_, member, get_ofHostname node⟩

section

variable (settings : Settings)

theorem hostnames_peerOf (node address : String) : (settings.peerOf node address).hostnames = [node] := by
  simp [Settings.peerOf, Peer.hostnames, get_ofHostname]

theorem peerOf_hasSelectors {node other address : String} :
    (settings.peerOf other address).hasSelectors [.ofHostname node] = true ↔ other = node := by
  have selectors : (settings.peerOf other address).selectors = [.ofHostname other] := rfl
  rw [Peer.hasSelectors, selectors, sameElements_iff]
  simp only [List.mem_singleton]
  constructor
  · intro same
    exact ofHostname_inj.mp ((same _).mp rfl)
  · rintro rfl
    exact fun _ => Iff.rfl

/-- A configuration after a peer of a node was added to it, for one address. -/
def withPeer (edited : Edited) (pair : String × String) : Edited :=
  let step := edited.config.addPeer (settings.peerOf pair.1 pair.2)
  ⟨step.config, edited.changed || step.changed⟩

/-- A configuration after peers were added to it, for nodes with an address each. -/
def withPeers (edited : Edited) (pairs : List (String × String)) : Edited := pairs.foldl (withPeer settings) edited

theorem withPeer_edits {original : Config} {edited : Edited} (edits : EditsPeers original edited) (pair : String × String) :
    EditsPeers original (withPeer settings edited pair) := by
  unfold withPeer Config.addPeer
  split
  · exact ⟨edits.same, fun idle => edits.idle (by simpa using idle)⟩
  · exact ⟨edits.same.trans ⟨rfl, rfl⟩, by simp⟩

theorem withPeers_edits {original : Config} {edited : Edited} (edits : EditsPeers original edited)
    (pairs : List (String × String)) : EditsPeers original (withPeers settings edited pairs) := by
  induction pairs generalizing edited with
  | nil => exact edits
  | cons pair rest ih => exact ih (withPeer_edits settings edits pair)

/-- What was changed has more peers than before. -/
theorem withPeers_grows (edited : Edited) (pairs : List (String × String)) :
    edited.config.peers.length ≤ (withPeers settings edited pairs).config.peers.length ∧
      ((withPeers settings edited pairs).changed = true →
        edited.changed = true ∨ edited.config.peers.length < (withPeers settings edited pairs).config.peers.length) := by
  induction pairs generalizing edited with
  | nil => exact ⟨Nat.le_refl _, .inl⟩
  | cons pair rest ih =>
    obtain ⟨longer, told⟩ := ih (withPeer settings edited pair)
    have here : edited.config.peers.length ≤ (withPeer settings edited pair).config.peers.length ∧
        ((withPeer settings edited pair).changed = true →
          edited.changed = true ∨ edited.config.peers.length < (withPeer settings edited pair).config.peers.length) := by
      unfold withPeer Config.addPeer
      split
      · exact ⟨Nat.le_refl _, by simp⟩
      · simp
    refine ⟨Nat.le_trans here.1 longer, fun changed => ?_⟩
    rcases told changed with before | grown
    · exact (here.2 before).imp_right fun grown => Nat.lt_of_lt_of_le grown longer
    · exact .inr (Nat.lt_of_le_of_lt here.1 grown)

theorem mem_withPeers {edited : Edited} {pairs : List (String × String)} {peer : Peer}
    (member : peer ∈ (withPeers settings edited pairs).config.peers) :
    peer ∈ edited.config.peers ∨ ∃ pair ∈ pairs, peer = settings.peerOf pair.1 pair.2 := by
  induction pairs generalizing edited with
  | nil => exact .inl member
  | cons pair rest ih =>
    rcases ih member with earlier | ⟨other, inside, same⟩
    · unfold withPeer Config.addPeer at earlier
      split at earlier
      · exact .inl earlier
      · rcases List.mem_append.mp earlier with before | added
        · exact .inl before
        · exact .inr ⟨pair, List.mem_cons_self .., List.mem_singleton.mp added⟩
    · exact .inr ⟨other, List.mem_cons_of_mem _ inside, same⟩

theorem addPeer_hasPeer (config : Config) (peer : Peer) : (config.addPeer peer).config.hasPeer peer.address peer.selectors = true := by
  unfold Config.addPeer
  split
  next known => exact known
  next =>
    have same : peer.hasSelectors peer.selectors = true := sameElements_iff.mpr fun _ => Iff.rfl
    simp [Config.hasPeer, same]

theorem addPeer_keeps {config : Config} {address : String} {selectors : List NodeSelector}
    (known : config.hasPeer address selectors = true) (peer : Peer) :
    (config.addPeer peer).config.hasPeer address selectors = true := by
  unfold Config.addPeer
  split
  · exact known
  · rw [Config.hasPeer] at known ⊢
    rw [List.any_append, known, Bool.true_or]

theorem withPeers_keeps {edited : Edited} {address : String} {selectors : List NodeSelector}
    (known : edited.config.hasPeer address selectors = true) (pairs : List (String × String)) :
    (withPeers settings edited pairs).config.hasPeer address selectors = true := by
  induction pairs generalizing edited with
  | nil => exact known
  | cons pair rest ih => exact ih (addPeer_keeps known _)

theorem withPeers_has (edited : Edited) {pairs : List (String × String)} {pair : String × String} (member : pair ∈ pairs) :
    (withPeers settings edited pairs).config.hasPeer pair.2 [.ofHostname pair.1] = true := by
  induction pairs generalizing edited with
  | nil => exact absurd member List.not_mem_nil
  | cons first rest ih =>
    rcases List.mem_cons.mp member with rfl | later
    · have here : (withPeer settings edited pair).config.hasPeer pair.2 [.ofHostname pair.1] = true :=
        addPeer_hasPeer edited.config (settings.peerOf pair.1 pair.2)
      exact withPeers_keeps settings here rest
    · exact ih _ later

/-- Where all are known, nothing changes. -/
theorem withPeers_idle {edited : Edited} {pairs : List (String × String)}
    (known : ∀ pair ∈ pairs, edited.config.hasPeer pair.2 [.ofHostname pair.1] = true) :
    withPeers settings edited pairs = edited := by
  induction pairs with
  | nil => rfl
  | cons pair rest ih =>
    have here : withPeer settings edited pair = edited := by
      have selectors : (settings.peerOf pair.1 pair.2).selectors = [.ofHostname pair.1] := rfl
      have found := known pair (List.mem_cons_self ..)
      unfold withPeer Config.addPeer
      rw [selectors, if_pos (by exact found)]
      exact congrArg (Edited.mk edited.config) (Bool.or_false _)
    rw [withPeers, List.foldl_cons, here]
    exact ih fun other member => known other (List.mem_cons_of_mem _ member)

theorem addPeer_only {config : Config} {peer : Peer} {address : String} {selectors : List NodeSelector}
    (known : (config.addPeer peer).config.hasPeer address selectors = true) :
    config.hasPeer address selectors = true ∨ peer.address = address ∧ peer.hasSelectors selectors = true := by
  unfold Config.addPeer at known
  split at known
  · exact .inl known
  · rw [Config.hasPeer] at known ⊢
    rw [List.any_append, Bool.or_eq_true] at known
    simpa only [List.any_cons, List.any_nil, Bool.or_false, Bool.and_eq_true, beq_iff_eq] using known

theorem withPeers_only {edited : Edited} {pairs : List (String × String)} {name address : String}
    (known : (withPeers settings edited pairs).config.hasPeer address [.ofHostname name] = true) :
    edited.config.hasPeer address [.ofHostname name] = true ∨ (name, address) ∈ pairs := by
  induction pairs generalizing edited with
  | nil => exact .inl known
  | cons pair rest ih =>
    rcases ih known with earlier | later
    · rcases addPeer_only earlier with before | ⟨reached, selects⟩
      · exact .inl before
      · have here : pair = (name, address) := Prod.ext ((peerOf_hasSelectors settings).mp selects) reached
        exact .inr (here ▸ List.mem_cons_self ..)
    · exact .inr (List.mem_cons_of_mem _ later)

theorem withPeers_hasPeer_iff {edited : Edited} {pairs : List (String × String)} {pair : String × String} :
    (withPeers settings edited pairs).config.hasPeer pair.2 [.ofHostname pair.1] = true ↔
      edited.config.hasPeer pair.2 [.ofHostname pair.1] = true ∨ pair ∈ pairs := by
  constructor
  · exact withPeers_only settings
  · rintro (known | member)
    · exact withPeers_keeps settings known pairs
    · exact withPeers_has settings edited member

/-- Each pair for which there was no peer before adds one at the end, where it comes up first. -/
theorem withPeers_peers (edited : Edited) (pairs : List (String × String)) :
    (withPeers settings edited pairs).config.peers = edited.config.peers ++
      (pairs.filter fun pair => !edited.config.hasPeer pair.2 [.ofHostname pair.1]).eraseDups.map fun pair =>
        settings.peerOf pair.1 pair.2 := by
  induction pairs using List.reverseRecOn with
  | nil => exact (List.append_nil _).symm
  | append_singleton pairs pair ih =>
    have known := @withPeers_hasPeer_iff settings edited pairs pair
    rw [withPeers, List.foldl_append, List.foldl_cons, List.foldl_nil, ← withPeers, List.filter_append]
    generalize withPeers settings edited pairs = added at ih known
    have selectors : (settings.peerOf pair.1 pair.2).selectors = [.ofHostname pair.1] := rfl
    unfold withPeer Config.addPeer
    rw [selectors]
    change (ite (added.config.hasPeer pair.2 _ = true) _ _ : Edited).config.peers = _
    by_cases before : edited.config.hasPeer pair.2 [.ofHostname pair.1] = true
    · rw [if_pos (known.mpr (.inl before)), List.filter_cons_of_neg (by simp [before])]
      simp [ih]
    · rw [List.filter_cons_of_pos (by simp [before]), List.filter_nil, eraseDups_concat]
      by_cases repeated : pair ∈ pairs
      · rw [if_pos (known.mpr (.inr repeated))]
        simp [ih, before, repeated]
      · rw [if_neg (mt known.mp (not_or.mpr ⟨before, repeated⟩))]
        simp [ih, before, repeated]

/-- Where no peer names the nodes, all pairs are new. -/
theorem withPeers_apart {edited : Edited} {pairs : List (String × String)}
    (apart : ∀ pair ∈ pairs, ∀ peer ∈ edited.config.peers, pair.1 ∉ peer.hostnames) :
    (withPeers settings edited pairs).config.peers =
      edited.config.peers ++ pairs.eraseDups.map fun pair => settings.peerOf pair.1 pair.2 := by
  have new : (pairs.filter fun pair => !edited.config.hasPeer pair.2 [.ofHostname pair.1]) = pairs := by
    rw [List.filter_eq_self]
    intro pair member
    rw [Bool.not_eq_true', Bool.eq_false_iff]
    intro known
    obtain ⟨peer, inside, holds⟩ := List.any_eq_true.mp known
    exact apart pair member peer inside (mem_hostnames (Bool.and_eq_true_iff.mp holds).2)
  rw [withPeers_peers, new]

end

/-- A peer that is scoped to one node by name is gone if the node is not listed. -/
theorem retainNodes_only {config : Config} {name address : String} {names : List String}
    (known : (config.retainNodes names).config.hasPeer address [.ofHostname name] = true) : name ∈ names := by
  obtain ⟨peer, member, holds⟩ := List.any_eq_true.mp known
  have named := List.all_eq_true.mp (List.mem_filter.mp member).2 name (mem_hostnames (Bool.and_eq_true_iff.mp holds).2)
  exact List.contains_iff_mem.mp named

/-- A peer that is scoped to one node by name stays as long as the node is listed. -/
theorem retainNodes_keeps {config : Config} {name address : String} {names : List String} (listed : name ∈ names)
    (known : config.hasPeer address [.ofHostname name] = true) :
    (config.retainNodes names).config.hasPeer address [.ofHostname name] = true := by
  obtain ⟨peer, member, holds⟩ := List.any_eq_true.mp known
  obtain ⟨_, selects⟩ := Bool.and_eq_true_iff.mp holds
  have named : peer.hostnames.all names.contains = true := by
    rw [List.all_eq_true]
    intro hostname inside
    obtain ⟨selector, given, label⟩ := List.mem_filterMap.mp inside
    rw [List.mem_singleton.mp ((sameElements_iff.mp selects selector).mp given), get_ofHostname] at label
    exact List.contains_iff_mem.mpr (Option.some.inj label ▸ listed)
  exact List.any_eq_true.mpr ⟨peer, List.mem_filter.mpr ⟨member, named⟩, holds⟩

theorem filterPeers_edits (config : Config) (keep : Peer → Bool) : EditsPeers config (config.filterPeers keep) := by
  refine ⟨⟨rfl, rfl⟩, ?_⟩
  intro idle
  have all : (config.peers.filter keep).length = config.peers.length := by simpa [Config.filterPeers] using idle
  have kept : config.peers.filter keep = config.peers :=
    List.filter_eq_self.mpr (List.length_filter_eq_length_iff.mp all)
  simp only [Config.filterPeers, kept]

theorem filterPeers_shrinks (config : Config) (keep : Peer → Bool) :
    (config.filterPeers keep).config.peers.length ≤ config.peers.length ∧
      ((config.filterPeers keep).changed = true → (config.filterPeers keep).config.peers.length < config.peers.length) := by
  have shorter : (config.peers.filter keep).length ≤ config.peers.length := List.length_filter_le ..
  refine ⟨shorter, fun changed => ?_⟩
  have differs : (config.peers.filter keep).length ≠ config.peers.length := by simpa [Config.filterPeers] using changed
  exact Nat.lt_of_le_of_ne shorter differs

/-- Only a filter that some peer fails changes anything. -/
theorem filterPeers_changed {config : Config} {keep : Peer → Bool} (changed : (config.filterPeers keep).changed = true) :
    ∃ peer ∈ config.peers, keep peer = false := by
  have shorter := (filterPeers_shrinks config keep).2 changed
  obtain ⟨peer, member, fails⟩ := List.length_filter_lt_length_iff_exists.mp shorter
  exact ⟨peer, member, by simpa using fails⟩

/-- A configuration after the peers of a node were removed from it. -/
def withoutNode (edited : Edited) (name : String) : Edited :=
  let step := edited.config.removePeers (.ofHostname name)
  ⟨step.config, edited.changed || step.changed⟩

def withoutNodes (edited : Edited) (names : List String) : Edited := names.foldl withoutNode edited

theorem withoutNodes_edits {original : Config} {edited : Edited} (edits : EditsPeers original edited) (names : List String) :
    EditsPeers original (withoutNodes edited names) := by
  induction names generalizing edited with
  | nil => exact edits
  | cons name rest ih =>
    have step : EditsPeers edited.config (edited.config.removePeers (.ofHostname name)) := filterPeers_edits edited.config _
    refine ih ⟨edits.same.trans step.same, fun idle => ?_⟩
    obtain ⟨before, here⟩ := Bool.or_eq_false_iff.mp idle
    exact (step.idle here).trans (edits.idle before)

/-- What was changed has fewer peers than before. -/
theorem withoutNodes_shrinks (edited : Edited) (names : List String) :
    (withoutNodes edited names).config.peers.length ≤ edited.config.peers.length ∧
      ((withoutNodes edited names).changed = true →
        edited.changed = true ∨ (withoutNodes edited names).config.peers.length < edited.config.peers.length) := by
  induction names generalizing edited with
  | nil => exact ⟨Nat.le_refl _, .inl⟩
  | cons name rest ih =>
    obtain ⟨shorter, told⟩ := ih (withoutNode edited name)
    obtain ⟨less, here⟩ := filterPeers_shrinks edited.config fun peer => !peer.hasSelectors [.ofHostname name]
    refine ⟨Nat.le_trans shorter less, fun changed => ?_⟩
    rcases told changed with before | shrunk
    · exact (Bool.or_eq_true_iff.mp before).imp_right fun changed => Nat.lt_of_le_of_lt shorter (here changed)
    · exact .inr (Nat.lt_of_lt_of_le shrunk less)

/-- A peer that is scoped to one node by name stays if other nodes are removed. -/
theorem withoutNodes_keeps {edited : Edited} {name address : String} {names : List String} (other : name ∉ names)
    (known : edited.config.hasPeer address [.ofHostname name] = true) :
    (withoutNodes edited names).config.hasPeer address [.ofHostname name] = true := by
  induction names generalizing edited with
  | nil => exact known
  | cons first rest ih =>
    obtain ⟨differs, other⟩ := not_or.mp (mt List.mem_cons.mpr other)
    refine ih other ?_
    obtain ⟨peer, member, holds⟩ := List.any_eq_true.mp known
    refine List.any_eq_true.mpr ⟨peer, List.mem_filter.mpr ⟨member, ?_⟩, holds⟩
    rw [Bool.not_eq_true']
    refine Bool.eq_false_iff.mpr fun first_too => differs ?_
    have selects := (Bool.and_eq_true_iff.mp holds).2
    have both := (sameElements_iff.mp selects (.ofHostname name)).mpr (List.mem_singleton.mpr rfl)
    exact ofHostname_inj.mp (List.mem_singleton.mp ((sameElements_iff.mp first_too _).mp both))

theorem mem_nodeNames {config : Config} {name : String} :
    name ∈ config.nodeNames ↔ ∃ peer ∈ config.peers, name ∈ peer.hostnames := by
  rw [Config.nodeNames, List.mem_eraseDups, List.mem_flatMap]

end PeerPool.Proofs.PeerEdits
