import PeerPool.Proofs.JsonText
import PeerPool.Proofs.NodeEdits

/-! What the log of a pass over nodes tells of the password that peers are given. Nothing that a
pass decides depends on the password, so neither does what it says about its decisions. But a
configuration that has changed is logged in full, with the passwords of its peers. -/

namespace PeerPool.Proofs.LoggedPasswords
open PassLogic PassCalls PassPeers PeerEdits PeersSynchronized Cluster Simulation

variable {σ α β : Type} (answer : Answers σ) (state : σ)

/-- The lines of the log that a program writes. -/
def lines (program : Program Call.Answer α) : List (Level × String) :=
  (program.trace answer state).events.filterMap fun
    | .said level text => some (level, text)
    | .asked _ => none

/-- The lines of the log that a pass writes, at all levels. -/
def spoken (pass : Pass α) : List (Level × String) := lines answer state pass.run

/-- The patches that are asked for. -/
def patches (calls : List (σ × Call)) : List Json :=
  calls.filterMap fun
    | (_, .patchDocument _ patch) => some patch
    | _ => none

theorem patches_ofKind (calls : List (σ × Call)) : patches (ofKind .patch calls) = patches calls := by
  rw [patches, patches, ofKind, List.filterMap_filter]
  apply List.filterMap_congr
  rintro ⟨_, call⟩ _
  cases call <;> rfl

/-- A part that asks for none leaves all patches to what follows. -/
theorem patches_bind {kinds : List Kind} {pass : Pass α} (makes : Makes kinds pass) (other : .patch ∉ kinds) (next : α → Pass β) :
    patches (made answer state (pass >>= next)) =
      match effect answer state pass with
      | (.ok value, after) => patches (made answer after (next value))
      | (.error _, _) => [] := by
  rw [← patches_ofKind, makes.ofKind_bind other]
  generalize effect answer state pass = result
  obtain ⟨error | value, after⟩ := result
  · rfl
  · exact patches_ofKind _

theorem lines_bind (next : α → Program Call.Answer β) (program : Program Call.Answer α) :
    lines answer state (program.bind next) = lines answer state program ++
      lines answer (program.trace answer state).state (next (program.trace answer state).value) := by
  induction program generalizing state with
  | done => rfl
  | say level text rest ih => exact congrArg ((level, text) :: ·) (ih state)
  | ask call rest ih => exact ih _ _

theorem spoken_bind (pass : Pass α) (next : α → Pass β) :
    spoken answer state (pass >>= next) = spoken answer state pass ++
      match effect answer state pass with
      | (.ok value, after) => spoken answer after (next value)
      | (.error _, _) => [] := by
  rw [spoken, run_bind, lines_bind]
  simp only [effect, spoken]
  split <;> simp_all [lines, Program.trace]

theorem spoken_say_bind (level : Level) (text : String) (next : Unit → Pass β) :
    spoken answer state (Pass.say level text >>= next) = (level, text) :: spoken answer state (next ()) := rfl

theorem spoken_ask_bind (call : Call) (next : call.Answer → Pass β) : spoken answer state (Pass.ask call >>= next) =
    spoken answer (answer state call).2 (next (answer state call).1) := rfl

theorem spoken_check {ε : Type} (wrap : ε → PassError) (result : Except ε α) :
    spoken answer state (Pass.check wrap result) = [] := by
  cases result <;> rfl

theorem spoken_save (name : String) (config : Config) : spoken answer state (Pass.save name config) =
    [(.info, s!"Patching load balancer configuration in '{name}'..."), (.debug, (configPatch config.write).write)] := by
  unfold Pass.save Pass.info Pass.debug
  rw [spoken_say_bind, spoken_say_bind, spoken_ask_bind, spoken_check]

/-- A patch tells the configuration that it holds. -/
theorem configPatch_inj {config other : Config} (same : (configPatch config.write).write = (configPatch other.write).write) :
    config = other := by
  have readable (text : String) : JsonText.Readable Json.depthLimit (configPatch text) := by
    simp [configPatch, Json.depthLimit, JsonText.Readable]
  have patch := congrArg Json.read? same
  rw [JsonText.read_write (readable _), JsonText.read_write (readable _)] at patch
  have text : config.write = other.write := by simpa [configPatch] using patch
  have read := congrArg Config.read text
  rw [ConfigRoundTrip.read_write, ConfigRoundTrip.read_write] at read
  exact Except.ok.inj read

/-- Edits cannot tell the configurations apart by the peers that they have. -/
def Alike (first second : Config) : Prop := ∀ address selectors, first.hasPeer address selectors = second.hasPeer address selectors

section

variable (settings other : Settings)

theorem addPeer_alike {first second : Config} (alike : Alike first second) (node address : String) :
    let one := first.addPeer (settings.peerOf node address)
    let two := second.addPeer (other.peerOf node address)
    one.changed = two.changed ∧ Alike one.config two.config := by
  have known : first.hasPeer (settings.peerOf node address).address (settings.peerOf node address).selectors =
      second.hasPeer (other.peerOf node address).address (other.peerOf node address).selectors :=
    alike address [.ofHostname node]
  simp only [Config.addPeer, known]
  split
  · exact ⟨rfl, alike⟩
  · refine ⟨rfl, fun wanted selectors => ?_⟩
    have before := alike wanted selectors
    unfold Config.hasPeer at before ⊢
    rw [List.any_append, List.any_append, before]
    rfl

variable {first second : Edited} (alike : Alike first.config second.config)
include alike

theorem withPeers_alike (pairs : List (String × String)) :
    Alike (withPeers settings first pairs).config (withPeers other second pairs).config := by
  induction pairs generalizing first second with
  | nil => exact alike
  | cons pair rest ih => exact ih (addPeer_alike settings other alike pair.1 pair.2).2

theorem spoken_addPeers (node : String) (addresses : List String) :
    spoken answer state (Pass.addPeers settings node first addresses) =
      spoken answer state (Pass.addPeers other node second addresses) := by
  induction addresses generalizing first second with
  | nil => rfl
  | cons address rest ih =>
    obtain ⟨told, later⟩ := addPeer_alike settings other alike node address
    rw [Pass.addPeers, Pass.addPeers]
    simp only [told]
    split
    · exact congrArg (_ :: ·) (ih later)
    · exact ih later

theorem spoken_addNodes (nodes : List PeeringNode) :
    spoken answer state (Pass.addNodes settings first nodes) = spoken answer state (Pass.addNodes other second nodes) := by
  induction nodes generalizing state first second with
  | nil => rfl
  | cons node rest ih =>
    rw [Pass.addNodes, Pass.addNodes, spoken_ask_bind, spoken_ask_bind]
    generalize answer state (.resolvePeers node.providerId) = reply
    obtain ⟨error | addresses, between⟩ := reply
    · exact congrArg (_ :: ·) (ih between alike)
    · cases addresses with
      | nil => exact congrArg (_ :: ·) (ih between alike)
      | cons address others =>
        simp only [spoken_bind, effect_addPeers]
        rw [spoken_addPeers answer between settings other alike]
        exact congrArg _ (ih between (withPeers_alike settings other alike _))

end

/-- Settings with another password. -/
def withPassword (settings : Settings) (password : String) : Settings := { settings with bgpPassword := some password }

/-- A configuration with peers to come: those that are kept as they are, and those that are added, each by its node and its
address. -/
structure Draft where
  kept : Config
  added : List (String × String) := []
  changed : Bool

/-- The added peers stand behind the others, as the settings make them. -/
def Draft.config (settings : Settings) (draft : Draft) : Config :=
  { draft.kept with peers := draft.kept.peers ++ draft.added.map fun pair => settings.peerOf pair.1 pair.2 }

def Draft.edited (settings : Settings) (draft : Draft) : Edited := ⟨draft.config settings, draft.changed⟩

theorem Draft.config_kept (settings : Settings) {draft : Draft} (nothing : draft.added = []) : draft.config settings = draft.kept := by
  simp [config, nothing]

/-- The passwords of added peers are there to be read. -/
theorem Draft.config_inj {settings : Settings} {draft : Draft} {password other : String}
    (same : draft.config (withPassword settings password) = draft.config (withPassword settings other)) :
    draft.added = [] ∨ password = other := by
  have peers := List.append_cancel_left (congrArg Config.peers same)
  cases added : draft.added with
  | nil => exact .inl rfl
  | cons pair rest =>
    rw [added] at peers
    exact .inr (Option.some.inj (congrArg Peer.password (List.cons.inj peers).1))

section

variable (settings : Settings) (edited : Edited) (pairs : List (String × String))

/-- What is yet to be added of these peers. -/
def lacking : List (String × String) :=
  (pairs.filter fun pair => !edited.config.hasPeer pair.2 [.ofHostname pair.1]).eraseDups

theorem withPeers_told (before : edited.changed = true) : (withPeers settings edited pairs).changed = true := by
  induction pairs generalizing edited with
  | nil => exact before
  | cons pair rest ih => exact ih _ (by simp [withPeer, before])

theorem withPeers_changed :
    (withPeers settings edited pairs).changed = (edited.changed || !(lacking edited pairs).isEmpty) := by
  have longer := congrArg List.length (withPeers_peers settings edited pairs)
  rw [List.length_append, List.length_map, ← lacking] at longer
  rw [Bool.eq_iff_iff, Bool.or_eq_true, Bool.not_eq_true', List.isEmpty_eq_false_iff, ← List.length_pos_iff]
  constructor
  · intro changed
    exact ((withPeers_grows settings edited pairs).2 changed).imp_right (by omega)
  · rintro (before | more)
    · exact withPeers_told settings edited pairs before
    · have start : EditsPeers edited.config edited := ⟨.refl _, fun _ => rfl⟩
      by_contra unchanged
      have same := (withPeers_edits settings start pairs).idle (Bool.not_eq_true _ ▸ unchanged)
      rw [same] at longer
      omega

/-- The configuration with what is yet to be added of these peers. -/
def drafted : Draft := ⟨edited.config, lacking edited pairs, edited.changed || !(lacking edited pairs).isEmpty⟩

theorem withPeers_draft : withPeers settings edited pairs = (drafted edited pairs).edited settings := by
  have start : EditsPeers edited.config edited := ⟨.refl _, fun _ => rfl⟩
  obtain ⟨communities, pools⟩ := (withPeers_edits settings start pairs).same
  have peers := withPeers_peers settings edited pairs
  have changed := withPeers_changed settings edited pairs
  generalize withPeers settings edited pairs = result at communities pools peers changed
  obtain ⟨⟨_, _, _⟩, _⟩ := result
  cases communities
  cases pools
  cases peers
  cases changed
  rfl

end

section

variable (settings : Settings)

/-- For all passwords the same is said of an edit, and the same comes of it but for the passwords of the peers that it adds. -/
def Confined (edit : String → Pass Edited) (result : Except PassError Draft) : Prop :=
  ∃ (after : σ) (said : List (Level × String)), ∀ password,
    effect answer state (edit password) = (result.map (Draft.edited (withPassword settings password)), after) ∧
      spoken answer state (edit password) = said

theorem confined_addNodes (edited : Edited) (nodes : List PeeringNode) :
    ∃ draft, Confined answer state settings (fun password => Pass.addNodes (withPassword settings password) edited nodes)
      (.ok draft) := by
  let replies := resolved answer state nodes
  refine ⟨drafted edited (pairsOf nodes replies.1), replies.2, spoken answer state (Pass.addNodes settings edited nodes),
    fun password => ⟨?_, ?_⟩⟩
  · simp only [effect_addNodes, withPeers_draft]
    rfl
  · exact spoken_addNodes answer state _ _ (fun _ _ => rfl) nodes

theorem confined_syncNodes (loaded : Config) (nodes : List PeeringNode) :
    ∃ draft, Confined answer state settings (fun password => Pass.syncNodes (withPassword settings password) loaded nodes)
      (.ok draft) := by
  let kept := loaded.retainNodes (nodes.map (·.name))
  obtain ⟨draft, after, said, same⟩ :=
    confined_addNodes answer state settings kept (nodes.filter (!kept.config.nodeNames.contains ·.name))
  refine ⟨draft, after, if kept.changed then (.info, "Removed peers of stale nodes") :: said else said, fun password => ?_⟩
  obtain ⟨adds, speaks⟩ := same password
  unfold Pass.syncNodes
  simp only
  split
  · exact ⟨adds, congrArg (_ :: ·) speaks⟩
  · exact ⟨adds, speaks⟩

/-- The choice of the nodes does not depend on the password. -/
theorem confined_chosen {batch : List Node} {next : String → List PeeringNode → Pass Edited}
    (later : ∀ selected, ∃ draft, Confined answer state settings (next · selected) (.ok draft)) :
    ∃ result, Confined answer state settings
      (fun password => Pass.peeringNodes settings.nodeSelector batch >>= next password) result := by
  obtain ⟨chosen, chooses, _, _⟩ := effect_peeringNodes answer state settings.nodeSelector batch
  cases chosen with
  | error error =>
    refine ⟨.error error, state, spoken answer state (Pass.peeringNodes settings.nodeSelector batch), fun password => ?_⟩
    rw [effect_bind, spoken_bind, chooses]
    exact ⟨rfl, List.append_nil _⟩
  | ok selected =>
    obtain ⟨draft, after, said, same⟩ := later selected
    refine ⟨.ok draft, after, spoken answer state (Pass.peeringNodes settings.nodeSelector batch) ++ said, fun password => ?_⟩
    rw [effect_bind, spoken_bind, chooses]
    exact ⟨(same password).1, congrArg _ (same password).2⟩

theorem confined_editForNodes (mode : Mode) (loaded : Config) (batch : List Node) :
    ∃ result, Confined answer state settings
        (fun password => Pass.editForNodes (withPassword settings password) mode loaded batch) result ∧
      (mode = .remove → ∀ draft, result = .ok draft → draft.added = []) := by
  cases mode with
  | remove =>
    obtain ⟨removed, removes, _⟩ := effect_removeNodes answer state ⟨loaded, false⟩ batch
    refine ⟨removed.map fun edited => ⟨edited.config, [], edited.changed⟩, ?_, ?_⟩
    · refine ⟨state, spoken answer state (Pass.removeNodes ⟨loaded, false⟩ batch), fun password => ⟨removes.trans ?_, rfl⟩⟩
      cases removed with
      | error error => rfl
      | ok edited => simp [Except.map, Draft.edited, Draft.config]
    · rintro _ draft same
      cases removed <;> cases same
      rfl
  | add =>
    obtain ⟨result, same⟩ := confined_chosen answer state settings (confined_addNodes answer state settings ⟨loaded, false⟩)
    exact ⟨result, same, fun other => by cases other⟩
  | sync =>
    obtain ⟨result, same⟩ := confined_chosen answer state settings (confined_syncNodes answer state settings loaded)
    exact ⟨result, same, fun other => by cases other⟩

end

/-- The patch that puts a configuration in the place of the stored one. -/
def Draft.patch (settings : Settings) (draft : Draft) : Json := configPatch (draft.config settings).write

/-- What is said before a configuration is written back, or instead. -/
def announced (name : String) (draft : Draft) : List (Level × String) :=
  if draft.changed then [(.info, s!"Patching load balancer configuration in '{name}'...")]
  else [(.debug, "Node peers unchanged, skipping the update...")]

theorem spoken_writeBack (settings : Settings) (name : String) (draft : Draft) :
    spoken answer state (writeBack name (draft.edited settings)) = announced name draft ++
      (if draft.changed then some draft else none).toList.map fun draft => (.debug, (draft.patch settings).write) := by
  unfold writeBack announced Draft.edited
  split
  · exact spoken_save ..
  · rfl

theorem patches_writeBack (settings : Settings) (name : String) (draft : Draft) :
    patches (made answer state (writeBack name (draft.edited settings))) =
      (if draft.changed then some draft else none).toList.map (·.patch settings) := by
  rw [made_writeBack]
  unfold Draft.edited
  split <;> rfl

section

variable (settings : Settings)

/-- For all passwords the same is said, and then what is written of a draft, if anything is. -/
def Tells (fits : Draft → Prop) (pass : String → Pass Unit) : Prop :=
  ∃ (said : List (Level × String)) (written : Option Draft), (∀ draft ∈ written, fits draft) ∧ ∀ password,
    let settings := withPassword settings password
    spoken answer state (pass password) = said ++ written.toList.map (fun draft => (.debug, (draft.patch settings).write)) ∧
      patches (made answer state (pass password)) = written.toList.map (·.patch settings)

variable {answer state settings} {fits : Draft → Prop}

theorem Tells.bind {kinds : List Kind} {pass : Pass α} {next : String → α → Pass Unit} (makes : Makes kinds pass)
    (other : .patch ∉ kinds)
    (later : ∀ value after, effect answer state pass = (.ok value, after) → Tells answer after settings fits (next · value)) :
    Tells answer state settings fits fun password => pass >>= next password := by
  cases ran : effect answer state pass with
  | mk result after =>
  cases result with
  | error error =>
    refine ⟨spoken answer state pass, none, by simp, fun password => ?_⟩
    rw [spoken_bind, patches_bind answer state makes other, ran]
    exact ⟨rfl, rfl⟩
  | ok value =>
    obtain ⟨said, written, fit, tells⟩ := later value after ran
    refine ⟨spoken answer state pass ++ said, written, fit, fun password => ?_⟩
    obtain ⟨speaks, patched⟩ := tells password
    rw [spoken_bind, patches_bind answer state makes other, ran]
    simp only
    rw [speaks, patched, List.append_assoc]
    exact ⟨rfl, rfl⟩

/-- Of an edit that differs in the passwords only, no more than that shows when it is written back. -/
theorem Confined.tells {kinds : List Kind} {edit : String → Pass Edited} {result : Except PassError Draft}
    (confined : Confined answer state settings edit result) (makes : ∀ password, Makes kinds (edit password))
    (other : .patch ∉ kinds) (fit : ∀ draft, result = .ok draft → fits draft) (name : String) :
    Tells answer state settings fits fun password => edit password >>= writeBack name := by
  obtain ⟨after, said, same⟩ := confined
  cases result with
  | error error =>
    refine ⟨said, none, by simp, fun password => ?_⟩
    obtain ⟨edits, speaks⟩ := same password
    rw [spoken_bind, patches_bind answer state (makes password) other, edits, speaks]
    exact ⟨rfl, rfl⟩
  | ok draft =>
    refine ⟨said ++ announced name draft, if draft.changed then some draft else none, ?_, fun password => ?_⟩
    · intro written member
      split at member
      · cases member
        exact fit draft rfl
      · cases member
    · obtain ⟨edits, speaks⟩ := same password
      rw [spoken_bind, patches_bind answer state (makes password) other, edits, speaks]
      simp only [Except.map]
      rw [spoken_writeBack, patches_writeBack, List.append_assoc]
      exact ⟨rfl, rfl⟩

end

theorem tells_nodes (settings : Settings) (mode : Mode) (batch : List Node) :
    Tells answer state settings (fun draft => mode = .remove → draft.added = [])
      fun password => Pass.nodes (withPassword settings password) mode batch := by
  cases located : settings.location with
  | none =>
    refine ⟨spoken answer state (Pass.nodes settings mode batch), none, by simp, fun password => ?_⟩
    unfold Pass.nodes withPassword
    rw [located]
    exact ⟨rfl, rfl⟩
  | some location =>
    have located (password : String) : (withPassword settings password).location = some location := located
    simp only [nodes_eq (located _)]
    refine .bind (.say _ _ : Makes [] _) (by decide) fun _ started _ => ?_
    refine .bind (makes_load (List.mem_singleton.mpr rfl) _) (by decide) fun loaded opened _ => ?_
    obtain ⟨result, confined, fit⟩ := confined_editForNodes answer opened settings mode loaded batch
    have edits (password : String) : Makes [.resolve] (Pass.editForNodes (withPassword settings password) mode loaded batch) :=
      makes_editForNodes _ (by decide) mode loaded batch
    exact confined.tells edits (by decide) (fun draft ok remove => fit remove draft ok) location.name

/-- What a pass over nodes says does not depend on the password, up to the line that shows the patch it asks for, if it asks for
one. That line holds the password of each peer that the pass adds: runs with two passwords have the same log only if they
add no peer, and removals never do. -/
theorem password_confined (settings : Settings) (mode : Mode) (batch : List Node) :
    ∃ (said : List (Level × String)) (written : Option Draft),
      (∀ password,
        let settings := withPassword settings password
        let pass := Pass.nodes settings mode batch
        spoken answer state pass = said ++ (patches (made answer state pass)).map (fun patch => (.debug, patch.write)) ∧
          patches (made answer state pass) = written.toList.map (·.patch settings)) ∧
      (mode = .remove → ∀ draft ∈ written, draft.added = []) ∧
      ∀ password other, password ≠ other →
        (spoken answer state (Pass.nodes (withPassword settings password) mode batch) =
            spoken answer state (Pass.nodes (withPassword settings other) mode batch) ↔
          ∀ draft ∈ written, draft.added = []) := by
  obtain ⟨said, written, removes, tells⟩ := tells_nodes answer state settings mode batch
  refine ⟨said, written, fun password => ?_, fun remove draft member => removes draft member remove, fun password other differ => ?_⟩
  · obtain ⟨speaks, patched⟩ := tells password
    refine ⟨?_, patched⟩
    rw [speaks, patched, List.map_map]
    rfl
  · rw [(tells password).1, (tells other).1, List.append_cancel_left_eq]
    cases written with
    | none => simp
    | some draft =>
      simp only [Option.toList_some, List.map_cons, List.map_nil, List.cons.injEq, Prod.mk.injEq, true_and, and_true, Option.mem_some_iff,
        forall_eq']
      constructor
      · intro same
        exact (Draft.config_inj (configPatch_inj same)).resolve_right differ
      · intro nothing
        rw [Draft.patch, Draft.patch, Draft.config_kept _ nothing, Draft.config_kept _ nothing]

section

def peering : Settings := { apiKey := "", projectId := "" }

def unpeered : Memory where
  document := some "\x7b\x7d\n"
  routers := [("n1", some ["10.0.0.1"])]

theorem password_logged :
    spoken Memory.answer unpeered (Pass.nodes (withPassword peering "hunter2") .add [named "n1" []]) ≠
      spoken Memory.answer unpeered (Pass.nodes (withPassword peering "letmein") .add [named "n1" []]) := by
  decide +kernel

end

end PeerPool.Proofs.LoggedPasswords
