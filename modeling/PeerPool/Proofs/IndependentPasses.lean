import PeerPool.Proofs.GraftedEdits
import PeerPool.Proofs.SeparateWorlds

/-! Passes over nodes and passes over services do not get in each other's way. Each goes by its own
part of the configuration and of the world and leaves the rest as it found it, so it comes to the
same before the other one and after it, and the two leave the same behind in either order. -/

namespace PeerPool.Proofs.IndependentPasses
open PassLogic PassDocument PassCalls PassServices PassPeers PeerEdits PoolEdits WrittenOnce GraftedEdits SeparateWorlds Provider Cluster

variable {σ κ ρ τ : Type} {answer : Answers σ} {name : String} {routers : σ → ρ} {stores : σ → τ} {view : σ → κ}
  {settings : Settings} {mode : Mode} {first second state : σ}

def carryDraft (graft : Config → Config) (draft : Draft) : Draft := ⟨draft.name, graft draft.loaded, carry graft draft.edited⟩

def carryDrafted (graft : Config → Config) : Option Draft × List Reservation → Option Draft × List Reservation :=
  Prod.map (Option.map (carryDraft graft)) id

/-- What a state shows of the document can be read. -/
structure Shows (answer : Answers σ) (name : String) (state : σ) (text : String) (config : Config) : Prop where
  shown : shown answer name state = .ok text
  read : Config.read text = .ok config

section

variable {text other : String} {config foreign : Config} (separate : Separate answer name routers stores)
  (named : ∀ location ∈ settings.location, location.name = name)
include separate named

theorem draftNodes_parallel (batch : List Node) (shows : Shows answer name first text config)
    (reshows : Shows answer name second other (graftPeers foreign config)) (same : routers second = routers first) :
    Parallel answer routers (Option.map (carryDraft (graftPeers foreign))) first second (draftNodes settings mode batch)
      (draftNodes settings mode batch) := by
  unfold draftNodes
  cases located : settings.location with
  | none => exact .pure _ none same
  | some location =>
    cases named location located
    have kept (state : σ) := separate.routers_kept state (.loadDocument location.name) (by rintro ⟨⟩)
    refine (load_parallel kept shows.shown shows.read reshows.shown reshows.read same).bind fun loaded here there _ _ agree => ?_
    rw [editForNodes_grafted]
    refine ((Parallel.agree separate.routes (makes_editForNodes settings (by decide) mode loaded batch) agree).map _).bind ?_
    exact fun edited here there _ _ agree => ⟨rfl, rfl, agree⟩

omit separate named in
theorem editForServices_same {listed orphans : List Reservation} {services : List Service} {loaded final : Config} {after : σ}
    (ok : effect answer state (editForServices settings mode listed (some loaded) services) = (.ok (some final, orphans), after)) :
    final = graftPools loaded final := by
  -- A configuration grafted onto itself is the same one.
  have grafted := editForServices_grafted loaded settings mode listed (some loaded) services
  change editForServices settings mode listed (some loaded) services = _ at grafted
  have twice := ok
  rw [grafted, effect_map, ok] at twice
  injection twice with result
  injection result with edited
  injection edited with same
  injection same with same
  exact same.symm

omit separate named in
theorem compared_grafted (location : Location) {loaded final : Config} (same : final = graftPools loaded final) :
    compared location (graftPools foreign loaded) (graftPools foreign final) = carryDraft (graftPools foreign) (compared location loaded final) := by
  have unchanged : graftPools foreign loaded = graftPools foreign final ↔ loaded = final := by
    constructor
    · intro grafted
      have pools : loaded.pools = final.pools := (Config.mk.inj grafted).2.2
      rw [same, graftPools, ← pools]
    · rintro rfl
      rfl
  simp only [compared, carryDraft, carry, ne_eq, unchanged]

theorem draftServices_parallel (batch : List Service) (shows : Shows answer name first text config)
    (reshows : Shows answer name second other (graftPools foreign config)) (same : stores second = stores first) :
    Parallel answer stores (carryDrafted (graftPools foreign)) first second (draftServices settings mode batch)
      (draftServices settings mode batch) := by
  have lists : Makes storing (Pass.listReservations settings) := makes_listReservations settings (by decide)
  have edits (listed : List Reservation) (loaded? : Option Config) (services : List Service) :
      Makes storing (editForServices settings mode listed loaded? services) :=
    makes_editForServices settings mode (by decide) (by decide) (by decide) (by decide) (by decide) listed loaded? services
  unfold draftServices
  refine (Parallel.agree separate.serves lists same).bind fun listed here there ran reran agree => ?_
  have still := lists.frame_except ran (shown answer name) (by decide) separate.keeps
  have restill := lists.frame_except reran (shown answer name) (by decide) separate.keeps
  unfold loadGiven
  cases located : settings.location with
  | none =>
    have grafted := editForServices_grafted foreign settings mode listed none (batch.filter (·.isLoadBalancer))
    change editForServices settings mode listed none _ = _ at grafted
    simp only [pure_bind, id]
    nth_rewrite 2 [grafted]
    refine ((Parallel.agree separate.serves (edits listed none _) agree).map _).bind fun edited here there _ _ agree => ?_
    simp only [draft?, located]
    exact ⟨rfl, rfl, agree⟩
  | some location =>
    cases named location located
    have other : Kind.load ∉ storing := by decide
    have kept (state : σ) := separate.stores_kept state (.loadDocument location.name) other
    simp only [map_eq_pure_bind, bind_assoc, pure_bind, id]
    refine (load_parallel kept (still.trans shows.shown) shows.read (restill.trans reshows.shown) reshows.read agree).bind ?_
    intro loaded here there _ _ agree
    have grafted := editForServices_grafted foreign settings mode listed (some loaded) (batch.filter (·.isLoadBalancer))
    change editForServices settings mode listed (some (graftPools foreign loaded)) _ = _ at grafted
    rw [grafted]
    refine ((Parallel.agree separate.serves (edits listed (some loaded) _) agree).map _).bind ?_
    rintro ⟨final?, orphans⟩ here there ran _ agree
    obtain ⟨final, last⟩ := Option.isSome_iff_exists.mp (editForServices_some ran)
    cases last
    have compares : compared location (graftPools foreign loaded) (graftPools foreign final) =
        carryDraft (graftPools foreign) (compared location loaded final) := compared_grafted location (editForServices_same ran)
    refine ⟨?_, rfl, agree⟩
    simp only [draft?, located]
    exact congrArg (fun draft => Except.ok (some draft, orphans)) compares

end

/-- A pass goes by a view of the world and by its part of the configuration, which may be grafted
onto another one. -/
structure Confined (answer : Answers σ) (name : String) (view : σ → κ) (graft : Config → Config → Config) (settings : Settings)
    (mode : Mode) (batch : Batch) : Prop where
  drafts : ∀ {first second text other config foreign}, Shows answer name first text config →
    Shows answer name second other (graft foreign config) → view second = view first →
    Parallel answer view (carryDrafted (graft foreign)) first second (drafted settings mode batch) (drafted settings mode batch)
  deletes : ∀ {first second state ready rest}, effect answer state (drafted settings mode batch) = (.ok rest, ready) →
    view second = view first → Parallel answer view id first second (Pass.deleteOrphans rest.2) (Pass.deleteOrphans rest.2)
  unwritten : ∀ state patch, view (answer state (.patchDocument name patch)).2 = view state
  own : ∀ config, graft config config = config

section

variable (separate : Separate answer name routers stores) (named : ∀ location ∈ settings.location, location.name = name)
include separate named

theorem nodes_confined (batch : List Node) : Confined answer name routers graftPeers settings mode (.nodes batch) where
  drafts shows reshows same := by
    refine (draftNodes_parallel separate named batch shows reshows same).bind ?_
    exact fun draft? here there _ _ agree => ⟨rfl, rfl, agree⟩
  deletes ran same := by
    obtain ⟨draft?, _, _, ends⟩ := (effect_bind_ok answer).mp ran
    cases ends
    exact .pure id () same
  unwritten state patch := separate.routers_kept state _ (by rintro ⟨⟩)
  own config := rfl

theorem services_confined (batch : List Service) : Confined answer name stores graftPools settings mode (.services batch) where
  drafts shows reshows same := draftServices_parallel separate named batch shows reshows same
  deletes _ same := .agree separate.serves (makes_deleteOrphans (by decide) _) same
  unwritten state patch := by
    have other : Kind.patch ∉ storing := by decide
    exact separate.stores_kept state _ other
  own config := rfl

end

/-- What the configuration is changed to by a pass that has come so far. -/
def change? : Except PassError (Option Draft × List Reservation) → Option Config
  | .ok (some draft, _) => if draft.edited.changed then some draft.edited.config else none
  | _ => none

/-- What the document shows once the configuration has been changed, if it has. -/
def written (text : String) (change? : Option Config) : String := (change?.map Config.write).getD text

theorem change?_carried (graft : Config → Config) (result : Except PassError (Option Draft × List Reservation)) :
    change? (result.map (carryDrafted graft)) = (change? result).map graft := by
  obtain error | ⟨_ | draft, orphans⟩ := result
  · rfl
  · rfl
  · change (if draft.edited.changed then some (graft draft.edited.config) else none) = Option.map graft (if draft.edited.changed then _ else _)
    split <;> rfl

theorem DraftOf.named {draft? : Option Draft} (drafted : DraftOf settings.location draft?)
    (named : ∀ location ∈ settings.location, location.name = name) : ∀ draft ∈ draft?, draft.name = name := by
  generalize settings.location = location? at drafted named
  cases drafted with
  | none =>
    rintro _ ⟨⟩
  | some name _ =>
    rintro _ ⟨⟩
    exact name.trans (named _ rfl)

theorem effect_writeDraft (accepts : Accepts answer name state) {draft : Draft} (named : draft.name = name) :
    effect answer state (writeDraft (some draft)) =
      (.ok (), if draft.edited.changed then (answer state (.patchDocument name (configPatch draft.edited.config.write))).2 else state) := by
  subst named
  rw [writeDraft]
  unfold writeBack
  split
  · rw [PassDocument.effect_save, accepts]
    rfl
  · rfl

theorem asked_writeDraft (draft? : Option Draft) : asked (made answer state (writeDraft draft?)) = [] := by
  cases draft? with
  | none => rfl
  | some draft =>
    rw [writeDraft, made_writeBack]
    split <;> rfl

section

variable {graft : Config → Config → Config} {batch : Batch} {text other : String} {config foreign : Config}

theorem writeDraft_parallel {carried : Config → Config} {draft? : Option Draft}
    (unwritten : ∀ state patch, view (answer state (.patchDocument name patch)).2 = view state)
    (accepts : Accepts answer name first) (reaccepts : Accepts answer name second) (named : ∀ draft ∈ draft?, draft.name = name)
    (same : view second = view first) :
    Parallel answer view id first second (writeDraft draft?) (writeDraft (draft?.map (carryDraft carried))) := by
  cases draft? with
  | none => exact .pure id () same
  | some draft =>
    have name := named draft rfl
    have writes := effect_writeDraft accepts name
    have renamed : (carryDraft carried draft).name = _ := name
    have rewrites := effect_writeDraft reaccepts renamed
    refine ⟨?_, (asked_writeDraft _).trans (asked_writeDraft _).symm, ?_⟩
    · rw [Option.map_some, writes, rewrites]
      rfl
    · rw [Option.map_some, writes, rewrites]
      change view (if draft.edited.changed then _ else second) = view (if draft.edited.changed then _ else first)
      by_cases changed : draft.edited.changed = true
      · rw [if_pos changed, if_pos changed, unwritten, unwritten, same]
      · rw [if_neg changed, if_neg changed, same]

variable (separate : Separate answer name routers stores) (named : ∀ location ∈ settings.location, location.name = name)
include separate

theorem accepts_kept {kinds : List Kind} {α : Type} {pass : Pass α} (makes : Makes kinds pass) (accepts : Accepts answer name state) :
    Accepts answer name (effect answer state pass).2 :=
  Makes.preserves (Prod.eta _).symm makes (Accepts answer name) (fun state call _ => separate.accepts state call) accepts

theorem finish_shows {rest : Option Draft × List Reservation} (named : ∀ draft ∈ rest.1, draft.name = name)
    (shows : Shows answer name state text config) (accepts : Accepts answer name state) :
    Shows answer name (effect answer state (finish rest)).2 (written text (change? (.ok rest)))
      ((change? (.ok rest)).getD config) := by
  have makes : Makes [.delete] (Pass.deleteOrphans rest.2) := makes_deleteOrphans (by decide) rest.2
  have deletes (between : σ) : shown answer name (effect answer between (Pass.deleteOrphans rest.2)).2 = shown answer name between :=
    makes.frame_except (Prod.eta _).symm (shown answer name) (by decide) separate.keeps
  obtain ⟨_ | draft, orphans⟩ := rest
  · exact ⟨(deletes state).trans shows.shown, shows.read⟩
  · have writes := effect_writeDraft accepts (named draft rfl)
    unfold finish
    rw [effect_then answer writes]
    change Shows answer name _ (written text (if draft.edited.changed then some draft.edited.config else none))
      ((if draft.edited.changed then some draft.edited.config else none).getD config)
    by_cases changed : draft.edited.changed = true
    · rw [if_pos changed, if_pos changed]
      refine ⟨(deletes _).trans ?_, ConfigRoundTrip.read_write draft.edited.config⟩
      exact separate.shows state text _ shows.shown (accepts _)
    · rw [if_neg changed, if_neg changed]
      exact ⟨(deletes state).trans shows.shown, shows.read⟩

include named

theorem pass_parallel (confined : Confined answer name view graft settings mode batch) (shows : Shows answer name first text config)
    (reshows : Shows answer name second other (graft foreign config)) (accepts : Accepts answer name first)
    (reaccepts : Accepts answer name second) (same : view second = view first) :
    Parallel answer view id first second (passOver settings mode batch) (passOver settings mode batch) := by
  have parts := same_drafted settings mode batch
  refine .of_same parts parts ?_
  have makes := makes_drafted settings mode batch
  refine (confined.drafts shows reshows same).bind fun rest here there ran reran agree => ?_
  have here_accepts : Accepts answer name here := by
    have kept := accepts_kept separate makes accepts
    rwa [ran] at kept
  have there_accepts : Accepts answer name there := by
    have kept := accepts_kept separate makes reaccepts
    rwa [reran] at kept
  have writes : Parallel answer view id here there (writeDraft rest.1) (writeDraft (rest.1.map (carryDraft (graft foreign)))) :=
    writeDraft_parallel confined.unwritten here_accepts there_accepts (DraftOf.named (drafted_ok ran) named) agree
  exact writes.bind fun _ here there _ _ agree => confined.deletes ran agree

theorem pass_shows (mode : Mode) (batch : Batch) (shows : Shows answer name state text config) (accepts : Accepts answer name state) :
    Shows answer name (effect answer state (passOver settings mode batch)).2
      (written text (change? (effect answer state (drafted settings mode batch)).1))
      ((change? (effect answer state (drafted settings mode batch)).1).getD config) := by
  have makes := makes_drafted settings mode batch
  have ready_accepts := accepts_kept separate makes accepts
  rw [(same_drafted settings mode batch).effect_eq answer, effect_bind]
  generalize ran : effect answer state (drafted settings mode batch) = result at ready_accepts
  have still := makes.frame_except ran (shown answer name) (by decide) separate.keeps
  obtain ⟨error | rest, ready⟩ := result
  · exact ⟨still.trans shows.shown, shows.read⟩
  · exact finish_shows separate (DraftOf.named (drafted_ok ran) named) ⟨still.trans shows.shown, shows.read⟩ ready_accepts

omit separate named in
theorem change?_grafted (confined : Confined answer name view graft settings mode batch) (shows : Shows answer name first text config)
    (reshows : Shows answer name second other (graft foreign config)) (same : view second = view first) :
    change? (effect answer second (drafted settings mode batch)).1 =
      (change? (effect answer first (drafted settings mode batch)).1).map (graft foreign) := by
  rw [(confined.drafts shows reshows same).result, change?_carried]

omit separate named in
theorem change?_own (confined : Confined answer name view graft settings mode batch) (shows : Shows answer name state text config) :
    ∀ final ∈ change? (effect answer state (drafted settings mode batch)).1, final = graft config final := by
  intro final changed
  have reshows : Shows answer name state text (graft config config) := by rwa [confined.own]
  have twice := change?_grafted confined shows reshows rfl
  rw [changed] at twice
  exact Option.some.inj twice

/-- What a pass does to a configuration with another part than it goes by. -/
theorem pass_grafted (confined : Confined answer name view graft settings mode batch) (shows : Shows answer name first text config)
    (reshows : Shows answer name second other (graft foreign config)) (accepts : Accepts answer name first)
    (reaccepts : Accepts answer name second) (same : view second = view first) :
    Parallel answer view id first second (passOver settings mode batch) (passOver settings mode batch) ∧
      Shows answer name (effect answer second (passOver settings mode batch)).2
        (written other ((change? (effect answer first (drafted settings mode batch)).1).map (graft foreign)))
        (graft foreign ((change? (effect answer first (drafted settings mode batch)).1).getD config)) := by
  refine ⟨pass_parallel separate named confined shows reshows accepts reaccepts same, ?_⟩
  have last := pass_shows separate named mode batch reshows reaccepts
  rwa [change?_grafted confined shows reshows same, Option.getD_map] at last

end

section

variable (settings) (mode)

theorem makes_services (batch : List Service) : Makes (.load :: .patch :: storing) (Pass.services settings mode batch) := by
  rw [services_eq]
  refine .bind (.say _ _) fun _ => .bind (makes_listReservations settings (by decide)) fun listed => ?_
  refine .bind (makes_loadGiven settings (by decide)) fun loaded? => ?_
  cases mode with
  | add =>
    refine .bind (makes_addServices settings (by decide) (by decide) (by decide) listed loaded? _) fun added => ?_
    exact makes_saveIfChanged settings (by decide) loaded? added.2
  | remove =>
    refine .bind (makes_removeServices settings (by decide) listed loaded? _) fun final? => ?_
    exact makes_saveIfChanged settings (by decide) loaded? final?
  | sync =>
    rw [perform, syncServices_eq]
    refine .bind (makes_addServices settings (by decide) (by decide) (by decide) listed loaded? _) fun added => ?_
    exact makes_cleanUp settings (by decide) (by decide) (by decide) loaded? _ added

end

/-- The state that a pass leaves. -/
def left (answer : Answers σ) (state : σ) (pass : Pass Unit) : σ := (effect answer state pass).2

/-- Two passes come to the same one after the other as each by itself, whichever is first. The one
changes nothing but the peers and the other nothing but the pools, and both changes last. -/
structure Independent (answer : Answers σ) (name : String) (routers : σ → ρ) (stores : σ → τ) (config : Config) (state : σ)
    (nodes services : Pass Unit) : Prop where
  nodes_result : (effect answer (left answer state services) nodes).1 = (effect answer state nodes).1
  nodes_calls : asked (made answer (left answer state services) nodes) = asked (made answer state nodes)
  services_result : (effect answer (left answer state nodes) services).1 = (effect answer state services).1
  services_calls : asked (made answer (left answer state nodes) services) = asked (made answer state services)
  routers_left : routers (left answer (left answer state nodes) services) = routers (left answer (left answer state services) nodes)
  stores_left : stores (left answer (left answer state nodes) services) = stores (left answer (left answer state services) nodes)
  document : ∃ peered pooled first second last,
    Shows answer name (left answer state nodes) first peered ∧ SameBesidesPeers config peered ∧
      Shows answer name (left answer state services) second pooled ∧ SameBesidesPools config pooled ∧
      Shows answer name (left answer (left answer state nodes) services) last (graftPeers pooled peered) ∧
      Shows answer name (left answer (left answer state services) nodes) last (graftPeers pooled peered)

section

variable {config : Config}

theorem changes_agree (text : String) {peered? pooled? : Option Config} (peers : ∀ final ∈ peered?, final = graftPeers config final)
    (pools : ∀ final ∈ pooled?, final = graftPools config final) :
    written (written text peered?) (pooled?.map (graftPools (peered?.getD config))) =
      written (written text pooled?) (peered?.map (graftPeers (pooled?.getD config))) := by
  cases peered? with
  | none =>
    cases pooled? with
    | none => rfl
    | some pooled => exact congrArg Config.write (pools pooled rfl).symm
  | some peered =>
    cases pooled? with
    | none => exact congrArg Config.write (peers peered rfl)
    | some pooled => exact congrArg Config.write (grafts_agree (peers peered rfl) (pools pooled rfl))

theorem getD_own {graft : Config → Config → Config} (own : graft config config = config) {change? : Option Config}
    (changes : ∀ final ∈ change?, final = graft config final) : change?.getD config = graft config (change?.getD config) := by
  cases change? with
  | none => exact own.symm
  | some final => exact changes final rfl

end

theorem passes_independent (separate : Separate answer name routers stores) {settings : Settings}
    (named : ∀ location ∈ settings.location, location.name = name) {text : String} {config : Config}
    (shows : Shows answer name state text config) (accepts : Accepts answer name state) (nodeMode serviceMode : Mode)
    (nodes : List Node) (services : List Service) :
    Independent answer name routers stores config state (Pass.nodes settings nodeMode nodes)
      (Pass.services settings serviceMode services) := by
  have peering : Confined answer name routers graftPeers settings nodeMode (.nodes nodes) := nodes_confined separate named nodes
  have pooling : Confined answer name stores graftPools settings serviceMode (.services services) :=
    services_confined separate named services
  have makes := makes_nodes settings nodeMode nodes
  have remakes := makes_services settings serviceMode services
  have unstored : ∀ kind ∈ [Kind.load, .resolve, .patch], kind ∉ storing := by decide
  have unrouted : ∀ kind ∈ Kind.load :: .patch :: storing, kind ≠ .resolve := by decide
  have stores_same (before : σ) : stores (left answer before (Pass.nodes settings nodeMode nodes)) = stores before :=
    makes.frame (Prod.eta _).symm stores fun state call known => separate.stores_kept state call (unstored _ known)
  have routers_same (before : σ) : routers (left answer before (Pass.services settings serviceMode services)) = routers before :=
    remakes.frame (Prod.eta _).symm routers fun state call known => separate.routers_kept state call (unrouted _ known)
  have nodes_accepts := accepts_kept separate makes accepts
  have services_accepts := accepts_kept separate remakes accepts
  have nodes_shows := pass_shows separate named nodeMode (.nodes nodes) shows accepts
  have services_shows := pass_shows separate named serviceMode (.services services) shows accepts
  have peers := change?_own peering shows
  have pools := change?_own pooling shows
  generalize changed : change? (effect answer state (drafted settings nodeMode (.nodes nodes))).1 = peered? at nodes_shows peers
  generalize rechanged : change? (effect answer state (drafted settings serviceMode (.services services))).1 = pooled? at services_shows pools
  have peered_own : peered?.getD config = graftPeers config (peered?.getD config) := getD_own rfl peers
  have pooled_own : pooled?.getD config = graftPools config (pooled?.getD config) := getD_own rfl pools
  -- What one pass leaves is what it has made of its part grafted onto what was loaded.
  have nodes_reshows := nodes_shows
  have services_reshows := services_shows
  rw [← graftPools_own peered_own] at nodes_reshows
  rw [← graftPeers_own pooled_own] at services_reshows
  obtain ⟨nodes_parallel, nodes_last⟩ :=
    pass_grafted separate named peering shows services_reshows accepts services_accepts (routers_same state)
  obtain ⟨services_parallel, services_last⟩ :=
    pass_grafted separate named pooling shows nodes_reshows accepts nodes_accepts (stores_same state)
  rw [changed, ← changes_agree text peers pools] at nodes_last
  rw [rechanged, grafts_agree peered_own pooled_own] at services_last
  exact {
    nodes_result := nodes_parallel.result.trans (congrFun Except.map_id _)
    nodes_calls := nodes_parallel.calls
    services_result := services_parallel.result.trans (congrFun Except.map_id _)
    services_calls := services_parallel.calls
    routers_left := (routers_same _).trans nodes_parallel.views.symm
    stores_left := services_parallel.views.trans (stores_same _).symm
    document := ⟨_, _, _, _, _, nodes_shows, sameBesidesPeers peered_own, services_shows, sameBesidesPools pooled_own,
      services_last, nodes_last⟩ }

section

open Simulation PeersSynchronized Sites

/-- A service waits for an address, and routers have to be found for some nodes. -/
def crowded : Memory := { routed with services := [web] }

/-- Both passes change the configuration. -/
theorem crowded_changes :
    (change? (effect Memory.answer crowded (drafted accepting .sync (.nodes workers))).1).isSome = true ∧
      (change? (effect Memory.answer crowded (drafted accepting .add (.services [web]))).1).isSome = true := by
  have located : accepting.location = some ⟨"metallb-system", "config"⟩ := rfl
  have loads (memory : Memory) (loads : memory.load "config" = .ok scattered.write) :
      effect Memory.answer memory (Pass.load "config") = (.ok scattered, memory) :=
    effect_load_ok Memory.answer memory "config" scattered (Prod.ext loads rfl) (ConfigRoundTrip.read_write scattered)
  have lists : effect Memory.answer crowded (Pass.listReservations accepting) = (.ok [], crowded.list.2) := rfl
  constructor
  · simp only [drafted, draftNodes, located, bind_assoc]
    rw [effect_then Memory.answer (loads crowded rfl)]
    decide +kernel
  · simp only [drafted, draftServices, loadGiven, located, map_eq_pure_bind, bind_assoc, pure_bind]
    rw [effect_then Memory.answer lists, effect_then Memory.answer (loads crowded.list.2 rfl)]
    decide +kernel

theorem passes_independent_crowded :
    (change? (effect Memory.answer crowded (drafted accepting .sync (.nodes workers))).1).isSome = true ∧
      (change? (effect Memory.answer crowded (drafted accepting .add (.services [web]))).1).isSome = true ∧
      Independent Memory.answer "config" (·.routers) stock scattered crowded (Pass.nodes accepting .sync workers)
        (Pass.services accepting .add [web]) := by
  have located : ∀ location ∈ accepting.location, location.name = "config" := by
    rintro _ ⟨⟩
    rfl
  have shows : Shows Memory.answer "config" crowded scattered.write scattered := ⟨rfl, ConfigRoundTrip.read_write scattered⟩
  have accepts : Accepts Memory.answer "config" crowded := (accepts_memory "config" crowded).mpr rfl
  obtain ⟨nodes_change, services_change⟩ := crowded_changes
  exact ⟨nodes_change, services_change, passes_independent (separate_memory "config") located shows accepts .sync .add workers [web]⟩

end

end PeerPool.Proofs.IndependentPasses
