import Mathlib.Logic.Relation
import PeerPool.Proofs.Interleavings
import PeerPool.Proofs.WrittenOnce

/-! Passes in a world that drifts, taken apart. What a pass patches it has computed from what it
loaded, and from the answers to the calls that it made in between. -/

namespace PeerPool.Proofs.DisturbedPasses
open PassLogic PassDocument PassServices PassCalls Interleavings SilentPasses WrittenOnce Provider
open Relation (ReflTransGen)

variable {σ α β : Type} {answer : Answers σ} {drifts : σ → σ → Prop} {state after : σ} {seen : List (σ × Call)}

section

variable {program : Program Call.Answer α} {value : α}

theorem comes_drifted {between : σ} (drifted : ReflTransGen drifts state between)
    (comes : Comes answer drifts between program seen value after) : Comes answer drifts state program seen value after := by
  induction drifted using ReflTransGen.head_induction_on with
  | refl => exact comes
  | head first _ ih => exact .drift first ih

theorem comes_done {result : α} (comes : Comes answer drifts state (.done value) seen result after) :
    seen = [] ∧ result = value ∧ ReflTransGen drifts state after := by
  generalize same : Program.done value = program at comes
  induction comes with
  | done => cases same; exact ⟨rfl, rfl, .refl⟩
  | say | ask => cases same
  | drift first _ ih =>
    obtain ⟨none, found, later⟩ := ih same
    exact ⟨none, found, .head first later⟩

theorem comes_say {level : Level} {text : String} :
    Comes answer drifts state (.say level text program) seen value after ↔ Comes answer drifts state program seen value after := by
  refine ⟨fun comes => ?_, .say⟩
  generalize same : Program.say level text program = whole at comes
  induction comes with
  | say comes => cases same; exact comes
  | done | ask => cases same
  | drift first _ ih => exact .drift first (ih same)

theorem comes_ask {call : Call} {next : call.Answer → Program Call.Answer α}
    (comes : Comes answer drifts state (.ask call next) seen value after) :
    ∃ here rest, ReflTransGen drifts state here ∧ seen = (here, call) :: rest ∧
      Comes answer drifts (answer here call).2 (next (answer here call).1) rest value after := by
  generalize same : Program.ask call next = whole at comes
  induction comes with
  | @ask state _ _ _ rest _ comes => cases same; exact ⟨state, rest, .refl, rfl, comes⟩
  | done | say => cases same
  | drift first _ ih =>
    obtain ⟨here, rest, later, found⟩ := ih same
    exact ⟨here, rest, .head first later, found⟩

theorem comes_bind {next : α → Program Call.Answer β} {between : σ} {rest : List (σ × Call)} {result : β}
    (first : Comes answer drifts state program seen value between) (later : Comes answer drifts between (next value) rest result after) :
    Comes answer drifts state (program.bind next) (seen ++ rest) result after := by
  induction first with
  | done => exact later
  | say _ ih => exact .say (ih later)
  | ask _ ih => exact .ask (ih later)
  | drift first _ ih => exact .drift first (ih later)

theorem comes_parts {next : α → Program Call.Answer β} {result : β}
    (comes : Comes answer drifts state (program.bind next) seen result after) :
    ∃ earlier value between rest, Comes answer drifts state program earlier value between ∧
      Comes answer drifts between (next value) rest result after ∧ seen = earlier ++ rest := by
  induction program generalizing state seen with
  | done value => exact ⟨[], value, state, seen, .done state value, comes, rfl⟩
  | say level text program ih =>
    obtain ⟨earlier, value, between, rest, first, later, rfl⟩ := ih (comes_say.mp comes)
    exact ⟨earlier, value, between, rest, .say first, later, rfl⟩
  | ask call program ih =>
    obtain ⟨here, others, drifted, rfl, answered⟩ := comes_ask comes
    obtain ⟨earlier, value, between, rest, first, later, rfl⟩ := ih _ answered
    exact ⟨(here, call) :: earlier, value, between, rest, comes_drifted drifted (.ask first), later, rfl⟩

theorem comes_settles {last : σ} (comes : Comes answer drifts state program seen value after) (drifted : ReflTransGen drifts after last) :
    Comes answer drifts state program seen value last := by
  have settles : Comes answer drifts state (program.bind .done) (seen ++ []) value last :=
    comes_bind comes (comes_drifted drifted (.done last value))
  rwa [Program.bind_done, List.append_nil] at settles

theorem comes_silent : Comes answer drifts state (silent program) seen value after ↔ Comes answer drifts state program seen value after := by
  induction program generalizing state seen with
  | done => exact .rfl
  | say level text program ih => exact ih.trans comes_say.symm
  | ask call program ih =>
    constructor
    · intro comes
      obtain ⟨here, rest, drifted, rfl, answered⟩ := comes_ask comes
      exact comes_drifted drifted (.ask ((ih _).mp answered))
    · intro comes
      obtain ⟨here, rest, drifted, rfl, answered⟩ := comes_ask comes
      exact comes_drifted drifted (.ask ((ih _).mpr answered))

theorem comes_kinds {kinds : List Kind} (comes : Comes answer drifts state program seen value after) (asks : Asks kinds program) :
    ∀ entry ∈ seen, kind entry.2 ∈ kinds := by
  induction comes with
  | done => exact List.forall_mem_nil _
  | say _ ih => exact ih asks
  | ask _ ih => exact List.forall_mem_cons.mpr ⟨asks.1, ih (asks.2 _)⟩
  | drift _ _ ih => exact ih asks

theorem comes_quiet (comes : Comes answer drifts state program seen value after) (asks : Asks [] program) : seen = [] :=
  List.eq_nil_iff_forall_not_mem.mpr fun entry member => absurd (comes_kinds comes asks entry member) List.not_mem_nil

variable (answer drifts state program) in
/-- Left to itself a program comes to something. -/
theorem comes_alone : ∃ seen value after, Comes answer drifts state program seen value after := by
  induction program generalizing state with
  | done value => exact ⟨[], value, state, .done state value⟩
  | say level text program ih =>
    obtain ⟨seen, value, after, comes⟩ := ih state
    exact ⟨seen, value, after, .say comes⟩
  | ask call program ih =>
    obtain ⟨seen, value, after, comes⟩ := ih (answer state call).1 (answer state call).2
    exact ⟨(state, call) :: seen, value, after, .ask comes⟩

end

section

variable {pass : Pass α} {next : α → Pass β}

theorem comes_pass {result : Except PassError β} (comes : Comes answer drifts state (pass >>= next).run seen result after) :
    (∃ value earlier between rest, Comes answer drifts state pass.run earlier (.ok value) between ∧
      Comes answer drifts between (next value).run rest result after ∧ seen = earlier ++ rest) ∨
    ∃ error, result = .error error ∧ Comes answer drifts state pass.run seen (.error error) after := by
  rw [run_bind] at comes
  obtain ⟨earlier, error | value, between, rest, first, later, rfl⟩ := comes_parts comes
  · obtain ⟨rfl, rfl, drifted⟩ := comes_done later
    rw [List.append_nil]
    exact .inr ⟨error, rfl, comes_settles first drifted⟩
  · exact .inl ⟨_, earlier, between, rest, first, later, rfl⟩

theorem comes_pass_ok {result : β} (comes : Comes answer drifts state (pass >>= next).run seen (.ok result) after) :
    ∃ value earlier between rest, Comes answer drifts state pass.run earlier (.ok value) between ∧
      Comes answer drifts between (next value).run rest (.ok result) after ∧ seen = earlier ++ rest := by
  obtain parts | ⟨error, same, _⟩ := comes_pass comes
  · exact parts
  · cases same

end

theorem comes_check {ε : Type} {wrap : ε → PassError} {found : Except ε α} {value : α}
    (comes : Comes answer drifts state (Pass.check wrap found).run seen (.ok value) after) :
    found = .ok value ∧ seen = [] ∧ ReflTransGen drifts state after := by
  cases found with
  | error error =>
    obtain ⟨_, same, _⟩ := comes_done comes
    cases same
  | ok found =>
    obtain ⟨rfl, same, drifted⟩ := comes_done comes
    cases same
    exact ⟨rfl, rfl, drifted⟩

theorem comes_load {name : String} {loaded : Config} (comes : Comes answer drifts state (Pass.load name).run seen (.ok loaded) after) :
    ∃ here text, ReflTransGen drifts state here ∧ seen = [(here, .loadDocument name)] ∧
      (answer here (.loadDocument name)).1 = .ok text ∧ Config.read text = .ok loaded ∧
      ReflTransGen drifts (answer here (.loadDocument name)).2 after := by
  obtain ⟨here, rest, drifted, rfl, answered⟩ := comes_ask (comes_say.mp comes)
  have checks : Comes answer drifts (answer here (.loadDocument name)).2
      (Pass.check .documentStore (answer here (.loadDocument name)).1 >>= fun text => Pass.check .invalidDocument (Config.read text)).run
      rest (.ok loaded) after := answered
  obtain ⟨text, earlier, between, later, first, second, rfl⟩ := comes_pass_ok checks
  obtain ⟨found, rfl, settles⟩ := comes_check first
  obtain ⟨read, rfl, more⟩ := comes_check second
  exact ⟨here, text, drifted, rfl, found, read, settles.trans more⟩

/-- What a pass makes of the configuration that it has loaded, with the calls that it makes meanwhile. -/
inductive Computes (answer : Answers σ) (drifts : σ → σ → Prop) (settings : Settings) (mode : Mode) (loaded : Config) (state : σ)
    (seen : List (σ × Call)) (edited : Config) (after : σ) : Batch → Prop where
  | nodes {batch : List Cluster.Node} :
      Comes answer drifts state (Pass.editForNodes settings mode loaded batch).run seen (.ok ⟨edited, true⟩) after →
      Computes answer drifts settings mode loaded state seen edited after (.nodes batch)
  | services {batch : List Cluster.Service} {listed orphans : List Reservation} : loaded ≠ edited →
      Comes answer drifts state (editForServices settings mode listed (some loaded) (batch.filter (·.isLoadBalancer))).run seen
        (.ok (some edited, orphans)) after →
      Computes answer drifts settings mode loaded state seen edited after (.services batch)

section

variable {settings : Settings} {mode : Mode} {draft : Draft} {orphans : List Reservation}

/-- A draft goes back to a load, and to nothing that was loaded otherwise. -/
structure Drafts (answer : Answers σ) (drifts : σ → σ → Prop) (settings : Settings) (mode : Mode) (batch : Batch)
    (seen : List (σ × Call)) (draft : Draft) (after : σ) where
  located : ∃ location, settings.location = some location ∧ draft.name = location.name
  computed : ∃ opening here text between, seen = opening ++ (here, .loadDocument draft.name) :: between ∧
    (answer here (.loadDocument draft.name)).1 = .ok text ∧ Config.read text = .ok draft.loaded ∧
    (draft.edited.changed = true →
      Computes answer drifts settings mode draft.loaded (answer here (.loadDocument draft.name)).2 between draft.edited.config after batch)

theorem draftNodes_comes {batch : List Cluster.Node}
    (comes : Comes answer drifts state (draftNodes settings mode batch).run seen (.ok (some draft)) after) :
    Drafts answer drifts settings mode (.nodes batch) seen draft after := by
  unfold draftNodes at comes
  cases located : settings.location with
  | none =>
    rw [located] at comes
    obtain ⟨_, same, _⟩ := comes_done comes
    cases same
  | some location =>
    rw [located] at comes
    obtain ⟨loaded, _, _, rest, loads, more, rfl⟩ := comes_pass_ok comes
    obtain ⟨edited, between, _, _, edits, ends, rfl⟩ := comes_pass_ok more
    obtain ⟨here, text, _, rfl, found, read, drifted⟩ := comes_load loads
    obtain ⟨rfl, same, settles⟩ := comes_done ends
    cases same
    refine ⟨⟨location, located, rfl⟩, [], here, text, between, ?_, found, read, fun changed => ?_⟩
    · rw [List.append_nil]
      rfl
    · obtain ⟨config, changed⟩ := edited
      subst changed
      exact .nodes (comes_settles (comes_drifted drifted edits) settles)

theorem loadGiven_comes {location : Location} (located : settings.location = some location) {loaded? : Option Config}
    (comes : Comes answer drifts state (loadGiven settings).run seen (.ok loaded?) after) :
    ∃ loaded, loaded? = some loaded ∧ Comes answer drifts state (Pass.load location.name).run seen (.ok loaded) after := by
  unfold loadGiven at comes
  rw [located] at comes
  simp only [map_eq_pure_bind] at comes
  obtain ⟨loaded, _, _, _, loads, ends, rfl⟩ := comes_pass_ok comes
  obtain ⟨rfl, same, settles⟩ := comes_done ends
  cases same
  rw [List.append_nil]
  exact ⟨loaded, rfl, comes_settles loads settles⟩

theorem draft?_some {loaded? final? : Option Config} (drafted : draft? settings loaded? final? = some draft) :
    ∃ location, settings.location = some location ∧ ∃ loaded, loaded? = some loaded ∧ ∃ final, final? = some final ∧
      draft = compared location loaded final := by
  obtain ⟨location, located, drafted⟩ := Option.bind_eq_some_iff.mp drafted
  obtain ⟨loaded, given, drafted⟩ := Option.bind_eq_some_iff.mp drafted
  obtain ⟨final, last, same⟩ := Option.bind_eq_some_iff.mp drafted
  exact ⟨location, located, loaded, given, final, last, (Option.some.inj same).symm⟩

theorem draftServices_comes {batch : List Cluster.Service}
    (comes : Comes answer drifts state (draftServices settings mode batch).run seen (.ok (some draft, orphans)) after) :
    Drafts answer drifts settings mode (.services batch) seen draft after := by
  obtain ⟨listed, opening, _, _, lists, listing, rfl⟩ := comes_pass_ok comes
  obtain ⟨loaded?, _, _, _, loads, loading, rfl⟩ := comes_pass_ok listing
  obtain ⟨⟨final?, left⟩, between, _, _, edits, ends, rfl⟩ := comes_pass_ok loading
  obtain ⟨rfl, same, settles⟩ := comes_done ends
  rw [Except.ok.injEq, Prod.mk.injEq] at same
  obtain ⟨location, located, loaded, rfl, final, rfl, rfl⟩ := draft?_some same.1.symm
  obtain ⟨_, given, loads⟩ := loadGiven_comes located loads
  cases given
  obtain ⟨here, text, _, rfl, found, read, drifted⟩ := comes_load loads
  refine ⟨⟨location, located, rfl⟩, opening, here, text, between, ?_, found, read, fun changed => ?_⟩
  · rw [List.append_nil]
    rfl
  · exact .services (of_decide_eq_true changed) (comes_settles (comes_drifted drifted edits) settles)

theorem drafted_comes {batch : Batch}
    (comes : Comes answer drifts state (drafted settings mode batch).run seen (.ok (some draft, orphans)) after) :
    Drafts answer drifts settings mode batch seen draft after := by
  cases batch with
  | services batch => exact draftServices_comes comes
  | nodes batch =>
    obtain ⟨draft?, earlier, _, _, drafts, ends, rfl⟩ := comes_pass_ok comes
    obtain ⟨rfl, same, settles⟩ := comes_done ends
    cases same
    rw [List.append_nil]
    exact draftNodes_comes (comes_settles drafts settles)

theorem Computes.settles {batch : Batch} {loaded edited : Config} {last : σ}
    (computes : Computes answer drifts settings mode loaded state seen edited after batch) (drifted : ReflTransGen drifts after last) :
    Computes answer drifts settings mode loaded state seen edited last batch := by
  cases computes with
  | nodes comes => exact .nodes (comes_settles comes drifted)
  | services differs comes => exact .services differs (comes_settles comes drifted)

theorem writeDraft_comes {draft? : Option Draft} {result : Except PassError Unit}
    (comes : Comes answer drifts state (writeDraft draft?).run seen result after) :
    seen = [] ∨ ∃ draft here, draft? = some draft ∧ draft.edited.changed = true ∧ ReflTransGen drifts state here ∧
      seen = [(here, .patchDocument draft.name (configPatch draft.edited.config.write))] := by
  cases draft? with
  | none => exact .inl (comes_done comes).1
  | some draft =>
    change Comes answer drifts state (PassPeers.writeBack draft.name draft.edited).run seen result after at comes
    unfold PassPeers.writeBack at comes
    split at comes
    next changed =>
      obtain ⟨here, rest, drifted, rfl, answered⟩ := comes_ask (comes_say.mp (comes_say.mp comes))
      have checks : Comes answer drifts _ (Pass.check .documentStore _).run rest result after := answered
      rw [comes_quiet checks (Makes.check _ _)]
      exact .inr ⟨draft, here, rfl, changed, drifted, rfl⟩
    next => exact .inl (comes_done (comes_say.mp comes)).1

variable {before rest : List (σ × Call)} {here : σ} {written : String} {patch : Json}

theorem finish_comes {drafted : Option Draft × List Reservation} {result : Except PassError Unit}
    (comes : Comes answer drifts state (finish drafted).run (before ++ (here, .patchDocument written patch) :: rest) result after) :
    before = [] ∧ ReflTransGen drifts state here ∧ ∃ draft, drafted.1 = some draft ∧ draft.edited.changed = true ∧
      written = draft.name ∧ patch = configPatch draft.edited.config.write := by
  obtain ⟨wrote, deleted, last, between, writes, whole, quiet⟩ : ∃ wrote deleted last between,
      Comes answer drifts state (writeDraft drafted.1).run wrote last between ∧
      before ++ (here, .patchDocument written patch) :: rest = wrote ++ deleted ∧ ∀ entry ∈ deleted, kind entry.2 = .delete := by
    obtain ⟨_, wrote, between, deleted, writes, deletes, whole⟩ | ⟨error, _, writes⟩ := comes_pass comes
    · have kinds := comes_kinds deletes (makes_deleteOrphans (List.mem_singleton_self _) drafted.2)
      exact ⟨wrote, deleted, _, between, writes, whole, fun entry member => List.mem_singleton.mp (kinds entry member)⟩
    · exact ⟨_, [], _, _, writes, (List.append_nil _).symm, List.forall_mem_nil _⟩
  have deletes : (here, Call.patchDocument written patch) ∉ deleted := fun member => nomatch quiet _ member
  obtain rfl | ⟨draft, there, given, changed, drifted, rfl⟩ := writeDraft_comes writes
  · rw [List.nil_append] at whole
    exact absurd (whole ▸ by simp) deletes
  · cases before with
    | nil =>
      cases whole
      exact ⟨rfl, drifted, draft, given, changed, rfl, rfl⟩
    | cons entry before =>
      rw [List.cons_append, List.singleton_append, List.cons.injEq] at whole
      exact absurd (whole.2 ▸ by simp) deletes

/-- What comes up in the second part only has all of the first part before it. -/
theorem split_second {γ : Type} {first second before rest : List γ} {entry : γ} (whole : before ++ entry :: rest = first ++ second)
    (absent : entry ∉ first) : ∃ more, before = first ++ more ∧ second = more ++ entry :: rest := by
  obtain ⟨more, rfl, same⟩ | ⟨more, same, found⟩ := List.append_eq_append_iff.mp whole
  · cases more with
    | nil => exact ⟨[], by simp, same.symm⟩
    | cons other more =>
      cases same
      exact absurd (by simp) absent
  · exact ⟨more, same, found⟩

/-- What does not come up in the second part has all of the second part after it. -/
theorem split_first {γ : Type} {first second before rest : List γ} {entry : γ} (whole : before ++ entry :: rest = first ++ second)
    (absent : entry ∉ second) : ∃ more, first = before ++ entry :: more ∧ rest = more ++ second := by
  obtain ⟨more, rfl, same⟩ | ⟨more, rfl, rfl⟩ := List.append_eq_append_iff.mp whole
  · cases more with
    | nil =>
      rw [List.nil_append] at same
      exact absurd (same ▸ List.mem_cons_self ..) absent
    | cons other more =>
      cases same
      exact ⟨more, rfl, rfl⟩
  · exact absurd (by simp) absent

theorem pass_patches {failure : PassError → String} {batch : Batch}
    (comes : Comes answer drifts state (reported failure (passOver settings mode batch))
      (before ++ (here, .patchDocument written patch) :: rest) () after) :
    (∀ entry ∈ before, kind entry.2 ∈ drafting) ∧ ∃ draft, Drafts answer drifts settings mode batch before draft here ∧
      draft.edited.changed = true ∧ written = draft.name ∧ patch = configPatch draft.edited.config.write := by
  obtain ⟨earlier, result, between, later, passes, complains, whole⟩ := comes_parts comes
  have asks : Asks [] (complaint failure result) := by cases result <;> trivial
  rw [comes_quiet complains asks, List.append_nil] at whole
  have unpatched : Kind.patch ∉ drafting := by decide
  have silently := (same_drafted settings mode batch) ▸ comes_silent.mpr passes
  obtain ⟨drafted, first, ready, second, drafts, finishes, rfl⟩ | ⟨error, _, drafts⟩ := comes_pass (comes_silent.mp silently)
  · have unwritten := comes_kinds drafts (makes_drafted settings mode batch)
    obtain ⟨more, rfl, rfl⟩ := split_second whole fun member => unpatched (unwritten _ member)
    obtain ⟨rfl, drifted, draft, given, changed, name, text⟩ := finish_comes finishes
    obtain ⟨draft?, orphans⟩ := drafted
    subst given
    obtain ⟨located, opening, loading, found, between, parts, loads, read, computes⟩ := drafted_comes drafts
    rw [List.append_nil]
    refine ⟨unwritten, draft, ⟨located, opening, loading, found, between, parts, loads, read, ?_⟩, changed, name, text⟩
    exact fun changed => (computes changed).settles drifted
  · have unwritten := comes_kinds drafts (makes_drafted settings mode batch)
    have member : (here, Call.patchDocument written patch) ∈ earlier := whole ▸ by simp
    exact absurd (unwritten _ member) unpatched

end

end PeerPool.Proofs.DisturbedPasses
