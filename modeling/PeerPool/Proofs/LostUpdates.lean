import PeerPool.Proofs.Exclusion
import PeerPool.Proofs.Overtaking

/-! No update of the document is lost. Between the load of a pass and its patch nobody else makes
a call, so what is written has been computed from what the patch before it has left. -/

namespace PeerPool.Proofs.LostUpdates
open PassLogic PassCalls Interleavings WrittenOnce DisturbedPasses Exclusion Synchronized Sites Overtaking

variable {σ : Type} {settings : Settings} {answer : Answers σ} {drifts : σ → σ → Prop}

def Patches (deed : Deed σ) : Prop := ∃ name patch, deed.act = .called (.patchDocument name patch)

/-- Patches, and this is accepted. -/
def Writes (answer : Answers σ) (deed : Deed σ) : Prop :=
  ∃ name patch, deed.act = .called (.patchDocument name patch) ∧ (answer deed.state (.patchDocument name patch)).1 = .ok ()

/-- The text of the latest patch that was accepted, or the initial one if there was none. -/
inductive LeftBy (answer : Answers σ) (initial : String) : List (Deed σ) → String → Prop where
  | initial {trace : List (Deed σ)} : (∀ deed ∈ trace, ¬ Writes answer deed) → LeftBy answer initial trace initial
  | written {before after : List (Deed σ)} {who : Party} {state : σ} {name text : String} :
      (answer state (.patchDocument name (configPatch text))).1 = .ok () → (∀ deed ∈ after, ¬ Writes answer deed) →
      LeftBy answer initial (before ++ ⟨who, state, .called (.patchDocument name (configPatch text))⟩ :: after) text

/-- What goes before a patch. The loop has taken the lock for a pass that was due, has loaded what the
latest accepted patch had left, and has computed what it writes from that, with no other calls between. -/
inductive Founded (answer : Answers σ) (drifts : σ → σ → Prop) (settings : Settings) (initial : String) (who : Party) (state : σ)
    (name : String) (patch : Json) : List (Deed σ) → Prop where
  | intro {before opening between : List (Deed σ)} {begun loading : σ} {text : String} {loaded edited : Config} {mode : Mode}
      {batch : Batch} :
      due settings who before = some (passOver settings mode batch) →
      Within who (opening ++ ⟨who, loading, .called (.loadDocument name)⟩ :: between) →
      (∀ deed ∈ opening ++ ⟨who, loading, .called (.loadDocument name)⟩ :: between, ¬ Patches deed) →
      LeftBy answer initial (before ++ ⟨who, begun, .acquired⟩ :: opening) text →
      (answer loading (.loadDocument name)).1 = .ok text → Config.read text = .ok loaded →
      Computes answer drifts settings mode loaded (answer loading (.loadDocument name)).2 (callsOf between) edited state batch →
      patch = configPatch edited.write →
      Founded answer drifts settings initial who state name patch
        (before ++ ⟨who, begun, .acquired⟩ :: (opening ++ ⟨who, loading, .called (.loadDocument name)⟩ :: between))

section

variable {initial text : String} {earlier deeds : List (Deed σ)}

theorem Writes.patches {deed : Deed σ} (writes : Writes answer deed) : Patches deed := writes.imp fun _ found => found.imp fun _ both => both.1

theorem LeftBy.append (left : LeftBy answer initial earlier text) (unwritten : ∀ deed ∈ deeds, ¬ Writes answer deed) :
    LeftBy answer initial (earlier ++ deeds) text := by
  cases left with
  | initial before => exact .initial (List.forall_mem_append.mpr ⟨before, unwritten⟩)
  | written accepted after =>
    rw [List.append_assoc, List.cons_append]
    exact .written accepted (List.forall_mem_append.mpr ⟨after, unwritten⟩)

end

section

variable {machine after last : Machine settings σ} {who : Party} {state : σ} {deed? : Option (Deed σ)}
  {earlier later trace before during : List (Deed σ)} {written : String} {patch : Json}

theorem callsOf_parts (within : Within who during) {opening between : List (σ × Call)} {call : Call}
    (parts : callsOf during = opening ++ (state, call) :: between) :
    ∃ first rest, during = first ++ ⟨who, state, .called call⟩ :: rest ∧ callsOf first = opening ∧ callsOf rest = between := by
  obtain ⟨first, more, rfl, opens, continues⟩ := List.filterMap_eq_append_iff.mp parts
  obtain ⟨idle, deed, rest, rfl, quiet, called, closes⟩ := List.filterMap_eq_cons_iff.mp continues
  have own : deed = ⟨who, state, .called call⟩ := by
    obtain ⟨doer, here, act⟩ := deed
    obtain ⟨rfl, other, acted⟩ | ⟨request, reply, acted⟩ := within _ (List.mem_append_right _ (List.mem_append_right _ (List.mem_cons_self ..)))
    · cases acted
      cases called
      rfl
    · cases acted
      cases called
  refine ⟨first ++ idle, rest, ?_, ?_, closes⟩
  · rw [own, List.append_assoc]
  · have none : callsOf idle = [] := List.filterMap_eq_nil_iff.mpr quiet
    rw [callsOf_append, none, List.append_nil]
    exact opens

/-- A loop patches in a pass, and what it patches goes back to what the pass has loaded. -/
theorem patch_goes_back {first : σ}
    (steps : Steps answer drifts (Machine.start settings first)
      (earlier ++ ⟨who, state, .called (.patchDocument written patch)⟩ :: later) last) :
    ∃ before begun during mode batch draft, earlier = before ++ ⟨who, begun, .acquired⟩ :: during ∧ Within who during ∧
      due settings who before = some (passOver settings mode batch) ∧ (∀ entry ∈ callsOf during, kind entry.2 ∈ drafting) ∧
      Drafts answer drifts settings mode batch (callsOf during) draft state ∧ draft.edited.changed = true ∧ written = draft.name ∧
      patch = configPatch draft.edited.config.write := by
  obtain ⟨ready, works, steps⟩ := steps.split
  obtain ⟨patching, patched, settles, patches, _⟩ := steps.first_seen
  have whole := works.trans settles
  rw [List.append_nil] at whole
  have turns := in_turn (orderly_start first) whole
  have holds : patching.holder = some who := (in_turn_step ((orderly_start first).steps whole) patches).caller
  obtain ⟨same, _⟩ | ⟨before, begun, during, rfl, within⟩ := turns.held holds
  · cases same
  · have also : Within who (during ++ [⟨who, state, .called (.patchDocument written patch)⟩]) :=
      List.forall_mem_append.mpr ⟨within, List.forall_mem_singleton.mpr (.inl ⟨rfl, _, rfl⟩)⟩
    have seen : Steps answer drifts (Machine.start settings first)
        (before ++ ⟨who, begun, .acquired⟩ :: (during ++ [⟨who, state, .called (.patchDocument written patch)⟩])) patched := by
      have steps := whole.trans (.seen patches (.refl patched))
      rwa [List.append_assoc, List.cons_append] at steps
    obtain ⟨failure, mode, batch, rest, final, called, comes⟩ := pass_underway seen also
    rw [callsOf_append, List.append_assoc] at comes
    obtain ⟨kinds, draft, drafts, changed, name, text⟩ := pass_patches comes
    exact ⟨before, begun, during, mode, batch, draft, rfl, within, called, kinds, drafts, changed, name, text⟩

theorem unpatched (kinds : ∀ entry ∈ callsOf during, kind entry.2 ∈ drafting) :
    ∀ deed ∈ during, ¬ Patches deed := by
  rintro ⟨doer, here, act⟩ member ⟨name, patch, rfl⟩
  have entry : (here, Call.patchDocument name patch) ∈ callsOf during := List.mem_filterMap.mpr ⟨_, member, rfl⟩
  have apart : Kind.patch ∉ drafting := by decide
  exact apart (kinds _ entry)

theorem step_seen {deed : Deed σ} (step : Step answer drifts machine (some deed) after) : deed.state = machine.state := by
  cases step with
  | turn turn => cases turn <;> rfl

/-- What patches of passes are like: they replace the configuration. -/
def Proper (name : String) (deed : Deed σ) : Prop :=
  ∀ written patch, deed.act = .called (.patchDocument written patch) → written = name ∧ ∃ text, patch = configPatch text

theorem trace_proper {name : String} (named : ∀ location ∈ settings.location, location.name = name) {first : σ}
    (steps : Steps answer drifts (Machine.start settings first) trace last) : ∀ deed ∈ trace, Proper name deed := by
  rintro ⟨who, state, act⟩ member written patch rfl
  obtain ⟨earlier, later, rfl⟩ := List.append_of_mem member
  obtain ⟨_, _, _, _, _, draft, _, _, _, _, drafts, _, rfl, text⟩ := patch_goes_back steps
  obtain ⟨location, located, same⟩ := drafts.located
  exact ⟨same.trans (named location located), _, text⟩

section

variable {document : σ → String} {name initial : String} (store : Store answer name document) (guards : Guards answer document)
include store guards

theorem left_call (left : LeftBy answer initial earlier (document state)) {call : Call} (proper : Proper name ⟨who, state, .called call⟩) :
    LeftBy answer initial (earlier ++ [⟨who, state, .called call⟩]) (document (answer state call).2) := by
  by_cases patch : kind call = .patch
  · cases call <;> cases patch
    next written patch =>
    obtain ⟨rfl, text, rfl⟩ := proper written patch rfl
    cases answered : (answer state (.patchDocument written (configPatch text))).1 with
    | ok _ =>
      rw [store.patches state text answered]
      exact .written answered (List.forall_mem_nil _)
    | error error =>
      rw [guards.refuses state written _ error answered]
      refine left.append (List.forall_mem_singleton.mpr ?_)
      rintro ⟨_, _, same, accepted⟩
      cases same
      cases answered.symm.trans accepted
  · rw [guards.keeps state call patch]
    refine left.append (List.forall_mem_singleton.mpr fun writes => ?_)
    obtain ⟨_, _, same⟩ := writes.patches
    cases same
    exact patch rfl

variable (alone : ∀ before after, drifts before after → document after = document before)
include alone

theorem left_step (left : LeftBy answer initial earlier (document machine.state)) (step : Step answer drifts machine deed? after)
    (proper : ∀ deed ∈ deed?, Proper name deed) : LeftBy answer initial (earlier ++ deed?.toList) (document after.state) := by
  have silent {deeds : List (Deed σ)} (acts : ∀ deed ∈ deeds, ∀ call, deed.act ≠ .called call) :
      LeftBy answer initial (earlier ++ deeds) (document machine.state) :=
    left.append fun deed member writes => by
      obtain ⟨_, _, same⟩ := writes.patches
      exact acts deed member _ same
  cases step with
  | drift drifted =>
    rw [alone _ _ drifted]
    exact silent (List.forall_mem_nil _)
  | turn turn =>
    cases turn with
    | say | again => exact silent (List.forall_mem_nil _)
    | hear | acquire | release => exact silent (by simp)
    | call => exact left_call store guards left (proper _ rfl)

variable (named : ∀ location ∈ settings.location, location.name = name)
include named

theorem left_start {first : σ} (steps : Steps answer drifts (Machine.start settings first) trace last) :
    LeftBy answer (document first) trace (document last.state) := by
  let holds (earlier : List (Deed σ)) (machine : Machine settings σ) : Prop :=
    (∀ deed ∈ earlier, Proper name deed) → LeftBy answer (document first) earlier (document machine.state)
  have start : holds [] (Machine.start settings first) := fun _ => .initial (List.forall_mem_nil _)
  refine steps_carry ?_ (orderly_start first) start steps (trace_proper named steps)
  intro earlier machine deed? after _ left next proper
  obtain ⟨before, now⟩ := List.forall_mem_append.mp proper
  exact left_step store guards alone (left before) next fun deed member => now deed (Option.mem_toList.mpr member)

theorem patch_founded {first : σ} (steps : Steps answer drifts (Machine.start settings first)
    (earlier ++ ⟨who, state, .called (.patchDocument written patch)⟩ :: later) last) :
    Founded answer drifts settings (document first) who state written patch earlier := by
  obtain ⟨before, begun, during, mode, batch, draft, rfl, within, called, kinds, drafts, changed, rfl, rfl⟩ := patch_goes_back steps
  obtain ⟨opening, loading, text, between, parts, found, read, computes⟩ := drafts.computed
  have unpatched := unpatched kinds
  obtain ⟨first, rest, rfl, rfl, rfl⟩ := callsOf_parts within parts
  refine .intro called within unpatched ?_ found read (computes changed) rfl
  -- The world is where the load found it, and so is the document.
  rw [List.append_assoc, List.cons_append, List.append_assoc, List.cons_append, ← List.cons_append, ← List.append_assoc] at steps
  obtain ⟨ready, works, steps⟩ := steps.split
  obtain ⟨asking, loaded, settles, loads, _⟩ := steps.first_seen
  have left := left_start store guards alone named (works.trans settles)
  have here : loading = asking.state := step_seen loads
  obtain ⟨location, located, same⟩ := drafts.located
  rw [List.append_nil, ← here] at left
  rwa [store.loads loading text ((same.trans (named location located)) ▸ found)]

/-- A trace in which no update of the document is lost. -/
structure NothingLost (answer : Answers σ) (drifts : σ → σ → Prop) (settings : Settings) (name initial : String)
    (trace : List (Deed σ)) (holder : Option Party) : Prop where
  turns : InTurn none trace holder
  passes : ∀ before who begun during later, trace = before ++ ⟨who, begun, .acquired⟩ :: (during ++ later) → Within who during →
    ∃ failure mode batch rest final, due settings who before = some (passOver settings mode batch) ∧
      Comes answer drifts begun (reported failure (passOver settings mode batch)) (callsOf during ++ rest) () final
  founded : ∀ earlier who state written patch later,
    trace = earlier ++ ⟨who, state, .called (.patchDocument written patch)⟩ :: later →
    Founded answer drifts settings initial who state written patch earlier
  /-- Whoever patches after another patch has loaded the document in between, and has had the lock since. -/
  fresh : ∀ earlier one between other later, trace = earlier ++ one :: (between ++ other :: later) → Patches one → Patches other →
    ∃ opening loading rest, between = opening ++ ⟨other.who, loading, .called (.loadDocument name)⟩ :: rest ∧ Within other.who rest

/-- However the loops overtake each other and whatever fails, no update is lost if nobody else writes the document. -/
theorem no_update_lost {first : σ} (steps : Steps answer drifts (Machine.start settings first) trace last) :
    NothingLost answer drifts settings name (document first) trace last.holder := by
  have founded : ∀ earlier who state written patch later,
      trace = earlier ++ ⟨who, state, .called (.patchDocument written patch)⟩ :: later →
      Founded answer drifts settings (document first) who state written patch earlier := by
    rintro earlier who state written patch later rfl
    exact patch_founded store guards alone named steps
  refine ⟨in_turn (orderly_start first) steps, ?_, founded, ?_⟩
  · rintro before who begun during later rfl within
    rw [← List.cons_append, ← List.append_assoc] at steps
    obtain ⟨_, underway, _⟩ := steps.split
    exact pass_underway underway within
  · rintro earlier one between ⟨who, state, act⟩ later rfl patches ⟨written, patch, rfl⟩
    have whole : earlier ++ one :: (between ++ ⟨who, state, .called (.patchDocument written patch)⟩ :: later) =
        (earlier ++ one :: between) ++ ⟨who, state, .called (.patchDocument written patch)⟩ :: later := by simp
    have goes_back := founded _ _ _ _ _ _ whole
    have known := trace_proper named steps ⟨who, state, .called (.patchDocument written patch)⟩ (by simp) written patch rfl
    generalize same : earlier ++ one :: between = prior at goes_back
    obtain @⟨before, opening, rest, begun, loading, _, _, _, _, _, _, within, unpatched, _⟩ := goes_back
    have absent : one ∉ ⟨who, loading, .called (.loadDocument written)⟩ :: rest :=
      fun member => unpatched one (List.mem_append_right _ member) patches
    rw [← List.cons_append, ← List.append_assoc] at same
    obtain ⟨more, _, rfl⟩ := split_first same absent
    exact ⟨more, loading, rest, known.1 ▸ rfl, fun deed member => within deed (List.mem_append_right _ (List.mem_cons_of_mem _ member))⟩

end

end

theorem guards_apart (offers : Nat → Offer) : Guards (answerApart offers) Apart.text where
  keeps := (lawful_apart offers "").store.keeps
  refuses _ _ _ _ answered := by cases answered

/-- A service is added while a resync is underway that has not seen it, and both passes patch the document. -/
theorem no_update_lost_web : ∃ trace last, Steps (answerApart counted) Drifting (Machine.start plain bare) trace last ∧
    (callsOf trace).countP (fun entry => kind entry.2 = .patch) = 2 ∧
    NothingLost (answerApart counted) Drifting plain "config" bare.text trace last.holder := by
  have drifted : Drifting (effect (answerApart counted) bare (Pass.nodes plain .sync [])).2 stocked := by decide +kernel
  obtain ⟨last, _, _, steps, _⟩ := addition_seen bare [] drifted
  have named : ∀ location ∈ plain.location, location.name = "config" := by decide
  have alone (before after : Apart counted) (drifts : Drifting before after) : after.text = before.text := congrArg Prod.fst drifts
  refine ⟨_, last, steps, ?_, no_update_lost (lawful_apart counted "config").store (guards_apart counted) alone named steps⟩
  decide +kernel

end PeerPool.Proofs.LostUpdates
