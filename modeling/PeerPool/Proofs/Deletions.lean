import PeerPool.Proofs.Synchronized

/-! Which reservations a pass tries to delete, in any world and with any calls failing. What is
deleted is lost for good, so it has to be the agent's own, and a synchronizing pass deletes
nothing before the configuration that it leaves is stored. -/

namespace PeerPool.Proofs.Deletions
open PassLogic PassDocument PassServices PassCalls PassPools PoolEdits Sites Synchronized Provider Cluster

variable {σ α β : Type} {answer : Answers σ} {settings : Settings}

/-- The IDs that are to be deleted by the calls, in their order. -/
def deletions (calls : List (σ × Call)) : List String :=
  calls.filterMap fun
    | (_, .deleteReservation id) => some id
    | _ => none

theorem deletions_append (first second : List (σ × Call)) :
    deletions (first ++ second) = deletions first ++ deletions second := List.filterMap_append

/-- A pass whose kinds of calls leave deletions out deletes nothing. -/
theorem deletions_eq_nil {kinds : List Kind} {pass : Pass α} (makes : Makes kinds pass) (spares : .delete ∉ kinds) (state : σ) :
    deletions (made answer state pass) = [] := by
  apply List.filterMap_eq_nil_iff.mpr
  rintro ⟨before, call⟩ member
  have known := makes.only member
  cases call with
  | deleteReservation id => exact absurd known spares
  | _ => rfl

/-- A pass that begins by deleting nothing deletes what its second part does. -/
theorem deletions_bind {kinds : List Kind} {pass : Pass α} (makes : Makes kinds pass) (spares : .delete ∉ kinds) (state : σ)
    (next : α → Pass β) :
    deletions (made answer state (pass >>= next)) =
      match effect answer state pass with
      | (.ok value, after) => deletions (made answer after (next value))
      | (.error _, _) => [] := by
  rw [made_bind, deletions_append, deletions_eq_nil makes spares state, List.nil_append]
  generalize effect answer state pass = result
  obtain ⟨error | value, after⟩ := result <;> rfl

/-- Some listing among the calls came back with the reservation. -/
def Listed (answer : Answers σ) (calls : List (σ × Call)) (reservation : Reservation) : Prop :=
  ∃ before project listed, (before, .listReservations project) ∈ calls ∧
    (answer before (.listReservations project)).1 = .ok listed ∧ reservation ∈ listed

theorem Listed.append_left {first : List (σ × Call)} {reservation : Reservation} (listed : Listed answer first reservation)
    (second : List (σ × Call)) : Listed answer (first ++ second) reservation := by
  obtain ⟨before, project, found, member, answered, inside⟩ := listed
  exact ⟨before, project, found, List.mem_append_left second member, answered, inside⟩

/-- What a listing came to was listed. -/
theorem listing_listed {state after : σ} {listed : List Reservation}
    (ok : effect answer state (Pass.listReservations settings) = (.ok listed, after)) :
    made answer state (Pass.listReservations settings) = [(state, .listReservations settings.projectId)] ∧
      (answer state (.listReservations settings.projectId)).1 = .ok listed := by
  unfold Pass.listReservations at ok ⊢
  rw [effect_ask_bind, effect_check] at ok
  rw [made_ask_bind, made_check]
  exact ⟨rfl, mapError_ok.mp (Prod.mk.inj ok).1⟩

/-- Removing services deletes only what is reserved for them. -/
theorem removeServices_deletes {listed : List Reservation} {config? : Option Config} {services : List Service} {state : σ}
    {id : String} (member : id ∈ deletions (made answer state (Pass.removeServices settings listed config? services))) :
    ∃ reservation ∈ listed, reservation.id = id ∧
      ∃ tag ∈ tagsOf services, reservation.hasAllTags [tag, settings.providerTag] = true := by
  induction services generalizing state config? with
  | nil => cases member
  | cons service rest ih =>
    have later {config? : Option Config} {between : σ} {identity : Identity} (known : service.identity? = some identity)
        (member : id ∈ deletions (made answer between (Pass.removeServices settings listed config? rest))) :
        ∃ reservation ∈ listed, reservation.id = id ∧
          ∃ tag ∈ tagsOf (service :: rest), reservation.hasAllTags [tag, settings.providerTag] = true := by
      obtain ⟨reservation, found, same, tag, inside, tagged⟩ := ih member
      rw [tagsOf_cons known]
      exact ⟨reservation, found, same, tag, List.mem_cons_of_mem _ inside, tagged⟩
    rw [Pass.removeServices, Pass.identityOf] at member
    cases known : service.identity? with
    | none =>
      rw [known] at member
      cases member
    | some identity =>
      rw [known] at member
      simp only [pure_bind] at member
      cases owned : Pass.owned? settings identity listed with
      | none =>
        rw [owned] at member
        exact later known member
      | some reservation =>
        rw [owned] at member
        simp only at member
        rw [made_ask_bind, deletions, List.filterMap_cons, List.mem_cons] at member
        rcases member with rfl | member
        · rw [Pass.owned?, findByAllTags?] at owned
          have tagged := List.find?_some owned
          refine ⟨reservation, List.mem_of_find?_eq_some owned, rfl, identity.tag, ?_, tagged⟩
          rw [tagsOf_cons known]
          exact List.mem_cons_self ..
        · split at member
          · exact later known member
          · exact later known member

/-- Deleting what is left over fails nowhere, and asks for each deletion once. -/
theorem deleteOrphans_deletes (orphans : List Reservation) (state : σ) :
    (effect answer state (Pass.deleteOrphans orphans)).1 = .ok () ∧
      (made answer state (Pass.deleteOrphans orphans)).map Prod.snd = orphans.map (.deleteReservation ·.id) := by
  induction orphans generalizing state with
  | nil => exact ⟨rfl, rfl⟩
  | cons orphan rest ih =>
    obtain ⟨succeeds, asks⟩ := ih (answer state (.deleteReservation orphan.id)).2
    rw [Pass.deleteOrphans, effect_ask_bind, made_ask_bind]
    split <;> exact ⟨succeeds, congrArg (_ :: ·) asks⟩

/-- What a synchronizing pass does before it deletes anything. It comes to what is to be deleted. -/
def tidy (settings : Settings) (loaded : Option Config) (services : List Service) (added : List String × Option Config) :
    Pass (List Reservation) := do
  let current ← Pass.listReservations settings
  Pass.debug s!"Valid service tags: {Text.literals (tagsOf services)}"
  Pass.debug s!"Valid addresses: {Text.literals added.1}"
  let config ← withoutStale added.1 added.2
  Pass.saveIfChanged settings loaded config
  return Pass.orphans settings (tagsOf services) current

theorem cleanUp_eq (loaded : Option Config) (services : List Service) :
    cleanUp settings loaded services = fun added => tidy settings loaded services added >>= Pass.deleteOrphans := by
  funext added
  simp only [cleanUp, tidy, bind_assoc, pure_bind]

/-- All of a synchronizing pass but its deletions. -/
def survey (settings : Settings) (services : List Service) : Pass (List Reservation) := do
  let listed ← Pass.listReservations settings
  let loaded ← loadGiven settings
  let added ← Pass.addServices settings listed loaded services
  tidy settings loaded services added

theorem sync_eq (services : List Service) :
    (Pass.listReservations settings >>= fun listed => loadGiven settings >>= fun loaded =>
      perform settings .sync listed loaded services) = survey settings services >>= Pass.deleteOrphans := by
  simp only [perform, syncServices_eq, cleanUp_eq, survey, bind_assoc]

theorem makes_tidy {kinds : List Kind} (list : .list ∈ kinds) (patch : .patch ∈ kinds) (loaded : Option Config)
    (services : List Service) (added : List String × Option Config) : Makes kinds (tidy settings loaded services added) := by
  refine .bind (makes_listReservations settings list) fun current => .bind (.say _ _) fun _ => .bind (.say _ _) fun _ => ?_
  refine .bind (makes_withoutStale _ _) fun config => ?_
  exact .bind (makes_saveIfChanged settings patch loaded config) fun _ => .pure _

theorem makes_survey (services : List Service) :
    Makes [.list, .load, .create, .get, .update, .patch] (survey settings services) := by
  refine .bind (makes_listReservations settings (by decide)) fun listed => ?_
  refine .bind (makes_loadGiven settings (by decide)) fun loaded => ?_
  refine .bind (makes_addServices settings (by decide) (by decide) (by decide) listed loaded services) fun added => ?_
  exact makes_tidy (by decide) (by decide) loaded services added

/-- How it came that the configuration is stored: there is none to be stored, it is the one
that was loaded, or it was written. -/
inductive Stored (answer : Answers σ) (settings : Settings) (loaded? final? : Option Config) : List (σ × Call) → Prop where
  | unmanaged : settings.location = none → Stored answer settings loaded? final? []
  | unchanged : loaded? = final? → Stored answer settings loaded? final? []
  | saved {state : σ} {location : Location} {final : Config} : settings.location = some location → final? = some final →
      (answer state (.patchDocument location.name (configPatch final.write))).1 = .ok () →
      Stored answer settings loaded? final? [(state, .patchDocument location.name (configPatch final.write))]

theorem stored_saveIfChanged {loaded? final? : Option Config} (given : settings.location = none ∨ final?.isSome) {state after : σ}
    (ok : effect answer state (Pass.saveIfChanged settings loaded? final?) = (.ok (), after)) :
    Stored answer settings loaded? final? (made answer state (Pass.saveIfChanged settings loaded? final?)) := by
  unfold Pass.saveIfChanged at ok ⊢
  cases located : settings.location with
  | none => exact .unmanaged located
  | some location =>
    rw [located] at given ok
    cases final? with
    | none => simp at given
    | some final =>
      simp only at ok ⊢
      split
      next same => exact .unchanged same
      next differs =>
        rw [if_neg differs, effect_save] at ok
        rw [made_save]
        exact .saved located rfl (mapError_ok.mp (Prod.mk.inj ok).1)

/-- What is stored is settled, and what is to be deleted comes from the second listing. -/
theorem tidy_ok {loaded? last? : Option Config} {services : List Service} {cidrs : List String} {orphans : List Reservation}
    {added after : σ} (given : settings.location = none ∨ last?.isSome)
    (ok : effect answer added (tidy settings loaded? services (cidrs, last?)) = (.ok orphans, after)) :
    ∃ current saving, (answer added (.listReservations settings.projectId)).1 = .ok current ∧
      orphans = current.filter (leftOver settings (tagsOf services)) ∧
      Stored answer settings loaded? (last?.map fun config => unmapped cidrs config config.poolAddresses) saving ∧
      made answer added (tidy settings loaded? services (cidrs, last?)) =
        (added, .listReservations settings.projectId) :: saving := by
  obtain ⟨current, relisted, lists, rest⟩ := (effect_bind_ok answer).mp ok
  obtain ⟨asks, answered⟩ := listing_listed lists
  unfold Pass.debug at rest
  rw [effect_say_bind, effect_say_bind] at rest
  obtain ⟨final?, _, removes, rest⟩ := (effect_bind_ok answer).mp rest
  rw [effect_withoutStale] at removes
  cases removes
  obtain ⟨_, saved, saves, same⟩ := (effect_bind_ok answer).mp rest
  cases same
  have quiet : made answer relisted (withoutStale cidrs last?) = [] := by
    have makes : Makes [] (withoutStale cidrs last?) := makes_withoutStale cidrs last?
    exact makes.quiet answer relisted
  refine ⟨current, _, answered, orphans_eq _ _, stored_saveIfChanged ?_ saves, ?_⟩
  · rw [Option.isSome_map]
    exact given
  · unfold tidy Pass.debug
    rw [made_bind, lists, asks]
    simp only
    rw [made_say_bind, made_say_bind, made_bind, effect_withoutStale, quiet]
    simp only
    rw [made_bind, saves]
    simp only [made_pure, List.nil_append, List.append_nil, List.cons_append]

/-- How a synchronizing pass went until it knew what to delete: it listed, loaded and added
services, and listed again; then the configuration was settled. -/
inductive Surveyed (answer : Answers σ) (settings : Settings) (services : List Service) (state : σ)
    (current : List Reservation) : List (σ × Call) → Prop where
  | intro {listed : List Reservation} {loaded? last? : Option Config} {cidrs : List String}
      {opened readied added : σ} {saving : List (σ × Call)} :
      effect answer state (Pass.listReservations settings) = (.ok listed, opened) →
      effect answer opened (loadGiven settings) = (.ok loaded?, readied) →
      Adds answer settings listed readied loaded? services cidrs last? added →
      (answer added (.listReservations settings.projectId)).1 = .ok current →
      Stored answer settings loaded? (last?.map fun config => unmapped cidrs config config.poolAddresses) saving →
      Surveyed answer settings services state current
        (made answer state (Pass.listReservations settings) ++ (made answer opened (loadGiven settings) ++
          (made answer readied (Pass.addServices settings listed loaded? services) ++
            (added, .listReservations settings.projectId) :: saving)))

theorem survey_ok {services : List Service} {orphans : List Reservation} {state after : σ}
    (ok : effect answer state (survey settings services) = (.ok orphans, after)) :
    ∃ current, orphans = current.filter (leftOver settings (tagsOf services)) ∧
      Surveyed answer settings services state current (made answer state (survey settings services)) := by
  obtain ⟨listed, opened, lists, rest⟩ := (effect_bind_ok answer).mp ok
  obtain ⟨loaded?, readied, loads, rest⟩ := (effect_bind_ok answer).mp rest
  obtain ⟨⟨cidrs, last?⟩, added, adds, tidies⟩ := (effect_bind_ok answer).mp rest
  have adding := addServices_adds adds
  have given : settings.location = none ∨ last?.isSome := by
    cases located : settings.location with
    | none => exact .inl rfl
    | some location =>
      obtain ⟨loaded, rfl, _⟩ := loadGiven_ok answer opened located loads
      obtain ⟨final, rfl, _⟩ := adding.maps loaded rfl
      exact .inr rfl
  obtain ⟨current, saving, answered, same, stored, asks⟩ := tidy_ok given tidies
  refine ⟨current, same, ?_⟩
  unfold survey
  rw [made_bind, lists]
  simp only
  rw [made_bind, loads]
  simp only
  rw [made_bind, adds]
  simp only [asks]
  exact .intro lists loads adding answered stored

theorem Surveyed.listed {services : List Service} {state : σ} {current : List Reservation} {calls : List (σ × Call)}
    (surveyed : Surveyed answer settings services state current calls) {reservation : Reservation}
    (member : reservation ∈ current) : Listed answer calls reservation := by
  cases surveyed with
  | intro _ _ _ answered _ => exact ⟨_, _, current, by simp, answered, member⟩

/-- The deletions among the calls of a pass are right for what the pass is to do. -/
structure Justified (answer : Answers σ) (settings : Settings) (mode : Mode) (services : List Service) (state : σ)
    (result : Except PassError Unit) (calls : List (σ × Call)) : Prop where
  own : ∀ id ∈ deletions calls, ∃ reservation, Listed answer calls reservation ∧ reservation.id = id ∧
    settings.providerTag ∈ reservation.tags
  adding : mode = .add → deletions calls = []
  removing : mode = .remove → ∀ id ∈ deletions calls, ∃ reservation, Listed answer calls reservation ∧ reservation.id = id ∧
    settings.providerTag ∈ reservation.tags ∧ ∃ tag ∈ tagsOf services, tag ∈ reservation.tags
  failed : mode = .sync → ∀ error, result = .error error → deletions calls = []
  /-- First comes all that there is to be known and stored, then each left-over of the second
  listing is to be deleted, in the order of that listing. -/
  synchronized : mode = .sync → result = .ok () → ∃ current earlier deleting, calls = earlier ++ deleting ∧
    Surveyed answer settings services state current earlier ∧ deletions earlier = [] ∧
    deleting.map Prod.snd = (current.filter (leftOver settings (tagsOf services))).map (.deleteReservation ·.id)

/-- What the first listing of a pass came to was listed. -/
theorem first_listed {state opened : σ} {listed : List Reservation} {reservation : Reservation}
    (lists : effect answer state (Pass.listReservations settings) = (.ok listed, opened)) (member : reservation ∈ listed)
    (next : List Reservation → Pass α) :
    Listed answer (made answer state (Pass.listReservations settings >>= next)) reservation := by
  obtain ⟨asks, answered⟩ := listing_listed lists
  rw [made_bind, asks]
  exact ⟨state, settings.projectId, listed, List.mem_append_left _ (List.mem_singleton.mpr rfl), answered, member⟩

theorem add_spares (services : List Service) (state : σ) :
    deletions (made answer state (Pass.listReservations settings >>= fun listed => loadGiven settings >>= fun loaded =>
      perform settings .add listed loaded services)) = [] := by
  have makes : Makes [.list, .load, .create, .get, .update, .patch]
      (Pass.listReservations settings >>= fun listed => loadGiven settings >>= fun loaded =>
        perform settings .add listed loaded services) := by
    refine .bind (makes_listReservations settings (by decide)) fun listed => ?_
    refine .bind (makes_loadGiven settings (by decide)) fun loaded => ?_
    refine .bind (makes_addServices settings (by decide) (by decide) (by decide) listed loaded services) fun added => ?_
    exact makes_saveIfChanged settings (by decide) loaded added.2
  exact deletions_eq_nil makes (by decide) state

theorem remove_deletes {services : List Service} {state : σ} {id : String}
    (member : id ∈ deletions (made answer state (Pass.listReservations settings >>= fun listed =>
      loadGiven settings >>= fun loaded => perform settings .remove listed loaded services))) :
    ∃ reservation, reservation.id = id ∧ (∃ tag ∈ tagsOf services, reservation.hasAllTags [tag, settings.providerTag] = true) ∧
      ∀ {α : Type} (next : List Reservation → Pass α),
        Listed answer (made answer state (Pass.listReservations settings >>= next)) reservation := by
  have lists : Makes [.list] (Pass.listReservations settings) := makes_listReservations settings (by decide)
  have loads : Makes [.load] (loadGiven settings) := makes_loadGiven settings (by decide)
  have saves (loaded config : Option Config) : Makes [.patch] (Pass.saveIfChanged settings loaded config) :=
    makes_saveIfChanged settings (by decide) loaded config
  rw [deletions_bind lists (by decide)] at member
  split at member
  next listed opened listing =>
    rw [deletions_bind loads (by decide)] at member
    split at member
    next loaded readied loading =>
      rw [perform, made_bind, deletions_append] at member
      have removed : id ∈ deletions (made answer readied (Pass.removeServices settings listed loaded services)) := by
        rcases List.mem_append.mp member with member | member
        · exact member
        · split at member
          · rw [deletions_eq_nil (saves loaded _) (by decide)] at member
            cases member
          · cases member
      obtain ⟨reservation, found, same, tagged⟩ := removeServices_deletes removed
      exact ⟨reservation, same, tagged, first_listed listing found⟩
    next => cases member
  next => cases member

theorem sync_failed (services : List Service) {state after : σ} {error : PassError}
    (failed : effect answer state (survey settings services >>= Pass.deleteOrphans) = (.error error, after)) :
    deletions (made answer state (survey settings services >>= Pass.deleteOrphans)) = [] := by
  rw [deletions_bind (makes_survey services) (by decide)]
  rw [effect_bind] at failed
  generalize effect answer state (survey settings services) = result at failed ⊢
  obtain ⟨_ | orphans, surveyed⟩ := result
  · rfl
  · have succeeds := (@deleteOrphans_deletes σ answer orphans surveyed).1
    simp only at failed
    rw [failed] at succeeds
    cases succeeds

theorem sync_ok (services : List Service) {state after : σ}
    (ok : effect answer state (survey settings services >>= Pass.deleteOrphans) = (.ok (), after)) :
    ∃ current earlier deleting,
      made answer state (survey settings services >>= Pass.deleteOrphans) = earlier ++ deleting ∧
      Surveyed answer settings services state current earlier ∧ deletions earlier = [] ∧
      deleting.map Prod.snd = (current.filter (leftOver settings (tagsOf services))).map (.deleteReservation ·.id) := by
  obtain ⟨orphans, between, surveys, _⟩ := (effect_bind_ok answer).mp ok
  obtain ⟨current, same, surveyed⟩ := survey_ok surveys
  refine ⟨current, _, made answer between (Pass.deleteOrphans orphans), ?_, surveyed, ?_, ?_⟩
  · rw [made_bind, surveys]
  · exact deletions_eq_nil (makes_survey services) (by decide) state
  · rw [← same]
    exact (deleteOrphans_deletes orphans between).2

/-- What is to be deleted by calls of this kind alone are the IDs that they name. -/
theorem deletions_of_calls {calls : List (σ × Call)} {reservations : List Reservation}
    (asks : calls.map Prod.snd = reservations.map (.deleteReservation ·.id)) :
    deletions calls = reservations.map (·.id) := by
  have named : deletions calls = (calls.map Prod.snd).filterMap fun
      | .deleteReservation id => some id
      | _ => none := by
    rw [List.filterMap_map]
    apply List.filterMap_congr
    rintro ⟨before, call⟩ _
    cases call <;> rfl
  rw [named, asks, List.filterMap_map]
  exact congrFun List.filterMap_eq_map reservations

/-- Whatever the world answers, a pass tries to delete none but the agent's own reservations:
one that adds services deletes nothing, one that removes them only what is reserved for them,
and one that synchronizes exactly what is left over, once everything else is done. -/
theorem deletions_justified (answer : Answers σ) (settings : Settings) (mode : Mode) (batch : List Service) (state : σ) :
    Justified answer settings mode (batch.filter (·.isLoadBalancer)) state
      (effect answer state (Pass.services settings mode batch)).1 (made answer state (Pass.services settings mode batch)) := by
  rw [effect_services, made_services]
  generalize batch.filter (·.isLoadBalancer) = services
  cases mode with
  | add =>
    have none := @add_spares σ answer settings services state
    refine ⟨?_, fun _ => none, nofun, nofun, nofun⟩
    intro id member
    rw [none] at member
    cases member
  | remove =>
    refine ⟨?_, nofun, fun _ => ?_, nofun, nofun⟩
    · intro id member
      obtain ⟨reservation, same, ⟨tag, _, tagged⟩, listed⟩ := remove_deletes member
      have both : tag ∈ reservation.tags ∧ settings.providerTag ∈ reservation.tags := by
        simpa [Reservation.hasAllTags] using tagged
      exact ⟨reservation, listed _, same, both.2⟩
    · intro id member
      obtain ⟨reservation, same, ⟨tag, inside, tagged⟩, listed⟩ := remove_deletes member
      have both : tag ∈ reservation.tags ∧ settings.providerTag ∈ reservation.tags := by
        simpa [Reservation.hasAllTags] using tagged
      exact ⟨reservation, listed _, same, both.2, tag, inside, both.1⟩
  | sync =>
    rw [sync_eq]
    generalize ran : effect answer state (survey settings services >>= Pass.deleteOrphans) = result
    obtain ⟨error | ⟨⟩, after⟩ := result
    · have none := sync_failed services ran
      refine ⟨?_, nofun, nofun, fun _ _ _ => none, fun _ => nofun⟩
      intro id member
      rw [none] at member
      cases member
    · obtain ⟨current, earlier, deleting, split, surveyed, quiet, asks⟩ := sync_ok services ran
      refine ⟨?_, nofun, nofun, fun _ _ => nofun, fun _ _ => ?_⟩
      · intro id member
        rw [split, deletions_append, quiet, List.nil_append, deletions_of_calls asks] at member
        obtain ⟨reservation, left, same⟩ := List.mem_map.mp member
        obtain ⟨found, leftOver⟩ := List.mem_filter.mp left
        have own : settings.providerTag ∈ reservation.tags := by
          simpa using (Bool.and_eq_true_iff.mp leftOver).1
        rw [split]
        exact ⟨reservation, (surveyed.listed found).append_left deleting, same, own⟩
      · exact ⟨current, earlier, deleting, split, surveyed, quiet, asks⟩

end PeerPool.Proofs.Deletions
