import Mathlib.Data.List.Forall2
import PeerPool.Proofs.Resumption
import PeerPool.Proofs.Synchronized

/-! A synchronizing pass that went well leaves nothing to do for the next one. Every service
was told an address that reads back as that of its reservation, so it comes out with the same
text again; exactly these texts are mapped, and what was reserved for nobody is gone. -/

namespace PeerPool.Proofs.FixedPoint
open PassLogic PassDocument PassServices PassCalls PassPools PoolEdits Sites SiteEffects Interruptions Resumption Synchronized
open Provider Cluster

variable {σ α β : Type} {answer : Answers σ} {settings : Settings} {offers : Nat → Offer}

/-- The pass succeeds, makes calls of these kinds only, and leaves the state as it is. -/
def Idle (answer : Answers σ) (kinds : List Kind) (state : σ) (pass : Pass α) (value : α) : Prop :=
  Meets answer (fun _ call => kind call ∈ kinds) state pass fun result after => result = .ok value ∧ after = state

section

variable {kinds : List Kind} {state : σ}

theorem Idle.of_effect {pass : Pass α} {value : α} (makes : Makes kinds pass)
    (ran : effect answer state pass = (.ok value, state)) : Idle answer kinds state pass value := by
  refine ⟨fun _ _ member => makes.only member, ?_⟩
  rw [ran]
  exact ⟨rfl, rfl⟩

theorem Idle.effect {pass : Pass α} {value : α} (idle : Idle answer kinds state pass value) :
    effect answer state pass = (.ok value, state) := Prod.ext idle.ends.1 idle.ends.2

theorem Idle.say_bind {level : Level} {text : String} {next : Unit → Pass α} {value : α}
    (later : Idle answer kinds state (next ()) value) : Idle answer kinds state (Pass.say level text >>= next) value :=
  Meets.say_bind later

theorem Idle.bind {pass : Pass α} {next : α → Pass β} {value : α} {result : β} (first : Idle answer kinds state pass value)
    (later : Idle answer kinds state (next value) result) : Idle answer kinds state (pass >>= next) result := by
  refine Meets.bind first ?_ ?_
  · rintro _ _ ⟨same, rfl⟩
    cases same
    exact later
  · rintro _ _ ⟨failed, _⟩
    cases failed

/-- A service has an address, and this is what a pass makes of it. -/
def Standing (settings : Settings) (held : List Reservation) (service : Service) (cidr : String) : Prop :=
  ∃ identity address, service.identity? = some identity ∧ service.assignedAddress? = some address ∧
    knownCidr (Pass.owned? settings identity held) address = cidr

section

variable {held : List Reservation} {cidr : String} {config? : Option Config}

/-- To map what is mapped changes nothing. -/
theorem mapGiven_idle (identity : Identity) (present : ∀ config ∈ config?, cidr ∈ config.poolAddresses) :
    Idle answer kinds state (mapGiven identity (some cidr) config?) ⟨some cidr, config?⟩ := by
  have same : mapped identity (some cidr) config? = config? := by
    cases config? with
    | none => rfl
    | some config => exact congrArg some (addPool_mapped config (present config rfl) _ rfl)
  apply Idle.of_effect (makes_mapGiven identity _ config?)
  rw [effect_mapGiven, same]

theorem addService_idle {service : Service} (standing : Standing settings held service cidr)
    (present : ∀ config ∈ config?, cidr ∈ config.poolAddresses) :
    Idle answer kinds state (Pass.addService settings held config? service) ⟨some cidr, config?⟩ := by
  obtain ⟨identity, address, known, assigned, rfl⟩ := standing
  rw [addService_known known, addressOf_eq, assigned]
  simp only [Pass.debug, bind_assoc, pure_bind]
  exact Idle.say_bind (mapGiven_idle identity present)

theorem addServices_idle {services : List Service} {cidrs : List String}
    (standing : List.Forall₂ (Standing settings held) services cidrs)
    (present : ∀ config ∈ config?, ∀ cidr ∈ cidrs, cidr ∈ config.poolAddresses) :
    Idle answer kinds state (Pass.addServices settings held config? services) (cidrs, config?) := by
  induction standing with
  | nil => exact .of_effect (.pure _) rfl
  | @cons service cidr rest others first _ ih =>
    have here : Idle answer kinds state (Pass.addService settings held config? service) ⟨some cidr, config?⟩ :=
      addService_idle first fun config known => present config known cidr (List.mem_cons_self ..)
    have later := ih fun config known other member => present config known other (List.mem_cons_of_mem _ member)
    exact here.bind (later.bind (.of_effect (.pure _) rfl))

end

theorem saveIfChanged_idle (config? : Option Config) :
    Idle answer kinds state (Pass.saveIfChanged settings config? config?) () := by
  unfold Pass.saveIfChanged
  cases settings.location with
  | none => exact .of_effect (.pure ()) rfl
  | some location =>
    cases config? with
    | none => exact .of_effect (.pure ()) rfl
    | some config =>
      simp only [if_true]
      exact .of_effect (.say _ _) rfl

end

/-- A site is in line with services by these addresses: it needs no more of a synchronizing pass. -/
structure Settled (settings : Settings) (offers : Nat → Offer) (site : Site) (services : List Service)
    (cidrs : List String) (config? : Option Config) : Prop where
  standing : List.Forall₂ (Standing settings site.reservations) services cidrs
  loads : effect (Site.answer offers) site (loadGiven settings) = (.ok config?, site)
  pools : ∀ config ∈ config?, ∀ address, address ∈ config.poolAddresses ↔ address ∈ cidrs
  clean : site.reservations.filter (leftOver settings (tagsOf services)) = []

theorem Settled.idle {site : Site} {batch : List Service} {cidrs : List String} {config? : Option Config}
    (settled : Settled settings offers site (batch.filter (·.isLoadBalancer)) cidrs config?) :
    Idle (Site.answer offers) [.list, .load] site (Pass.services settings .sync batch) () := by
  rw [services_eq]
  generalize batch.filter (·.isLoadBalancer) = services at settled ⊢
  have lists : Idle (Site.answer offers) [.list, .load] site (Pass.listReservations settings) site.reservations :=
    .of_effect (makes_listReservations settings (by decide)) rfl
  have loads : Idle (Site.answer offers) [.list, .load] site (loadGiven settings) config? :=
    .of_effect (makes_loadGiven settings (by decide)) settled.loads
  have adds : Idle (Site.answer offers) [.list, .load] site
      (Pass.addServices settings site.reservations config? services) (cidrs, config?) :=
    addServices_idle settled.standing fun config known cidr => (settled.pools config known cidr).mpr
  have removes : Idle (Site.answer offers) [.list, .load] site (withoutStale cidrs config?) config? := by
    have kept : (config?.map fun config => unmapped cidrs config config.poolAddresses) = config? := by
      cases config? with
      | none => rfl
      | some config => exact congrArg some (unmapped_valid config fun address => (settled.pools config rfl address).mp)
    apply Idle.of_effect (makes_withoutStale cidrs config?)
    rw [effect_withoutStale, kept]
  have deletes : Idle (Site.answer offers) [.list, .load] site
      (Pass.deleteOrphans (Pass.orphans settings (tagsOf services) site.reservations)) () := by
    rw [orphans_eq, settled.clean]
    exact .of_effect (.pure ()) rfl
  have cleans : Idle (Site.answer offers) [.list, .load] site (cleanUp settings config? services (cidrs, config?)) () :=
    lists.bind (.say_bind (.say_bind (removes.bind ((saveIfChanged_idle config?).bind deletes))))
  refine .say_bind (lists.bind (loads.bind ?_))
  rw [perform, syncServices_eq]
  exact adds.bind cleans

section

variable {listed : List Reservation} {config? last? : Option Config} {services : List Service} {cidrs : List String}
  {site after : Site}

/-- Services that were added can be added again, and then come out as they did. -/
theorem addServices_stand (free : ∀ identity : Identity, identity.tag ≠ settings.providerTag)
    (ready : Ready settings listed site services)
    (ok : effect (Site.answer offers) site (Pass.addServices settings listed config? services) = (.ok (cidrs, last?), after)) :
    ∃ change, Resumes settings offers listed site config? services after change ∧
      List.Forall₂ (Standing settings after.reservations) (services.map change) cidrs := by
  induction services generalizing site config? cidrs with
  | nil =>
    cases ok
    exact ⟨id, resumes_here ready, .nil⟩
  | cons service rest ih =>
    obtain ⟨_, between, first, remaining⟩ := (effect_bind_ok _).mp ok
    cases known : service.identity? with
    | none =>
      rw [addService_eq, Pass.identityOf, known] at first
      cases first
    | some identity =>
      obtain ⟨cidr, change, _, covers, covered⟩ :=
        covers_addService settings offers listed site config? (ready.stored service (List.mem_cons_self ..)) known
      cases first.symm.trans covered
      obtain ⟨⟨others, _⟩, last, adds, same⟩ := (effect_bind_ok _).mp remaining
      cases same
      obtain ⟨later, resumes, standing⟩ := ih (ready.next known free covers) adds
      refine ⟨later ∘ change, resumes_later free ready known covers covered resumes, ?_⟩
      rw [ready.changed known covers resumes.others]
      refine .cons ?_ standing
      -- What is added later takes nothing from the reservation that this service goes by.
      obtain ⟨address, holds, same⟩ := covers.assigned (ready.agree service (List.mem_cons_self ..) identity known) known
      rw [← resumes.owned identity (ready.absent known)] at same
      exact ⟨identity, address, (covers.faithful.identity service).trans known, holds, same⟩

/-- What is left over of a registry is no service's own. -/
theorem owned_kept {identity : Identity} {tags : List String} (member : identity.tag ∈ tags) (held : List Reservation) :
    Pass.owned? settings identity (held.filter (!leftOver settings tags ·)) = Pass.owned? settings identity held := by
  rw [Pass.owned?, Pass.owned?, findByAllTags?, findByAllTags?, List.find?_filter]
  congr 1
  funext reservation
  rw [Bool.eq_iff_iff, decide_eq_true_iff, and_iff_right_iff_imp]
  intro all
  have tagged : reservation.tags.contains identity.tag = true := by
    simp only [Reservation.hasAllTags, List.all_cons, Bool.and_eq_true] at all
    exact all.1
  have live : tags.any reservation.tags.contains = true := List.any_eq_true.mpr ⟨_, member, tagged⟩
  simp [leftOver, live]

theorem Standing.kept {service : Service} {cidr : String} {held : List Reservation} (standing : Standing settings held service cidr)
    (member : service ∈ services) : Standing settings (held.filter (!leftOver settings (tagsOf services) ·)) service cidr := by
  obtain ⟨identity, address, known, holds, same⟩ := standing
  refine ⟨identity, address, known, holds, ?_⟩
  rw [owned_kept (mem_tagsOf member known)]
  exact same

theorem standings_kept {all : List Service} {held : List Reservation} (inside : ∀ service ∈ services, service ∈ all)
    (standing : List.Forall₂ (Standing settings held) services cidrs) :
    List.Forall₂ (Standing settings (held.filter (!leftOver settings (tagsOf all) ·))) services cidrs := by
  induction standing with
  | nil => exact .nil
  | cons first _ ih =>
    refine .cons (first.kept (inside _ (List.mem_cons_self ..))) (ih ?_)
    intro service member
    exact inside service (List.mem_cons_of_mem _ member)

theorem services_kept (site : Site) {call : Call} (other : kind call ≠ .update) :
    (site.answer offers call).2.services = site.services := by
  cases call with
  | updateService service => exact absurd rfl other
  | _ => rfl

/-- A configuration that can be read is there, for something that cannot be may stand in for a missing one. -/
theorem load_read {config : Config} (read : Config.read (site.document.getD "-") = .ok config) (name : String) :
    effect (Site.answer offers) site (Pass.load name) = (.ok config, site) := by
  cases stored : site.document with
  | none =>
    have unreadable : (Config.read "-").toOption = none := by decide +kernel
    rw [stored, Option.getD_none] at read
    rw [read] at unreadable
    cases unreadable
  | some text =>
    rw [stored, Option.getD_some] at read
    refine effect_load_ok _ _ _ _ ?_ read
    rw [Site.answer, Site.load, stored]

/-- Once all is added and cleaned up, the configuration loads with the addresses of the services mapped. -/
theorem cleanUp_loads (loads : effect (Site.answer offers) site (loadGiven settings) = (.ok config?, site)) {added : Site}
    (adds : effect (Site.answer offers) site (Pass.addServices settings listed config? services) = (.ok (cidrs, last?), added))
    (same : added.document = site.document)
    (cleans : effect (Site.answer offers) added (cleanUp settings config? services (cidrs, last?)) = (.ok (), after)) :
    ∃ final?, effect (Site.answer offers) after (loadGiven settings) = (.ok final?, after) ∧
      ∀ final ∈ final?, ∀ address, address ∈ final.poolAddresses ↔ address ∈ cidrs := by
  cases located : settings.location with
  | none =>
    refine ⟨none, ?_, by simp⟩
    rw [loadGiven, located]
    rfl
  | some location =>
    obtain ⟨loaded, rfl, opens⟩ := loadGiven_ok _ _ located loads
    obtain ⟨final, known, maps⟩ := (addServices_adds adds).maps loaded rfl
    cases known
    have store : Store (Site.answer offers) location.name (·.document.getD "-") := store_site offers location.name "-"
    have before : Config.read (added.document.getD "-") = .ok loaded := by
      rw [same]
      exact loaded_is_stored store opens
    have saved := cleanUp_saves store located before cleans
    refine ⟨some (unmapped cidrs final final.poolAddresses), ?_, ?_⟩
    · rw [loadGiven, located]
      simp only [map_eq_pure_bind, effect_bind, load_read saved]
      rfl
    · rintro _ ⟨⟩ address
      exact mem_unmapped_maps maps

end

/-- No two reservations that are held or will be offered have the same ID. -/
def DistinctIds (offers : Nat → Offer) (site : Site) : Prop :=
  ∀ later, (site.reservations.map (·.id) ++ (List.range' site.created later).map fun number => (offers number).id).Nodup

theorem DistinctIds.held {site : Site} (distinct : DistinctIds offers site) : (site.reservations.map (·.id)).Nodup := by
  simpa using distinct 0

/-- Reserving an address takes the next ID, and an ID that is free again is not given twice. -/
theorem DistinctIds.step {site : Site} (distinct : DistinctIds offers site) (call : Call) :
    DistinctIds offers (site.answer offers call).2 := by
  cases call with
  | deleteReservation id => exact fun later => (distinct later).sublist ((List.filter_sublist.map _).append_right _)
  | createReservation project request =>
    intro later
    have next := distinct (later + 1)
    rw [List.range'_succ, List.map_cons] at next
    simpa [Site.answer, Site.create, Offer.reservation] using next
  | updateService service =>
    simp only [Site.answer, Site.update]
    split <;> exact distinct
  | _ => exact distinct

theorem cleanUp_settles {listed : List Reservation} {config? last? : Option Config} {services : List Service}
    {cidrs : List String} {site added after : Site} {change : Service → Service} (distinct : DistinctIds offers site)
    (loads : effect (Site.answer offers) site (loadGiven settings) = (.ok config?, site))
    (adds : effect (Site.answer offers) site (Pass.addServices settings listed config? services) = (.ok (cidrs, last?), added))
    (resumes : Resumes settings offers listed site config? services added change)
    (standing : List.Forall₂ (Standing settings added.reservations) (services.map change) cidrs)
    (cleans : effect (Site.answer offers) added (cleanUp settings config? services (cidrs, last?)) = (.ok (), after)) :
    after.services = site.services.map change ∧ ∃ final?, Settled settings offers after (services.map change) cidrs final? := by
  have adding : Makes [.create, .get, .update] (Pass.addServices settings listed config? services) :=
    makes_addServices settings (by decide) (by decide) (by decide) listed config? services
  have cleaning : Makes [.list, .patch, .delete] (cleanUp settings config? services (cidrs, last?)) :=
    makes_cleanUp settings (by decide) (by decide) (by decide) _ _ _
  have ids : DistinctIds offers added := adding.preserves adds (DistinctIds offers) (fun _ call _ ids => ids.step call) distinct
  have stored : after.services = added.services := by
    apply cleaning.frame cleans Site.services
    intro between call known
    apply services_kept
    intro same
    rw [same] at known
    exact absurd known (by decide)
  obtain ⟨_, _, lists, deleted⟩ := cleanUp_deletes (inventory_site offers) cleans
  cases lists
  have reservations := deleted (fun _ _ _ => rfl) ids.held
  rw [← resumes.faithful.tags services] at reservations
  obtain ⟨final?, reloads, pools⟩ := cleanUp_loads loads adds resumes.document cleans
  refine ⟨stored.trans resumes.stored, final?, ?_, reloads, pools, ?_⟩
  · rw [reservations]
    exact standings_kept (fun _ member => member) standing
  · simp [reservations, List.filter_filter]

/-- After a synchronizing pass that succeeds, another one over the services as they are then
stored lists and loads, and neither changes nor fails. -/
theorem sync_settles (offers : Nat → Offer) (settings : Settings)
    (free : ∀ identity : Identity, identity.tag ≠ settings.providerTag) (site after : Site)
    (distinct : Distinct site.services) (ids : DistinctIds offers site)
    (ok : effect (Site.answer offers) site (Pass.services settings .sync site.services) = (.ok (), after)) :
    effect (Site.answer offers) after (Pass.services settings .sync after.services) = (.ok (), after) ∧
      ∀ before call, (before, call) ∈ made (Site.answer offers) after (Pass.services settings .sync after.services) →
        kind call = .list ∨ kind call = .load := by
  rw [effect_services] at ok
  obtain ⟨listed, _, lists, ok⟩ := (effect_bind_ok _).mp ok
  cases lists
  obtain ⟨config?, _, loads, ok⟩ := (effect_bind_ok _).mp ok
  have unchanged := congrArg Prod.snd (loads.symm.trans (effect_loadGiven rfl))
  cases unchanged
  rw [perform, syncServices_eq] at ok
  obtain ⟨⟨cidrs, last?⟩, added, adds, cleans⟩ := (effect_bind_ok _).mp ok
  obtain ⟨change, resumes, standing⟩ := addServices_stand free (ready_site settings distinct) adds
  obtain ⟨stored, final?, settled⟩ := cleanUp_settles ids loads adds resumes standing cleans
  rw [← resumes.faithful.balancers, ← stored] at settled
  have idle := settled.idle
  refine ⟨idle.effect, ?_⟩
  intro before call member
  simpa using idle.calls before call member

section

/-- Where all reservations were made by counting up, so will the next ones be. -/
theorem distinct_counted {site : Site} (earlier : site.reservations.map (·.id) = (List.range' 0 site.created).map Nat.repr) :
    DistinctIds counted site := by
  intro later
  have all : List.range' 0 site.created ++ List.range' site.created later = List.range' 0 (site.created + later) := by
    simpa using List.range'_append_1 (s := 0) (m := site.created) (n := later)
  change (_ ++ (List.range' site.created later).map Nat.repr).Nodup
  rw [earlier, ← List.map_append, all]
  have read (number : Nat) : Text.natural? 10 (Nat.repr number).toList = some number := by
    simp [Nat.repr, Numerals.natural?_toDigits]
  have injective : Function.Injective Nat.repr := by
    intro number other same
    have first := read number
    rw [same, read other] at first
    exact (Option.some.inj first).symm
  exact List.Nodup.map injective List.nodup_range'

/-- A service that is yet to get its address, and an address that is reserved and mapped for none. -/
def unsettledSite : Site where
  document := some staleConfig.write
  services := [web]
  reservations := [(counted 0).reservation [plain.providerTag]]
  created := 1

theorem sync_settles_web :
    ∃ after, effect (Site.answer counted) unsettledSite (Pass.services plain .sync unsettledSite.services) = (.ok (), after) ∧
      effect (Site.answer counted) after (Pass.services plain .sync after.services) = (.ok (), after) ∧
      ∀ before call, (before, call) ∈ made (Site.answer counted) after (Pass.services plain .sync after.services) →
        kind call = .list ∨ kind call = .load := by
  have ok : (effect (Site.answer counted) unsettledSite (Pass.services plain .sync unsettledSite.services)).1 = .ok () := by
    decide +kernel
  generalize ran : effect (Site.answer counted) unsettledSite (Pass.services plain .sync unsettledSite.services) = result at ok
  obtain ⟨reply, after⟩ := result
  cases ok
  have settled := sync_settles counted plain (tag_ne (by decide)) unsettledSite after (distinct_single web) (distinct_counted rfl) ran
  exact ⟨after, rfl, settled⟩

end

end PeerPool.Proofs.FixedPoint
