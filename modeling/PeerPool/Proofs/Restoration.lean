import PeerPool.Proofs.Additions

/-! A service that is added and then removed. The reservation that was made for it is found again by
its tags and given back, and its address is taken out of the pool that it was put in, so that both the
reservations and the configuration are as before. Where no configuration is kept, none is looked at. -/

namespace PeerPool.Proofs.Restoration
open PassLogic PassServices PassCalls PassPools PoolEdits PoolRemovals Holdings Synchronized Coverage Removals AddressSources Additions
open Sites Provider Cluster

variable {σ α : Type} {answer : Answers σ} {settings : Settings} {document : σ → String} {reservations : σ → List Reservation}

/-- The configuration that is kept reads like this, if one is to be kept. -/
def Reads (settings : Settings) (document : σ → String) (loaded : Config) (state : σ) : Prop :=
  ∀ location, settings.location = some location → Config.read (document state) = .ok loaded

structure Has (settings : Settings) (document : σ → String) (reservations : σ → List Reservation) (loaded : Config)
    (held : List Reservation) (state : σ) : Prop where
  reads : Reads settings document loaded state
  holds : reservations state = held

def Stores (answer : Answers σ) (settings : Settings) (document : σ → String) : Prop :=
  ∀ location, settings.location = some location → Store answer location.name document

/-- What a pass has for a configuration. -/
def given (settings : Settings) (config : Config) : Option Config := settings.location.map fun _ => config

theorem mapped_given (settings : Settings) (identity : Identity) (cidr : String) (config : Config) :
    mapped identity (some cidr) (given settings config) = given settings (config.addPool (Pass.poolOf identity cidr)).config := by
  unfold given
  cases settings.location <;> rfl

theorem Reads.frame (stores : Stores answer settings document) {loaded : Config} {state : σ} (reads : Reads settings document loaded state)
    {pass : Pass α} {kinds : List Kind} (makes : Makes kinds pass) (patches : .patch ∉ kinds) :
    Reads settings document loaded (effect answer state pass).2 := by
  intro location located
  have kept : document (effect answer state pass).2 = document state := (stores location located).frame (Prod.ext rfl rfl) makes patches
  rw [kept, reads location located]

section

variable (stores : Stores answer settings document) (holds : Holds answer reservations) {loaded : Config} {held : List Reservation}
  {state : σ} (has : Has settings document reservations loaded held state)
include stores holds has

theorem Has.frame {pass : Pass α} {kinds : List Kind} (makes : Makes kinds pass) (patches : .patch ∉ kinds) (creates : .create ∉ kinds)
    (deletes : .delete ∉ kinds) : Has settings document reservations loaded held (effect answer state pass).2 :=
  ⟨has.reads.frame stores makes patches, (holds.frame (Prod.ext rfl rfl) makes creates deletes).trans has.holds⟩

theorem granted_loadGiven : Succeeds answer state (loadGiven settings) fun loaded? after =>
    loaded? = given settings loaded ∧ Has settings document reservations loaded held after := by
  have makes : Makes [.load] (loadGiven settings) := makes_loadGiven settings (by decide)
  have loads : Succeeds answer state (loadGiven settings) fun loaded? _ => loaded? = given settings loaded := by
    unfold loadGiven given
    cases located : settings.location with
    | none => exact .anyway ⟨_, rfl, rfl⟩
    | some location =>
      simp only [map_eq_pure_bind]
      refine (granted_load (stores location located) holds (has.reads location located)).bind ?_
      rintro _ after ⟨rfl, _⟩
      exact .anyway ⟨_, rfl, rfl⟩
  exact loads.also (has.frame stores holds makes (by decide) (by decide) (by decide))

theorem granted_saveGiven (final : Config) :
    Succeeds answer state (Pass.saveIfChanged settings (given settings loaded) (given settings final)) fun _ after =>
      Has settings document reservations final held after := by
  cases located : settings.location with
  | none =>
    unfold Pass.saveIfChanged
    simp only [located]
    refine .anyway ⟨(), rfl, ?_, has.holds⟩
    intro location kept
    cases located.symm.trans kept
  | some location =>
    have saves := granted_saveIfChanged (stores location located) holds located final (has.reads location located)
    simp only [given, located, Option.map_some]
    refine saves.mono ?_
    rintro result after ⟨value, ok, saved, kept⟩
    exact ⟨value, ok, fun _ _ => saved, kept.trans has.holds⟩

theorem granted_pass (mode : Mode) (batch : List Service) {post : Except PassError Unit → σ → Prop}
    (performs : ∀ opened, Has settings document reservations loaded held opened →
      (∀ entry ∈ made answer opened (perform settings mode held (given settings loaded) (batch.filter (·.isLoadBalancer))),
        entry ∈ made answer state (Pass.services settings mode batch)) →
      Granted answer opened (perform settings mode held (given settings loaded) (batch.filter (·.isLoadBalancer))) post) :
    Granted answer state (Pass.services settings mode batch) post := by
  have lists : Makes [.list] (Pass.listReservations settings) := makes_listReservations settings (by decide)
  have parts : Granted answer state (Pass.listReservations settings >>= fun listed => loadGiven settings >>= fun loaded? =>
      perform settings mode listed loaded? (batch.filter (·.isLoadBalancer))) post := by
    have listed := (granted_listing holds settings state).also (has.frame stores holds lists (by decide) (by decide) (by decide))
    refine Granted.bind listed ?_ ?_
    · rintro _ listing ran ⟨_, ⟨⟩, rfl, kept⟩
      rw [has.holds] at ran ⊢
      refine Granted.bind (granted_loadGiven stores holds kept) ?_ ?_
      · rintro _ opened loads ⟨_, ⟨⟩, rfl, opens⟩
        refine performs opened opens ?_
        rintro ⟨before, call⟩ member
        rw [made_services]
        exact mem_made_bind answer ran (mem_made_bind answer loads member)
      · rintro _ _ ⟨_, ⟨⟩, _⟩
    · rintro _ _ ⟨_, ⟨⟩, _⟩
  intro grants
  rw [effect_services]
  rw [made_services] at grants
  exact parts grants

end

/-- A reservation that is made is added to those that are held, with the tags that were asked for. Neither
its ID nor its address is in use. -/
structure Appends (answer : Answers σ) (reservations : σ → List Reservation) (settings : Settings) (identity : Identity)
    (loaded : Config) (before : σ) (created : Reservation) : Prop where
  held : reservations (answer before (creation settings identity)).2 = reservations before ++ [created]
  tags : created.tags = (requestFor settings identity).tags
  fresh : ∀ other ∈ reservations before, other.id ≠ created.id
  unmapped : created.cidr ∉ loaded.poolAddresses

theorem Appends.carries {identity : Identity} {loaded : Config} {before : σ} {created : Reservation}
    (appends : Appends answer reservations settings identity loaded before created) : Carries settings identity created := by
  simp [Carries, appends.tags, requestFor, Request.single]

theorem granted_reserve (identity : Identity) (state : σ) :
    Succeeds answer state (Pass.reserve settings identity) fun reservation? after =>
      ∃ created, reservation? = some created ∧ answer state (creation settings identity) = (.ok created, after) := by
  intro grants
  obtain ⟨effects, asks⟩ := reserve_asks answer settings identity state
  have grants := grants state (creation settings identity) (asks ▸ List.mem_singleton_self _)
  rw [effects]
  cases made : answer state (creation settings identity) with
  | mk reply after =>
    rw [made] at grants
    cases reply with
    | error error => cases grants
    | ok created => exact ⟨_, rfl, created, rfl, rfl⟩

section

variable (stores : Stores answer settings document) (ledger : Ledger answer reservations) {service : Service} {identity : Identity}
  (known : service.identity? = some identity) {loaded : Config} {held : List Reservation} {state : σ}
  (has : Has settings document reservations loaded held state)
include stores ledger known has

theorem granted_anew (unassigned : service.assignedAddress? = none) (unowned : Pass.owned? settings identity held = none)
    (creates : (state, creation settings identity) ∈ made answer state (Pass.addServices settings held (given settings loaded) [service]) →
      ∀ created, (answer state (creation settings identity)).1 = .ok created →
        Appends answer reservations settings identity loaded state created) :
    Succeeds answer state (Pass.addServices settings held (given settings loaded) [service]) fun added after =>
      ∃ created, Appends answer reservations settings identity loaded state created ∧
        added.2 = given settings (loaded.addPool (Pass.poolOf identity created.cidr)).config ∧
        Has settings document reservations loaded (held ++ [created]) after := by
  have parts : Pass.addServices settings held (given settings loaded) [service] =
      Pass.reserve settings identity >>= fun reservation? => tellAddress identity reservation? >>= fun cidr? =>
        mapGiven identity cidr? (given settings loaded) >>= fun added => pure (added.cidr.toList, added.config) := by
    simp only [Pass.addServices, addService_known known, addressOf_eq, unassigned, reservationFor, unowned, bind_assoc, pure_bind,
      List.append_nil]
  rw [parts] at creates ⊢
  have asked : (state, creation settings identity) ∈ made answer state (Pass.reserve settings identity) :=
    (reserve_asks answer settings identity state).2 ▸ List.mem_singleton_self _
  have reserves : Makes [.create] (Pass.reserve settings identity) := makes_reserve settings (by decide) identity
  refine ((granted_reserve identity state).also (has.reads.frame stores reserves (by decide))).bind ?_
  rintro _ between ⟨⟨created, rfl, answered⟩, reads⟩
  have appends := creates (made_first answer _ asked) created (congrArg Prod.fst answered)
  have holds := appends.held
  rw [answered, has.holds] at holds
  have appended : Has settings document reservations loaded (held ++ [created]) between := ⟨reads, holds⟩
  have tells : Makes [.get, .update] (tellAddress identity (some created)) := makes_tellAddress (by decide) (by decide) identity _
  have told := appended.frame stores ledger.toHolds tells (by decide) (by decide) (by decide)
  refine ((granted_telling identity created between).also told).bind ?_
  rintro _ after ⟨rfl, kept⟩
  refine .anyway ?_
  rw [effect_bind, effect_mapGiven]
  exact ⟨_, rfl, created, appends, mapped_given settings identity created.cidr loaded, kept⟩

theorem granted_addition (asks : service.isLoadBalancer = true) (unassigned : service.assignedAddress? = none)
    (unowned : Pass.owned? settings identity held = none)
    (creates : ∀ before created, (before, creation settings identity) ∈ made answer state (Pass.services settings .add [service]) →
      (answer before (creation settings identity)).1 = .ok created →
        Appends answer reservations settings identity loaded before created) :
    Succeeds answer state (Pass.services settings .add [service]) fun _ after =>
      ∃ opened created, reservations opened = held ∧ Appends answer reservations settings identity loaded opened created ∧
        Has settings document reservations (loaded.addPool (Pass.poolOf identity created.cidr)).config (held ++ [created]) after := by
  refine granted_pass stores ledger.toHolds has .add [service] ?_
  rw [filter_asking asks]
  intro opened opens within
  refine (granted_anew stores ledger known opens unassigned unowned ?_).bind ?_
  · exact fun asked created answered => creates opened created (within _ (made_first answer _ asked)) answered
  · rintro added between ⟨created, appends, same, kept⟩
    rw [same]
    refine (granted_saveGiven stores ledger.toHolds kept _).mono ?_
    rintro result after ⟨_, ok, saved⟩
    exact ⟨_, ok, opened, created, opens.holds, appends, saved⟩

theorem granted_removal (asks : service.isLoadBalancer = true) :
    Succeeds answer state (Pass.services settings .remove [service]) fun _ after =>
      Has settings document reservations (unmapped [] loaded ((Pass.owned? settings identity held).toList.map (·.cidr)))
        (without held (Pass.owned? settings identity held).toList) after := by
  have named : ∀ other ∈ [service], other.identity?.isSome = true := by simp [known]
  have owns : reservedFor settings held [service] = (Pass.owned? settings identity held).toList := by
    cases owned : Pass.owned? settings identity held <;> simp [reservedFor, known, owned]
  refine granted_pass stores ledger.toHolds has .remove [service] ?_
  rw [filter_asking asks]
  intro opened opens _
  have makes : Makes [.delete] (Pass.removeServices settings held (given settings loaded) [service]) :=
    makes_removeServices settings (by decide) held _ [service]
  have frees := @granted_freeing σ answer settings reservations ledger _ named (given settings loaded) opened
  rw [opens.holds, owns] at frees
  refine (frees.also (opens.reads.frame stores makes (by decide))).bind ?_
  rintro _ between ⟨⟨rfl, gone⟩, unwritten⟩
  have same : (given settings loaded).map (fun config => unmapped [] config ((Pass.owned? settings identity held).toList.map (·.cidr))) =
      given settings (unmapped [] loaded ((Pass.owned? settings identity held).toList.map (·.cidr))) := Option.map_map ..
  rw [same]
  exact granted_saveGiven stores ledger.toHolds ⟨unwritten, gone⟩ _

end

theorem without_new {held : List Reservation} {created : Reservation} (fresh : ∀ other ∈ held, other.id ≠ created.id) :
    without (held ++ [created]) [created] = held := by
  have stays : without held [created] = held := List.filter_eq_self.mpr fun other member => by simp [fresh other member]
  have goes : without [created] [created] = [] := by simp [without]
  rw [without, List.filter_append, ← without, ← without, stays, goes, List.append_nil]

theorem removal_undoes_addition (stores : Stores answer settings document) (ledger : Ledger answer reservations)
    {service : Service} (asks : service.isLoadBalancer = true) {identity : Identity} (known : service.identity? = some identity)
    (unassigned : service.assignedAddress? = none) {loaded : Config} {held : List Reservation} {state : σ}
    (has : Has settings document reservations loaded held state)
    (unowned : ∀ reservation ∈ held, ¬ Carries settings identity reservation)
    (filled : ∀ pool ∈ loaded.pools, pool.name = identity.write → pool.addresses ≠ [])
    (creates : ∀ before created, (before, creation settings identity) ∈ made answer state (Pass.services settings .add [service]) →
      (answer before (creation settings identity)).1 = .ok created →
        Appends answer reservations settings identity loaded before created)
    (adds : Grants answer state (Pass.services settings .add [service]))
    {again : Service} (asksAgain : again.isLoadBalancer = true) (same : again.identity? = some identity)
    (removes : Grants answer (effect answer state (Pass.services settings .add [service])).2 (Pass.services settings .remove [again])) :
    ∃ added removed, effect answer state (Pass.services settings .add [service]) = (.ok (), added) ∧
      effect answer added (Pass.services settings .remove [again]) = (.ok (), removed) ∧
      Has settings document reservations loaded held removed := by
  have unreserved := owned_none.mpr unowned
  obtain ⟨⟨⟩, ok, opened, created, holds, appends, added⟩ :=
    granted_addition stores ledger known has asks unassigned unreserved creates adds
  generalize effect answer state (Pass.services settings .add [service]) = ran at ok added removes
  obtain ⟨_, middle⟩ := ran
  cases ok
  obtain ⟨⟨⟩, ok, removed⟩ := granted_removal stores ledger same added asksAgain removes
  refine ⟨middle, _, rfl, Prod.ext ok rfl, ?_⟩
  have owned : Pass.owned? settings identity (held ++ [created]) = some created :=
    owned_append unreserved (by simp [Reservation.hasAllTags, appends.carries.1, appends.carries.2])
  have changed : (loaded.addPool (Pass.poolOf identity created.cidr)).changed = true := by
    rw [addPool_unmapped loaded appends.unmapped _ rfl]
  have unmaps : unmapped [] (loaded.addPool (Pass.poolOf identity created.cidr)).config [created.cidr] = loaded :=
    unmapped_addPool loaded changed filled fun _ => Iff.rfl
  rw [owned, Option.toList_some, List.map_singleton, unmaps, without_new (holds ▸ appends.fresh)] at removed
  exact removed

section

/-- A pool of the service's name that somebody else put an address in. -/
def shared : Config where
  pools := [{ name := "shop/web", protocol := "bgp", addresses := ["10.9.9.9/32"] }]

def sharedSite : Site where
  document := some shared.write
  services := [web]
  keys := keys_single web

theorem shared_grants : Grants (Site.answer counted) sharedSite (Pass.services plain .add [web]) ∧
    Grants (Site.answer counted) (effect (Site.answer counted) sharedSite (Pass.services plain .add [web])).2
      (Pass.services plain .remove [web]) := by decide +kernel

theorem shared_appends (before : Site) (created : Reservation)
    (asked : (before, creation plain ⟨"shop", "web"⟩) ∈ made (Site.answer counted) sharedSite (Pass.services plain .add [web]))
    (answered : (Site.answer counted before (creation plain ⟨"shop", "web"⟩)).1 = .ok created) :
    Appends (Site.answer counted) Site.reservations plain ⟨"shop", "web"⟩ shared before created := by
  have creates : ∀ entry ∈ made (Site.answer counted) sharedSite (Pass.services plain .add [web]),
      kind entry.2 = .create → entry.1.reservations = [] ∧ entry.1.created = 0 := by decide +kernel
  obtain ⟨empty, first⟩ := creates _ asked rfl
  cases answered
  refine ⟨rfl, rfl, ?_, ?_⟩
  · rw [empty]
    exact nofun
  · rw [first]
    decide +kernel

theorem removal_undoes_addition_web :
    (Has plain (·.document.getD "") Site.reservations shared [] sharedSite ∧ web.isLoadBalancer = true ∧
      web.identity? = some ⟨"shop", "web"⟩ ∧ web.assignedAddress? = none ∧
      Grants (Site.answer counted) sharedSite (Pass.services plain .add [web]) ∧
      Grants (Site.answer counted) (effect (Site.answer counted) sharedSite (Pass.services plain .add [web])).2
        (Pass.services plain .remove [web])) ∧
    ∃ added removed, effect (Site.answer counted) sharedSite (Pass.services plain .add [web]) = (.ok (), added) ∧
      effect (Site.answer counted) added (Pass.services plain .remove [web]) = (.ok (), removed) ∧
      Has plain (·.document.getD "") Site.reservations shared [] removed := by
  have stores : Stores (Site.answer counted) plain (·.document.getD "") := fun location _ => store_site counted location.name ""
  have has : Has plain (·.document.getD "") Site.reservations shared [] sharedSite :=
    ⟨fun _ _ => ConfigRoundTrip.read_write shared, rfl⟩
  have known : web.identity? = some ⟨"shop", "web"⟩ := rfl
  have filled : ∀ pool ∈ shared.pools, pool.name = Identity.write ⟨"shop", "web"⟩ → pool.addresses ≠ [] := by decide
  obtain ⟨adds, removes⟩ := shared_grants
  exact ⟨⟨has, rfl, rfl, rfl, adds, removes⟩, removal_undoes_addition stores (Unmapping.ledger_site counted) rfl known rfl has
    nofun filled shared_appends adds rfl known removes⟩

end

end PeerPool.Proofs.Restoration
