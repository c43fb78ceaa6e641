import PeerPool.Proofs.Deletions
import PeerPool.Proofs.Drifts
import PeerPool.Proofs.PeersSynchronized

/-! What it takes for a node or a service to be covered, where every call is granted: a pass that
adds it covers it, and a pass that synchronizes with a batch that shows it leaves it covered. -/

namespace PeerPool.Proofs.Coverage
open PassLogic PassDocument PassServices PassCalls PassPools PassPeers PoolEdits PeerEdits Holdings Synchronized PeersSynchronized Drifts
open Provider Cluster

variable {σ α β : Type} {answer : Answers σ}

def granted : (call : Call) → call.Answer → Bool
  | .loadDocument _, reply => reply.isOk
  | .patchDocument _ _, reply => reply.isOk
  | .resolvePeers _, reply => reply.isOk
  | .listReservations _, reply => reply.isOk
  | .createReservation _ _, reply => reply.isOk
  | .deleteReservation _, reply => reply.isOk
  | .getService _ _, reply => reply.isOk
  | .updateService _, reply => reply.isOk

/-- Every call that a pass makes is granted. -/
def Grants (answer : Answers σ) (state : σ) (pass : Pass α) : Prop :=
  ∀ before call, (before, call) ∈ made answer state pass → granted call (answer before call).1 = true

instance (state : σ) (pass : Pass α) : Decidable (Grants answer state pass) :=
  decidable_of_iff (∀ entry ∈ made answer state pass, granted entry.2 (answer entry.1 entry.2).1 = true)
    ⟨fun every before call => every (before, call), fun every entry => every entry.1 entry.2⟩

/-- What a pass comes to if every call is granted. -/
def Granted (answer : Answers σ) (state : σ) (pass : Pass α) (post : Except PassError α → σ → Prop) : Prop :=
  (∀ before call, (before, call) ∈ made answer state pass → granted call (answer before call).1 = true) →
    post (effect answer state pass).1 (effect answer state pass).2

namespace Granted

variable {state : σ} {pass : Pass α} {post : Except PassError α → σ → Prop} {last : Except PassError β → σ → Prop}

theorem anyway (holds : post (effect answer state pass).1 (effect answer state pass).2) : Granted answer state pass post :=
  fun _ => holds

theorem mono {weaker : Except PassError α → σ → Prop} (comes : Granted answer state pass post)
    (implies : ∀ result after, post result after → weaker result after) : Granted answer state pass weaker :=
  fun grants => implies _ _ (comes grants)

theorem say_bind {level : Level} {text : String} {next : Unit → Pass β} (later : Granted answer state (next ()) last) :
    Granted answer state (Pass.say level text >>= next) last := later

theorem ask_bind {call : Call} {next : call.Answer → Pass β}
    (later : granted call (answer state call).1 = true → Granted answer (answer state call).2 (next (answer state call).1) last) :
    Granted answer state (Pass.ask call >>= next) last := by
  intro grants
  apply later (grants state call (List.mem_cons_self ..))
  intro before other member
  exact grants before other (List.mem_cons_of_mem _ member)

theorem bind {next : α → Pass β} (first : Granted answer state pass post)
    (later : ∀ value after, effect answer state pass = (.ok value, after) → post (.ok value) after → Granted answer after (next value) last)
    (fails : ∀ error after, post (.error error) after → last (.error error) after) :
    Granted answer state (pass >>= next) last := by
  intro grants
  rw [made_bind] at grants
  have holds := first fun before call member => grants before call (List.mem_append_left _ member)
  rw [effect_bind]
  generalize ran : effect answer state pass = result at holds grants
  obtain ⟨error | value, after⟩ := result
  · exact fails error after holds
  · exact later value after ran holds fun before call member => grants before call (List.mem_append_right _ member)

end Granted

/-- If every call is granted, the pass succeeds, with this result. -/
def Succeeds (answer : Answers σ) (state : σ) (pass : Pass α) (post : α → σ → Prop) : Prop :=
  Granted answer state pass fun result after => ∃ value, result = .ok value ∧ post value after

theorem Succeeds.bind {state : σ} {pass : Pass α} {next : α → Pass β} {post : α → σ → Prop} {last : Except PassError β → σ → Prop}
    (first : Succeeds answer state pass post) (later : ∀ value after, post value after → Granted answer after (next value) last) :
    Granted answer state (pass >>= next) last := by
  refine Granted.bind first ?_ ?_
  · rintro value after _ ⟨_, same, holds⟩
    cases same
    exact later value after holds
  · rintro error after ⟨_, failed, _⟩
    cases failed

theorem Succeeds.also {state : σ} {pass : Pass α} {post : α → σ → Prop} (succeeds : Succeeds answer state pass post)
    {also : σ → Prop} (holds : also (effect answer state pass).2) :
    Succeeds answer state pass fun value after => post value after ∧ also after := by
  intro grants
  obtain ⟨value, ok, post⟩ := succeeds grants
  exact ⟨value, ok, post, holds⟩

theorem granted_listing {reservations : σ → List Reservation} (holds : Holds answer reservations) (settings : Settings) (state : σ) :
    Succeeds answer state (Pass.listReservations settings) fun listed _ => listed = reservations state := by
  intro grants
  have grants := grants state (.listReservations settings.projectId) (List.mem_cons_self ..)
  cases listed : (answer state (.listReservations settings.projectId)).1 with
  | error error =>
    rw [listed] at grants
    cases grants
  | ok held =>
    refine ⟨held, ?_, holds.lists state settings.projectId held listed⟩
    rw [Pass.listReservations, effect_ask_bind, effect_check, listed]
    rfl

theorem granted_telling (identity : Identity) (reservation : Reservation) (state : σ) :
    Succeeds answer state (tellAddress identity (some reservation)) fun cidr? _ => cidr? = some reservation.cidr := by
  unfold tellAddress Pass.assign
  simp only [bind_assoc]
  refine .ask_bind fun grants => ?_
  cases found : (answer state (.getService identity.ns identity.name)).1 with
  | error error =>
    rw [found] at grants
    cases grants
  | ok latest =>
    change Granted answer _ (Pass.ask (.updateService (latest.assign reservation.address.write)) >>= _) _
    refine .ask_bind fun grants => ?_
    generalize (answer _ (.updateService (latest.assign reservation.address.write))).1 = updated at grants ⊢
    cases updated with
    | error error => cases grants
    | ok _ => exact .anyway ⟨_, rfl, rfl⟩

section

variable {document : σ → String} {reservations : σ → List Reservation} {location : Location}
  (store : Store answer location.name document) (holds : Holds answer reservations)
include store holds

theorem holdings_frame {kinds : List Kind} {pass : Pass α} (makes : Makes kinds pass) (patches : .patch ∉ kinds)
    (creates : .create ∉ kinds) (deletes : .delete ∉ kinds) (state : σ) :
    holdings document reservations (effect answer state pass).2 = holdings document reservations state := by
  have ran : effect answer state pass = ((effect answer state pass).1, (effect answer state pass).2) := rfl
  have stored : document (effect answer state pass).2 = document state := store.frame ran makes patches
  have held : reservations (effect answer state pass).2 = reservations state := holds.frame ran makes creates deletes
  rw [holdings, stored, held, holdings]

theorem granted_listReservations (settings : Settings) (state : σ) :
    Succeeds answer state (Pass.listReservations settings) fun listed after =>
      listed = reservations state ∧ holdings document reservations after = holdings document reservations state := by
  have makes : Makes [.list] (Pass.listReservations settings) := makes_listReservations settings (by decide)
  have kept := holdings_frame store holds makes (by decide) (by decide) (by decide) state
  exact (granted_listing holds settings state).also kept

theorem granted_load {state : σ} {loaded : Config} (read : Config.read (document state) = .ok loaded) :
    Succeeds answer state (Pass.load location.name) fun config after =>
      config = loaded ∧ holdings document reservations after = holdings document reservations state := by
  have makes : Makes [.load] (Pass.load location.name) := makes_load (by decide) location.name
  have kept := holdings_frame store holds makes (by decide) (by decide) (by decide) state
  intro grants
  refine ⟨loaded, ?_, rfl, kept⟩
  have grants := grants state (.loadDocument location.name) (by simp [made_load])
  cases opened : (answer state (.loadDocument location.name)).1 with
  | error error =>
    rw [opened] at grants
    cases grants
  | ok text =>
    have stored : text = document state := store.loads state text opened
    exact congrArg Prod.fst (effect_load_ok answer state location.name loaded (Prod.ext opened rfl) (stored ▸ read))

theorem granted_save (config : Config) (state : σ) :
    Succeeds answer state (Pass.save location.name config) fun _ after =>
      Config.read (document after) = .ok config ∧ reservations after = reservations state := by
  have makes : Makes [.patch] (Pass.save location.name config) := makes_save (by decide) location.name config
  have kept : reservations (effect answer state (Pass.save location.name config)).2 = reservations state :=
    holds.frame (Prod.ext rfl rfl) makes (by decide) (by decide)
  intro grants
  have grants := grants state (.patchDocument location.name (configPatch config.write)) (by simp [made_save])
  rw [effect_save] at kept ⊢
  cases written : (answer state (.patchDocument location.name (configPatch config.write))).1 with
  | error error =>
    rw [written] at grants
    cases grants
  | ok _ =>
    refine ⟨(), rfl, ?_, kept⟩
    rw [store.patches state config.write written]
    exact ConfigRoundTrip.read_write config

theorem granted_saveIfChanged {settings : Settings} (located : settings.location = some location) {state : σ} {loaded : Config} (config : Config)
    (before : Config.read (document state) = .ok loaded) :
    Succeeds answer state (Pass.saveIfChanged settings (some loaded) (some config)) fun _ after =>
      Config.read (document after) = .ok config ∧ reservations after = reservations state := by
  simp only [Pass.saveIfChanged, located]
  split
  next same => exact .anyway ⟨_, rfl, before.trans (congrArg Except.ok (Option.some.inj same)), rfl⟩
  next => exact granted_save store holds config state

/-- A pass comes to carry out its mode on what is held, unless the configuration cannot be read. -/
theorem granted_services {settings : Settings} (located : settings.location = some location) (mode : Mode) (batch : List Service) {state : σ}
    {post : Except PassError Unit → σ → Prop}
    (performs : ∀ loaded opened, Config.read (document state) = .ok loaded →
      holdings document reservations opened = holdings document reservations state →
      Granted answer opened (perform settings mode (reservations opened) (some loaded) (batch.filter (·.isLoadBalancer))) post)
    (fails : ∀ error after, (∀ loaded, Config.read (document state) ≠ .ok loaded) →
      holdings document reservations after = holdings document reservations state → post (.error error) after) :
    Granted answer state (Pass.services settings mode batch) post := by
  rw [services_eq, loadGiven_eq located]
  simp only [bind_assoc, pure_bind]
  refine .say_bind ((granted_listReservations store holds settings state).bind ?_)
  rintro _ listing ⟨rfl, kept⟩
  obtain ⟨stored, held⟩ := Prod.mk.inj kept
  cases read : Config.read (document state) with
  | ok loaded =>
    refine (granted_load store holds (stored ▸ read)).bind ?_
    rintro loaded opened ⟨rfl, same⟩
    obtain ⟨_, unlisted⟩ := Prod.mk.inj same
    rw [← held, ← unlisted]
    exact performs loaded opened read (same.trans kept)
  | error error =>
    have unread (loaded : Config) : Config.read (document state) ≠ .ok loaded := fun found => by cases read.symm.trans found
    have loading : Makes [.load] (Pass.load location.name) := makes_load (by decide) location.name
    have loads : Granted answer listing (Pass.load location.name) fun _ after =>
        holdings document reservations after = holdings document reservations listing :=
      .anyway (holdings_frame store holds loading (by decide) (by decide) (by decide) listing)
    refine loads.bind ?_ ?_
    · intro loaded opened opens _
      exact absurd (stored ▸ loaded_is_stored store opens) (unread loaded)
    · intro error after same
      exact fails error after unread (same.trans kept)

end

/-- The address that a pass comes to for a service that has one, or has one reserved. -/
def comesTo (settings : Settings) (identity : Identity) (held : List Reservation) (service : Service) : Option String :=
  match service.assignedAddress? with
  | some address => some (knownCidr (Pass.owned? settings identity held) address)
  | none => (Pass.owned? settings identity held).map (·.cidr)

/-- Some pool of the stored configuration holds the address. -/
def Mapped (text cidr : String) : Prop := ∃ config, Config.read text = .ok config ∧ cidr ∈ config.poolAddresses

theorem mapped_iff {text : String} {config : Config} (read : Config.read text = .ok config) (cidr : String) :
    Mapped text cidr ↔ cidr ∈ config.poolAddresses := by
  constructor
  · rintro ⟨_, found, inside⟩
    cases read.symm.trans found
    exact inside
  · exact fun inside => ⟨config, read, inside⟩

instance (text cidr : String) : Decidable (Mapped text cidr) :=
  match read : Config.read text with
  | .error _ => isFalse fun ⟨_, found, _⟩ => by cases read.symm.trans found
  | .ok config => decidable_of_iff (cidr ∈ config.poolAddresses)
    ⟨fun inside => ⟨config, read, inside⟩, fun ⟨_, found, inside⟩ => by cases read.symm.trans found; exact inside⟩

section

variable {document : σ → String} {reservations : σ → List Reservation} {location : Location}
  (lawful : Lawful document reservations answer location.name) (settings : Settings)
include lawful

theorem granted_reservationFor (listed : List Reservation) (identity : Identity) (state : σ) :
    Succeeds answer state (reservationFor settings listed identity) fun reservation? after =>
      ∃ reservation, reservation? = some reservation ∧ document after = document state ∧
        (listed = reservations state → Pass.owned? settings identity (reservations after) = some reservation) := by
  unfold reservationFor
  cases owned : Pass.owned? settings identity listed with
  | some reservation => exact .say_bind (.anyway ⟨_, rfl, reservation, rfl, rfl, fun same => same ▸ owned⟩)
  | none =>
    refine .say_bind (.ask_bind fun grants => ?_)
    cases made : (answer state (.createReservation settings.projectId
        (Request.single settings.facility [settings.providerTag, identity.tag]))).1 with
    | error error =>
      rw [made] at grants
      cases grants
    | ok created =>
      obtain ⟨tags, held⟩ := lawful.creates state _ _ created made
      have found (same : listed = reservations state) :
          Pass.owned? settings identity (reservations state ++ [created]) = some created := by
        exact owned_append (same ▸ owned) (by simp [Reservation.hasAllTags, tags, Request.single])
      refine .say_bind (.anyway ⟨_, rfl, created, rfl, ?_, ?_⟩)
      · exact lawful.store.keeps state _ fun same => by cases same
      · exact fun same => (congrArg _ held).trans (found same)

theorem granted_tellAddress (identity : Identity) (reservation : Reservation) (state : σ) :
    Succeeds answer state (tellAddress identity (some reservation)) fun cidr? after =>
      cidr? = some reservation.cidr ∧ holdings document reservations after = holdings document reservations state := by
  have makes : Makes [.get, .update] (tellAddress identity (some reservation)) :=
    makes_tellAddress (by decide) (by decide) identity _
  have kept := holdings_frame lawful.store lawful.holds makes (by decide) (by decide) (by decide) state
  exact (granted_telling identity reservation state).also kept

theorem granted_addressOf (listed : List Reservation) (service : Service) (identity : Identity) (state : σ) :
    Succeeds answer state (Pass.addressOf settings listed service identity) fun cidr? after =>
      ∃ cidr, cidr? = some cidr ∧ document after = document state ∧
        (listed = reservations state → comesTo settings identity (reservations after) service = some cidr) := by
  unfold comesTo
  rw [addressOf_eq]
  cases service.assignedAddress? with
  | some address => exact .say_bind (.anyway ⟨_, rfl, _, rfl, rfl, fun same => same ▸ rfl⟩)
  | none =>
    refine (granted_reservationFor lawful settings listed identity state).bind ?_
    rintro _ between ⟨reservation, rfl, same, owned⟩
    refine (granted_tellAddress lawful identity reservation between).mono ?_
    rintro result after ⟨_, told, rfl, kept⟩
    obtain ⟨stored, held⟩ := Prod.mk.inj kept
    exact ⟨_, told, _, rfl, stored.trans same, fun current => by simp only [held, owned current, Option.map_some]⟩

theorem granted_addService {service : Service} {identity : Identity} (known : service.identity? = some identity)
    (listed : List Reservation) (config : Config) (state : σ) :
    Succeeds answer state (Pass.addService settings listed (some config) service) fun added after =>
      ∃ cidr final, added = ⟨some cidr, some final⟩ ∧ Maps [cidr] config final ∧ document after = document state ∧
        (listed = reservations state → comesTo settings identity (reservations after) service = some cidr) := by
  rw [addService_known known]
  refine (granted_addressOf lawful settings listed service identity state).bind ?_
  rintro _ between ⟨cidr, rfl, same, comes⟩
  obtain ⟨final, mapped, maps⟩ := mapped_maps identity (some cidr) config
  refine .anyway ?_
  rw [effect_mapGiven, mapped]
  exact ⟨_, rfl, cidr, final, rfl, maps, same, comes⟩

theorem granted_addServices {services : List Service} (known : ∀ service ∈ services, service.identity?.isSome = true)
    (listed : List Reservation) (config : Config) (state : σ) :
    Succeeds answer state (Pass.addServices settings listed (some config) services) fun added after =>
      document after = document state ∧ ∃ final, added.2 = some final := by
  induction services generalizing config state with
  | nil => exact .anyway ⟨_, rfl, rfl, config, rfl⟩
  | cons service rest ih =>
    obtain ⟨identity, here⟩ := Option.isSome_iff_exists.mp (known service (List.mem_cons_self ..))
    refine (granted_addService lawful settings here listed config state).bind ?_
    rintro _ between ⟨cidr, final, rfl, _, same, _⟩
    have later := ih (fun other member => known other (List.mem_cons_of_mem _ member)) final between
    refine later.bind ?_
    rintro ⟨cidrs, _⟩ after ⟨kept, last, rfl⟩
    exact .anyway ⟨_, rfl, kept.trans same, last, rfl⟩

/-- Adding a service covers it, if the configuration can be read. -/
theorem granted_add (located : settings.location = some location) {service : Service} (asks : service.isLoadBalancer = true)
    {identity : Identity} (known : service.identity? = some identity) {state : σ} {loaded : Config}
    (before : Config.read (document state) = .ok loaded) :
    Granted answer state (Pass.services settings .add [service]) fun _ after =>
      ∃ cidr, comesTo settings identity (reservations after) service = some cidr ∧ Mapped (document after) cidr := by
  refine granted_services lawful.store lawful.holds located .add [service] ?_ fun _ _ unread => absurd before (unread loaded)
  intro loaded opened read same
  have stored : document opened = document state := congrArg Prod.fst same
  have adds : Pass.addServices settings (reservations opened) (some loaded) [service] =
      Pass.addService settings (reservations opened) (some loaded) service >>= fun added => pure (added.cidr.toList, added.config) := by
    simp only [Pass.addServices, pure_bind, List.append_nil]
  rw [filter_asking asks, perform, adds, bind_assoc]
  refine (granted_addService lawful settings known (reservations opened) loaded opened).bind ?_
  rintro _ between ⟨cidr, final, rfl, maps, untouched, comes⟩
  have still : Config.read (document between) = .ok loaded := by rw [untouched, stored, read]
  rw [pure_bind]
  refine (granted_saveIfChanged lawful.store lawful.holds located final still).mono ?_
  rintro result after ⟨_, _, saved, unchanged⟩
  exact ⟨cidr, unchanged ▸ comes rfl, final, saved, maps.added cidr (List.mem_singleton.mpr rfl)⟩

/-- Until anything is deleted, there are only ever more reservations. -/
theorem addServices_grows (listed : List Reservation) (config? : Option Config) (services : List Service) (state : σ) :
    document (effect answer state (Pass.addServices settings listed config? services)).2 = document state ∧
      ∃ more, reservations (effect answer state (Pass.addServices settings listed config? services)).2 = reservations state ++ more := by
  have makes : Makes [.create, .get, .update] (Pass.addServices settings listed config? services) :=
    makes_addServices settings (by decide) (by decide) (by decide) listed config? services
  have ran : effect answer state (Pass.addServices settings listed config? services) = (_, _) := Prod.ext rfl rfl
  refine ⟨lawful.store.frame ran makes (by decide), ?_⟩
  apply makes.preserves ran (fun after => ∃ more, reservations after = reservations state ++ more) _ ⟨[], (List.append_nil _).symm⟩
  rintro between call known ⟨more, grown⟩
  by_cases creates : kind call = .create
  · cases call with
    | createReservation project request =>
      cases made : (answer between (.createReservation project request)).1 with
      | ok created => exact ⟨more ++ [created], by rw [(lawful.creates between _ _ created made).2, grown, List.append_assoc]⟩
      | error error => exact ⟨more, by rw [lawful.refuses between _ _ error made, grown]⟩
    | _ => cases creates
  · refine ⟨more, ?_⟩
    rw [lawful.inventory.keeps between call creates, grown]
    intro same
    rw [same] at known
    exact absurd known (by decide)

theorem granted_cleanUp (located : settings.location = some location) {state : σ} {services : List Service} {loaded final : Config}
    {cidrs : List String} (before : Config.read (document state) = .ok loaded) :
    Succeeds answer state (cleanUp settings (some loaded) services (cidrs, some final)) fun _ after =>
      Config.read (document after) = .ok (unmapped cidrs final final.poolAddresses) ∧
        reservations after = (reservations state).filter (!leftOver settings (tagsOf services) ·) := by
  have succeeds : Succeeds answer state (cleanUp settings (some loaded) services (cidrs, some final)) fun _ _ => True := by
    refine (granted_listReservations lawful.store lawful.holds settings state).bind ?_
    rintro _ listing ⟨rfl, kept⟩
    obtain ⟨stored, _⟩ := Prod.mk.inj kept
    have removes : Succeeds answer listing (withoutStale cidrs (some final)) fun config? after =>
        config? = some (unmapped cidrs final final.poolAddresses) ∧ after = listing := by
      refine .anyway ?_
      rw [effect_withoutStale]
      exact ⟨_, rfl, rfl, rfl⟩
    refine .say_bind (.say_bind (removes.bind ?_))
    rintro _ _ ⟨rfl, rfl⟩
    refine (granted_saveIfChanged lawful.store lawful.holds located _ (stored ▸ before)).bind ?_
    intro _ saved _
    exact .anyway ⟨(), (Deletions.deleteOrphans_deletes ..).1, trivial⟩
  intro grants
  obtain ⟨_, ok, _⟩ := succeeds grants
  have ok : effect answer state (cleanUp settings (some loaded) services (cidrs, some final)) = (.ok (), _) := Prod.ext ok rfl
  obtain ⟨current, relisted, lists, deleted⟩ := cleanUp_deletes lawful.inventory ok
  have listed := lawful.inventory.listed lists
  subst listed
  refine ⟨(), congrArg Prod.fst ok, cleanUp_saves lawful.store located before ok, deleted ?_ (lawful.distinct state)⟩
  intro between id member
  have grants := grants between (.deleteReservation id) member
  cases gone : (answer between (.deleteReservation id)).1 with
  | ok _ => rfl
  | error error =>
    rw [gone] at grants
    cases grants

end

theorem addService_comesTo {settings : Settings} {listed : List Reservation} {config? : Option Config} {service : Service}
    {added : Pass.Added} {state after : σ} {identity : Identity} (known : service.identity? = some identity) {cidr : String}
    (comes : comesTo settings identity listed service = some cidr)
    (ok : effect answer state (Pass.addService settings listed config? service) = (.ok added, after)) : added.cidr = some cidr := by
  rw [addService_known known] at ok
  obtain ⟨cidr?, between, found, maps⟩ := (effect_bind_ok answer).mp ok
  rw [effect_mapGiven] at maps
  cases maps
  unfold comesTo at comes
  rw [addressOf_eq] at found
  cases assigned : service.assignedAddress? with
  | some address =>
    rw [assigned] at comes found
    cases found
    exact comes
  | none =>
    rw [assigned] at comes found
    obtain ⟨reservation, owned, rfl⟩ := Option.map_eq_some_iff.mp comes
    simp only [reservationFor, owned] at found
    obtain ⟨_, _, reuses, tells⟩ := (effect_bind_ok answer).mp found
    cases reuses
    obtain ⟨_, _, _, told⟩ := (effect_bind_ok answer).mp tells
    cases told
    rfl

theorem adds_comesTo {settings : Settings} {listed : List Reservation} {config? last? : Option Config} {services : List Service}
    {cidrs : List String} {state after : σ} (adds : Adds answer settings listed state config? services cidrs last? after)
    {service : Service} (member : service ∈ services) {identity : Identity} (known : service.identity? = some identity) {cidr : String}
    (comes : comesTo settings identity listed service = some cidr) : cidr ∈ cidrs := by
  induction adds with
  | nil => exact absurd member List.not_mem_nil
  | cons first _ ih =>
    rcases List.mem_cons.mp member with rfl | later
    · rw [addService_comesTo known comes first]
      exact List.mem_cons_self ..
    · exact List.mem_append_right _ (ih later)

/-- What was reserved for services is still there, and so are the addresses that a pass comes to for them. -/
structure Spares (settings : Settings) (services : List Service) (before after : String × List Reservation) : Prop where
  reserved : ∀ reservation ∈ before.2, (∃ tag ∈ tagsOf services, tag ∈ reservation.tags) → reservation ∈ after.2
  mapped : ∀ service ∈ services, ∀ identity ∈ service.identity?, ∀ cidr ∈ comesTo settings identity before.2 service,
    Mapped before.1 cidr → Mapped after.1 cidr

theorem Spares.grown {settings : Settings} {services : List Service} {before after : String × List Reservation}
    (same : after.1 = before.1) (grows : ∃ more, after.2 = before.2 ++ more) : Spares settings services before after := by
  obtain ⟨more, grown⟩ := grows
  constructor
  · intro reservation held _
    rw [grown]
    exact List.mem_append_left _ held
  · intro _ _ _ _ cidr _ mapped
    exact same ▸ mapped

section

variable {document : σ → String} {reservations : σ → List Reservation} {location : Location}
  (lawful : Lawful document reservations answer location.name) {settings : Settings} (located : settings.location = some location)
include lawful located

/-- A pass that synchronizes with services spares what it comes to for them. -/
theorem granted_sync (batch : List Service) (state : σ) :
    Granted answer state (Pass.services settings .sync batch) fun _ after =>
      Spares settings (batch.filter (·.isLoadBalancer)) (holdings document reservations state) (holdings document reservations after) := by
  refine granted_services lawful.store lawful.holds located .sync batch ?_ ?_
  · intro loaded opened read same
    generalize batch.filter (·.isLoadBalancer) = services
    obtain ⟨stored, held⟩ := Prod.mk.inj same
    -- Until the second listing nothing is written or deleted, so a pass that fails there spares everything.
    have adds : Granted answer opened (Pass.addServices settings (reservations opened) (some loaded) services) fun _ after =>
        document after = document opened ∧ ∃ more, reservations after = reservations opened ++ more :=
      .anyway (addServices_grows lawful settings (reservations opened) (some loaded) services opened)
    rw [perform, syncServices_eq]
    refine adds.bind ?_ ?_
    · rintro ⟨cidrs, last?⟩ added adds ⟨untouched, more, grown⟩
      have adding := addServices_adds adds
      obtain ⟨final, known, maps⟩ := adding.maps loaded rfl
      cases known
      have still : Config.read (document added) = .ok loaded := by rw [untouched, stored, read]
      refine (granted_cleanUp lawful settings located still).mono ?_
      rintro result after ⟨_, _, saved, cleaned⟩
      constructor
      · rintro reservation here ⟨tag, live, tagged⟩
        change reservation ∈ reservations after
        rw [cleaned, grown, held]
        have spared : leftOver settings (tagsOf services) reservation = false := by
          have any : (tagsOf services).any reservation.tags.contains = true :=
            List.any_eq_true.mpr ⟨tag, live, List.contains_iff_mem.mpr tagged⟩
          simp [leftOver, any]
        exact List.mem_filter.mpr ⟨List.mem_append_left _ here, by rw [spared]; rfl⟩
      · intro service member identity known cidr comes _
        have comes : comesTo settings identity (reservations opened) service = some cidr := held ▸ comes
        exact ⟨_, saved, (mem_unmapped_maps maps).mpr (adds_comesTo adding member known comes)⟩
    · rintro error after ⟨untouched, more, grown⟩
      exact .grown (untouched.trans stored) ⟨more, grown.trans (by rw [held]; rfl)⟩
  · intro error after _ same
    exact .grown (congrArg Prod.fst same) ⟨[], by rw [same, List.append_nil]⟩

/-- A pass that synchronizes with services leaves no reservation of the agent's that is for none of them. -/
theorem granted_sync_clears {batch : List Service}
    (known : ∀ service ∈ batch.filter (·.isLoadBalancer), service.identity?.isSome = true) (state : σ) {loaded : Config}
    (before : Config.read (document state) = .ok loaded) :
    Granted answer state (Pass.services settings .sync batch) fun _ after =>
      ∀ reservation ∈ reservations after, leftOver settings (tagsOf (batch.filter (·.isLoadBalancer))) reservation = false := by
  refine granted_services lawful.store lawful.holds located .sync batch ?_ fun _ _ unread => absurd before (unread loaded)
  intro loaded opened read same
  rw [perform, syncServices_eq]
  refine (granted_addServices lawful settings known (reservations opened) loaded opened).bind ?_
  rintro ⟨cidrs, _⟩ added ⟨untouched, final, rfl⟩
  have stored : document opened = document state := congrArg Prod.fst same
  have still : Config.read (document added) = .ok loaded := by rw [untouched, stored, read]
  refine (granted_cleanUp lawful settings located still).mono ?_
  rintro result after ⟨_, _, _, cleaned⟩ reservation member
  rw [cleaned] at member
  simpa using (List.mem_filter.mp member).2

end

/-- The stored configuration has a peer with this address for this node and no other. -/
def Peered (text name address : String) : Prop :=
  ∃ config, Config.read text = .ok config ∧ config.hasPeer address [.ofHostname name] = true

def Shows (settings : Settings) (batch : List Node) (name : String) : Prop :=
  ∃ node ∈ batch, Selector.accepts settings.nodeSelector node.labels = true ∧ node.metadata.name = some name

theorem mem_selected {settings : Settings} {batch : List Node} {selected : List PeeringNode} (selects : Selects settings.nodeSelector batch selected)
    {name : String} : name ∈ selected.map (·.name) ↔ Shows settings batch name := by
  have names : (selected.map (·.name)).map some =
      (batch.filter (Selector.accepts settings.nodeSelector ·.labels)).map (·.metadata.name) := by
    simpa [List.map_map, Function.comp_def] using congrArg (List.map Prod.fst) selects
  have member : some name ∈ (selected.map (·.name)).map some ↔ name ∈ selected.map (·.name) :=
    List.mem_map_of_injective (fun _ _ => Option.some.inj)
  rw [← member, names]
  simp only [List.mem_map, List.mem_filter, Shows, and_assoc]

/-- A configuration after an edit for nodes: it has the peers that it had for those that are shown,
and none for others. -/
structure Covers (settings : Settings) (batch : List Node) (loaded : Config) (edited : Edited) : Prop where
  edits : EditsPeers loaded edited
  keeps : ∀ name, Shows settings batch name → ∀ address, loaded.hasPeer address [.ofHostname name] = true →
    edited.config.hasPeer address [.ofHostname name] = true
  only : ∀ name address, edited.config.hasPeer address [.ofHostname name] = true → Shows settings batch name

section

variable {document : σ → String} {reservations : σ → List Reservation} {location : Location}
  (lawful : Lawful document reservations answer location.name) {settings : Settings} (located : settings.location = some location)
include lawful

theorem granted_writeBack {state : σ} {loaded : Config} {edited : Edited} (before : Config.read (document state) = .ok loaded)
    (edits : EditsPeers loaded edited) :
    Succeeds answer state (writeBack location.name edited) fun _ after => Config.read (document after) = .ok edited.config := by
  unfold writeBack
  split
  · refine (granted_save lawful.store lawful.holds edited.config state).mono ?_
    rintro result after ⟨_, saved, stored, _⟩
    exact ⟨_, saved, stored⟩
  next unchanged =>
    refine .anyway ⟨(), rfl, ?_⟩
    rw [edits.idle (Bool.not_eq_true _ ▸ unchanged)]
    exact before

theorem addNodes_unwritten (settings : Settings) (edited : Edited) (nodes : List PeeringNode) (state : σ) :
    document (effect answer state (Pass.addNodes settings edited nodes)).2 = document state := by
  have makes : Makes [.resolve] (Pass.addNodes settings edited nodes) := makes_addNodes settings (by decide) edited nodes
  exact lawful.store.frame (Prod.ext rfl rfl) makes (by decide)

theorem sync_covers (settings : Settings) (loaded : Config) (batch : List Node) (state : σ) :
    document (effect answer state (Pass.editForNodes settings .sync loaded batch)).2 = document state ∧
      ∀ edited, (effect answer state (Pass.editForNodes settings .sync loaded batch)).1 = .ok edited →
        Covers settings batch loaded edited := by
  obtain ⟨result, chose, _, selects⟩ := effect_peeringNodes answer state settings.nodeSelector batch
  simp only [Pass.editForNodes]
  rw [effect_bind, chose]
  cases result with
  | error error => exact ⟨rfl, fun edited failed => by cases failed⟩
  | ok selected =>
    have shown {name : String} : name ∈ selected.map (·.name) ↔ Shows settings batch name := mem_selected (selects selected rfl)
    simp only
    rw [(syncNodes_adds state loaded selected).1]
    refine ⟨addNodes_unwritten lawful settings _ _ state, ?_⟩
    rw [effect_addNodes]
    rintro edited ⟨⟩
    refine ⟨withPeers_edits settings (filterPeers_edits loaded _) _, ?_, ?_⟩
    · intro name shows address known
      exact withPeers_keeps settings (retainNodes_keeps (shown.mpr shows) known) _
    · intro name address known
      rcases withPeers_only settings known with stays | added
      · exact shown.mp (retainNodes_only stays)
      · obtain ⟨entry, zipped, same, _⟩ := mem_pairsOf.mp added
        have selected := (mem_missingNodes.mp (List.of_mem_zip zipped).1).1
        exact shown.mp (List.mem_map.mpr ⟨entry.1, selected, same⟩)

include located

/-- A pass that synchronizes with nodes leaves the peers of those that it is shown. -/
theorem granted_sync_nodes (batch : List Node) (state : σ) :
    Granted answer state (Pass.nodes settings .sync batch) fun _ after =>
      ∀ name, Shows settings batch name → ∀ address, Peered (document state) name address → Peered (document after) name address := by
  rw [nodes_eq located]
  have loading : Makes [.load] (Pass.load location.name) := makes_load (by decide) location.name
  have loads : Granted answer state (Pass.load location.name) fun _ after => document after = document state :=
    .anyway (congrArg Prod.fst (holdings_frame lawful.store lawful.holds loading (by decide) (by decide) (by decide) state))
  refine .say_bind (loads.bind ?_ ?_)
  · intro loaded opened opens unread
    have stored := loaded_is_stored lawful.store opens
    obtain ⟨unwritten, covers⟩ := sync_covers lawful settings loaded batch opened
    have edit : Granted answer opened (Pass.editForNodes settings .sync loaded batch) fun _ after => document after = document opened :=
      .anyway unwritten
    refine edit.bind ?_ ?_
    · intro edited between ran same
      have covers := covers edited (congrArg Prod.fst ran)
      have still : Config.read (document between) = .ok loaded := by rw [same, unread, stored]
      refine (granted_writeBack lawful still covers.edits).mono ?_
      rintro result after ⟨_, _, saved⟩ name shows address ⟨config, read, known⟩
      cases stored.symm.trans read
      exact ⟨edited.config, saved, covers.keeps name shows address known⟩
    · intro error after same name _ address peered
      exact same ▸ unread ▸ peered
  · intro error after same name _ address peered
    exact same ▸ peered

/-- A pass that synchronizes with nodes leaves no node peers of its own that it is not shown. -/
theorem granted_sync_nodes_clears {batch : List Node} (complete : ∀ node ∈ batch, Complete settings.nodeSelector node) (state : σ)
    {loaded : Config} (before : Config.read (document state) = .ok loaded) :
    Granted answer state (Pass.nodes settings .sync batch) fun _ after =>
      ∀ name address, Peered (document after) name address → Shows settings batch name := by
  rw [nodes_eq located]
  refine .say_bind ((granted_load lawful.store lawful.holds before).bind ?_)
  rintro loaded opened ⟨rfl, same⟩
  obtain ⟨unwritten, covers⟩ := sync_covers lawful settings loaded batch opened
  have edit : Succeeds answer opened (Pass.editForNodes settings .sync loaded batch) fun edited after =>
      document after = document opened ∧ Covers settings batch loaded edited := by
    obtain ⟨selected, chooses⟩ := peeringNodes_ok answer opened complete
    have ok : ∃ edited, (effect answer opened (Pass.editForNodes settings .sync loaded batch)).1 = .ok edited := by
      simp only [Pass.editForNodes]
      rw [effect_bind, chooses]
      simp only
      rw [(syncNodes_adds opened loaded selected).1, effect_addNodes]
      exact ⟨_, rfl⟩
    obtain ⟨edited, ok⟩ := ok
    exact .anyway ⟨edited, ok, unwritten, covers edited ok⟩
  refine edit.bind ?_
  rintro edited between ⟨kept, covers⟩
  have still : Config.read (document between) = .ok loaded := by
    rw [kept, ← before]
    exact congrArg (Config.read ·.1) same
  refine (granted_writeBack lawful still covers.edits).mono ?_
  rintro result after ⟨_, _, saved⟩ name address ⟨config, read, known⟩
  cases saved.symm.trans read
  exact covers.only name address known

theorem granted_add_node {node : Node} {name providerId : String} (named : node.metadata.name = some name)
    (accepted : Selector.accepts settings.nodeSelector node.labels = true) (given : node.assignedId? = some providerId)
    {state : σ} {loaded : Config} (before : Config.read (document state) = .ok loaded)
    (grants : ∀ before call, (before, call) ∈ made answer state (Pass.nodes settings .add [node]) → granted call (answer before call).1 = true) :
    ∃ asked addresses, (asked, .resolvePeers providerId) ∈ made answer state (Pass.nodes settings .add [node]) ∧
      (answer asked (.resolvePeers providerId)).1 = .ok addresses ∧
      ∀ address ∈ addresses, Peered (document (effect answer state (Pass.nodes settings .add [node])).2) name address := by
  rw [made_nodes answer state located] at grants ⊢
  rw [effect_nodes answer state located]
  obtain ⟨loaded, opens, rfl, kept⟩ := granted_load lawful.store lawful.holds before fun between call member => grants between call (by
    rw [made_bind]
    exact List.mem_append_left _ member)
  generalize last : (effect answer state (Pass.load location.name)).2 = opened at kept
  replace opens : effect answer state (Pass.load location.name) = (.ok loaded, opened) := Prod.ext opens last
  replace grants := fun between call member => grants between call (mem_made_bind answer opens member)
  have still := (congrArg Config.read (congrArg Prod.fst kept)).trans before
  have chooses : Pass.peeringNodes settings.nodeSelector [node] = pure [⟨name, providerId⟩] := by
    simp only [Pass.peeringNodes, Pass.nodeName, named, pure_bind, if_pos accepted, given]
  have edits : Pass.editForNodes settings .add loaded [node] = Pass.addNodes settings ⟨loaded, false⟩ [⟨name, providerId⟩] := by
    simp only [Pass.editForNodes, chooses, pure_bind]
  rw [edits] at grants
  have asked : (opened, .resolvePeers providerId) ∈
      made answer opened (Pass.addNodes settings ⟨loaded, false⟩ [⟨name, providerId⟩] >>= writeBack location.name) := by
    rw [made_bind, (addNodes_cons answer opened settings _ _ _).2]
    exact List.mem_cons_self ..
  cases answered : (answer opened (.resolvePeers providerId)).1 with
  | error error =>
    have refused := grants _ _ asked
    rw [answered] at refused
    cases refused
  | ok addresses =>
    refine ⟨opened, addresses, mem_made_bind answer opens (edits ▸ asked), answered, ?_⟩
    have adds := effect_addNodes answer opened settings ⟨loaded, false⟩ [⟨name, providerId⟩]
    have unwritten := addNodes_unwritten lawful settings ⟨loaded, false⟩ [⟨name, providerId⟩] opened
    rw [adds] at unwritten
    replace grants := fun between call member => grants between call (mem_made_bind answer adds member)
    have kept := withPeers_edits settings (.refl loaded) (pairsOf [⟨name, providerId⟩] (resolved answer opened [⟨name, providerId⟩]).1)
    obtain ⟨_, _, saved⟩ := granted_writeBack lawful (unwritten ▸ still) kept grants
    intro address member
    rw [effect_bind, opens]
    simp only
    rw [edits, effect_bind, adds]
    refine ⟨_, saved, ?_⟩
    have pair : (name, address) ∈ pairsOf [⟨name, providerId⟩] (resolved answer opened [⟨name, providerId⟩]).1 := by
      simp [pairsOf, resolved, answered, addressesOf, Except.toOption, member]
    exact withPeers_has settings ⟨loaded, false⟩ pair

end

end PeerPool.Proofs.Coverage
