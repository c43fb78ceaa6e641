import PeerPool.Proofs.FixedPoint
import PeerPool.Proofs.Restoration

/-! A batch of services that is added twice by the same copies. The second time the copies are out of
date, for they lack the addresses that the services were told since. A service without an address goes by
another branch then: it is told the address of a reservation that is found by its tags, where before one
may have been made for it. It is the same reservation, so the service is told the address that it has, and
the text that comes out is mapped already. -/

namespace PeerPool.Proofs.OutdatedBatches
open PassLogic PassServices PassCalls PassPools Holdings Synchronized Coverage AddressSources StaleCopies SiteEffects FixedPoint
open Restoration Sites Simulation Provider Cluster

variable {σ τ α β : Type} {answer : Answers σ} {settings : Settings} {document : σ → String}
  {reservations : σ → List Reservation} {stored : σ → Identity → Option Service} {listed : List Reservation}

/-- What is reserved is appended to what is held, with the tags that were asked for. -/
structure Grows (answer : Answers σ) (reservations : σ → List Reservation) : Prop extends Holds answer reservations where
  creates : ∀ state project request created, (answer state (.createReservation project request)).1 = .ok created →
    created.tags = request.tags ∧
      reservations (answer state (.createReservation project request)).2 = reservations state ++ [created]

theorem grows_site (offers : Nat → Offer) : Grows (Site.answer offers) Site.reservations where
  toHolds := holds_site offers
  creates state project request created answered := by
    cases answered
    exact ⟨rfl, rfl⟩

section

variable {state between after : σ} {identity : Identity} {address : Address} {calls : List (σ × Call)}

/-- A part of the state that is not changed by reading a service or by writing one. -/
theorem telling_frame {reply : Except StoreError Unit} (telling : Telling answer identity address state calls reply after)
    (part : σ → τ) (keeps : ∀ state call, kind call ∈ [Kind.get, .update] → part (answer state call).2 = part state) :
    part after = part state := by
  cases telling with
  | unread read =>
    have reads := keeps state (reading identity) (by simp [kind])
    rwa [read] at reads
  | @read latest found after reply read written =>
    have reads := keeps state (reading identity) (by simp [kind])
    have writes := keeps found (.updateService (latest.assign address.write)) (by simp [kind])
    rw [read] at reads
    rw [written] at writes
    exact writes.trans reads

/-- The stored service is replaced by one that has the address. -/
theorem telling_stored (shelf : Shelf answer stored) (telling : Telling answer identity address state calls (.ok ()) after) :
    ∃ latest, stored state identity = some latest ∧
      stored after = Function.update (stored state) identity (some (latest.assign address.write)) := by
  cases telling with
  | @read latest found after reply read written =>
    have there := shelf.gets state identity latest (congrArg Prod.fst read)
    have key : storedAs (latest.assign address.write) = identity := shelf.keyed state identity latest there
    have reads := shelf.keeps state (reading identity) (by simp [kind])
    have writes := shelf.updates found (latest.assign address.write) (congrArg Prod.fst written)
    rw [read] at reads
    rw [written, key, reads] at writes
    refine ⟨latest, there, funext fun other => ?_⟩
    rw [writes other, Function.update_apply]

end

/-- Services whose tags are not among these own what they owned, and are stored as they were. -/
structure Apart (settings : Settings) (reservations : σ → List Reservation) (stored : σ → Identity → Option Service)
    (tags : List String) (before after : σ) : Prop where
  owned : ∀ identity : Identity, identity.tag ∉ tags →
    Pass.owned? settings identity (reservations after) = Pass.owned? settings identity (reservations before)
  stored : ∀ identity : Identity, identity.tag ∉ tags → stored after identity = stored before identity

section

variable {tags more : List String} {first second third : σ}

theorem Apart.refl : Apart settings reservations stored tags first first := ⟨fun _ _ => rfl, fun _ _ => rfl⟩

theorem Apart.trans (earlier : Apart settings reservations stored tags first second)
    (later : Apart settings reservations stored tags second third) : Apart settings reservations stored tags first third :=
  ⟨fun identity other => (later.owned identity other).trans (earlier.owned identity other),
    fun identity other => (later.stored identity other).trans (earlier.stored identity other)⟩

theorem Apart.mono (apart : Apart settings reservations stored tags first second) (within : tags ⊆ more) :
    Apart settings reservations stored more first second :=
  ⟨fun identity other => apart.owned identity (mt (within ·) other),
    fun identity other => apart.stored identity (mt (within ·) other)⟩

end

/-- What a copy of a service comes to, again and again: it has an address of its own, or else the service
that is stored has the address of the reservation that it owns. -/
inductive Settles (settings : Settings) (held : List Reservation) (shelf : Identity → Option Service) (copy : Service)
    (identity : Identity) : String → Prop where
  | assigned {text : String} : copy.assignedAddress? = some text →
      Settles settings held shelf copy identity (knownCidr (Pass.owned? settings identity held) text)
  | told {reservation : Reservation} {latest : Service} : copy.assignedAddress? = none →
      Pass.owned? settings identity held = some reservation → shelf identity = some (latest.assign reservation.address.write) →
      Settles settings held shelf copy identity reservation.cidr

/-- The copy is one of a service, and comes to this text. -/
def SettlesAt (settings : Settings) (held : List Reservation) (shelf : Identity → Option Service) (copy : Service)
    (cidr : String) : Prop :=
  ∃ identity, copy.identity? = some identity ∧ Settles settings held shelf copy identity cidr

theorem Settles.apart {tags : List String} {before after : σ} (apart : Apart settings reservations stored tags before after)
    {copy : Service} {identity : Identity} (other : identity.tag ∉ tags) {cidr : String}
    (settles : Settles settings (reservations before) (stored before) copy identity cidr) :
    Settles settings (reservations after) (stored after) copy identity cidr := by
  cases settles with
  | assigned assigned => exact apart.owned identity other ▸ .assigned assigned
  | told unassigned owned there =>
    exact .told unassigned ((apart.owned identity other).trans owned) ((apart.stored identity other).trans there)

section

variable (grows : Grows answer reservations) (shelf : Shelf answer stored) {state after : σ} {identity : Identity}
include grows shelf

/-- Once it is found, the reservation of a service is the one that it owns. -/
theorem finds_owned {calls : List (σ × Call)} {reservation : Reservation}
    (finds : Finds answer settings listed identity state calls reservation after)
    (agree : Pass.owned? settings identity (reservations state) = Pass.owned? settings identity listed) :
    Pass.owned? settings identity (reservations after) = some reservation ∧
      Apart settings reservations stored [settings.providerTag, identity.tag] state after := by
  cases finds with
  | owned owned => exact ⟨agree.trans owned, .refl⟩
  | made unowned created =>
    obtain ⟨tags, held⟩ := grows.creates state _ _ reservation (congrArg Prod.fst created)
    have kept := shelf.keeps state (creation settings identity) (by simp [kind])
    rw [created] at held kept
    have tags : reservation.tags = [settings.providerTag, identity.tag] := tags
    refine ⟨?_, ?_, fun other _ => congrFun kept other⟩
    · rw [held]
      exact owned_append (agree.trans unowned) (by simp [Reservation.hasAllTags, tags])
    · intro other foreign
      rw [held]
      exact owned_append_other (tags ▸ foreign) _

theorem telling_settles {calls : List (σ × Call)} {reservation : Reservation}
    (telling : Telling answer identity reservation.address state calls (.ok ()) after)
    (owned : Pass.owned? settings identity (reservations state) = some reservation) {copy : Service}
    (unassigned : copy.assignedAddress? = none) :
    Settles settings (reservations after) (stored after) copy identity reservation.cidr ∧
      Apart settings reservations stored [settings.providerTag, identity.tag] state after := by
  have held : reservations after = reservations state := by
    refine telling_frame telling reservations fun state call tells => grows.keeps state call ?_ ?_ <;>
    · intro other
      simp [other] at tells
  obtain ⟨latest, _, updated⟩ := telling_stored shelf telling
  refine ⟨.told unassigned (held ▸ owned) (by rw [updated, Function.update_self]), ?_, ?_⟩
  · exact fun _ _ => by rw [held]
  · intro other foreign
    have differs : other ≠ identity := by
      rintro rfl
      simp at foreign
    rw [updated, Function.update_of_ne differs]

theorem addressOf_settles {copy : Service} {cidr? : Option String}
    (ok : effect answer state (Pass.addressOf settings listed copy identity) = (.ok cidr?, after))
    (creates : Creates answer (made answer state (Pass.addressOf settings listed copy identity)))
    (agree : Pass.owned? settings identity (reservations state) = Pass.owned? settings identity listed) :
    (∃ cidr, cidr? = some cidr ∧ Settles settings (reservations after) (stored after) copy identity cidr) ∧
      Apart settings reservations stored [settings.providerTag, identity.tag] state after := by
  have course := addressOf_course answer settings listed identity copy state
  rw [ok] at course
  generalize made answer state (Pass.addressOf settings listed copy identity) = calls at course creates
  generalize same : Except.ok cidr? = result at course
  cases course with
  | known assigned =>
    cases same
    exact ⟨⟨_, rfl, agree ▸ .assigned assigned⟩, .refl⟩
  | refused _ _ refused =>
    have granted := creates _ _ _ (List.mem_singleton_self _)
    rw [refused] at granted
    cases granted
  | @found _ _ reservation _ _ reply unassigned finds telling =>
    obtain ⟨owned, found⟩ := finds_owned grows shelf finds agree
    cases reply with
    | error failure => cases same
    | ok _ =>
      cases same
      obtain ⟨settles, told⟩ := telling_settles grows shelf telling owned unassigned
      exact ⟨⟨_, rfl, settles⟩, found.trans told⟩

theorem addService_settles {copy : Service} (known : copy.identity? = some identity) {config? : Option Config} {added : Pass.Added}
    (ok : effect answer state (Pass.addService settings listed config? copy) = (.ok added, after))
    (creates : Creates answer (made answer state (Pass.addService settings listed config? copy)))
    (agree : Pass.owned? settings identity (reservations state) = Pass.owned? settings identity listed) :
    (∃ cidr, added.cidr = some cidr ∧ Settles settings (reservations after) (stored after) copy identity cidr) ∧
      Apart settings reservations stored [settings.providerTag, identity.tag] state after := by
  rw [made_addService known] at creates
  rw [addService_known known] at ok
  obtain ⟨cidr?, between, found, maps⟩ := (effect_bind_ok answer).mp ok
  rw [effect_mapGiven] at maps
  cases maps
  exact addressOf_settles grows shelf found creates agree

/-- Each service of a batch that was added settles at what came back for it. -/
theorem adds_settle {services : List Service} {config? last? : Option Config} {cidrs : List String}
    (adds : Adds answer settings listed state config? services cidrs last? after)
    (creates : Creates answer (made answer state (Pass.addServices settings listed config? services)))
    (distinct : (settings.providerTag :: tagsOf services).Nodup)
    (agree : ∀ service ∈ services, ∀ identity ∈ service.identity?,
      Pass.owned? settings identity (reservations state) = Pass.owned? settings identity listed) :
    List.Forall₂ (SettlesAt settings (reservations after) (stored after)) services cidrs ∧
      Apart settings reservations stored (settings.providerTag :: tagsOf services) state after := by
  induction adds with
  | nil => exact ⟨.nil, .refl⟩
  | @cons state between after config? last? service rest added cidrs first adds ih =>
    obtain ⟨identity, known⟩ := Option.isSome_iff_exists.mp (adds_named (.cons first adds) service (List.mem_cons_self ..))
    rw [made_addServices_cons first] at creates
    rw [tagsOf_cons known] at distinct ⊢
    obtain ⟨⟨cidr, comes, settles⟩, here⟩ := addService_settles grows shelf known first
      (creates.within fun _ => List.mem_append_left _) (agree service (List.mem_cons_self ..) identity known)
    -- No tag of the rest is that of this service or of the agent, so neither of the two parts concerns the other.
    simp only [List.nodup_cons, List.mem_cons, not_or] at distinct
    obtain ⟨⟨free, unlisted⟩, absent, different⟩ := distinct
    have agreed : ∀ other ∈ rest, ∀ identity ∈ other.identity?,
        Pass.owned? settings identity (reservations between) = Pass.owned? settings identity listed := by
      intro other member named known
      have tag : named.tag ∈ tagsOf rest := mem_tagsOf member known
      have foreign : named.tag ∉ [settings.providerTag, identity.tag] := by
        rw [List.mem_cons, List.mem_singleton, not_or]
        exact ⟨fun same => unlisted (same ▸ tag), fun same => absent (same ▸ tag)⟩
      rw [here.owned named foreign]
      exact agree other (List.mem_cons_of_mem _ member) named known
    obtain ⟨others, later⟩ := ih (creates.within fun _ => List.mem_append_right _)
      (List.nodup_cons.mpr ⟨unlisted, different⟩) agreed
    have spared : identity.tag ∉ settings.providerTag :: tagsOf rest := by
      rw [List.mem_cons, not_or]
      exact ⟨Ne.symm free, absent⟩
    rw [comes]
    exact ⟨.cons ⟨identity, known, settles.apart later spared⟩ others, (here.mono (by simp)).trans (later.mono (by simp))⟩

end

/-- The services of a batch settle at what came back for them, which is mapped in the configuration, if one is kept. -/
structure Served (settings : Settings) (document : σ → String) (reservations : σ → List Reservation)
    (stored : σ → Identity → Option Service) (services : List Service) (cidrs : List String) (final : Config) (state : σ) : Prop where
  reads : Reads settings document final state
  mapped : ∀ config ∈ given settings final, ∀ cidr ∈ cidrs, cidr ∈ config.poolAddresses
  settle : List.Forall₂ (SettlesAt settings (reservations state) (stored state)) services cidrs

section

variable (stores : Stores answer settings document)
include stores

/-- What is stored in the end is what the services were mapped in. -/
theorem saved_given {state opened added after : σ} {services : List Service} {loaded? last? : Option Config} {cidrs : List String}
    (loads : effect answer state (loadGiven settings) = (.ok loaded?, opened))
    (adds : effect answer opened (Pass.addServices settings listed loaded? services) = (.ok (cidrs, last?), added))
    (saves : effect answer added (Pass.saveIfChanged settings loaded? last?) = (.ok (), after)) :
    ∃ final, Reads settings document final after ∧
      ∀ config ∈ given settings final, ∀ cidr ∈ cidrs, cidr ∈ config.poolAddresses := by
  cases located : settings.location with
  | none =>
    refine ⟨{}, ?_, by simp [given, located]⟩
    intro location kept
    cases located.symm.trans kept
  | some location =>
    have store := stores location located
    obtain ⟨loaded, rfl, opens⟩ := loadGiven_ok answer state located loads
    obtain ⟨final, known, maps⟩ := (addServices_adds adds).maps loaded rfl
    cases known
    have loading : Makes [.load] (loadGiven settings) := makes_loadGiven settings (by decide)
    have adding : Makes [.create, .get, .update] (Pass.addServices settings listed (some loaded) services) :=
      makes_addServices settings (by decide) (by decide) (by decide) listed (some loaded) services
    have still : Config.read (document added) = .ok loaded := by
      rw [store.frame adds adding (by decide), store.frame loads loading (by decide), loaded_is_stored store opens]
    refine ⟨final, ?_, ?_⟩
    · intro other kept
      exact saved_is_stored store located still saves
    · intro config same
      rw [given, located, Option.map_some, Option.mem_some_iff] at same
      exact same ▸ maps.added

theorem addition_serves (grows : Grows answer reservations) (shelf : Shelf answer stored) {batch : List Service}
    (distinct : (settings.providerTag :: tagsOf (batch.filter (·.isLoadBalancer))).Nodup) {state after : σ}
    (ok : effect answer state (Pass.services settings .add batch) = (.ok (), after))
    (creates : Creates answer (made answer state (Pass.services settings .add batch))) :
    ∃ cidrs final, Served settings document reservations stored (batch.filter (·.isLoadBalancer)) cidrs final after := by
  rw [effect_services] at ok
  obtain ⟨listed, opened, lists, ok⟩ := (effect_bind_ok answer).mp ok
  obtain ⟨loaded?, readied, loads, ok⟩ := (effect_bind_ok answer).mp ok
  obtain ⟨⟨cidrs, last?⟩, added, adds, saves⟩ := (effect_bind_ok answer).mp ok
  have adding : Mode.add ≠ .remove := nofun
  have creates := creates.within (adding_within adding lists loads)
  generalize batch.filter (·.isLoadBalancer) = services at distinct adds creates ⊢
  obtain ⟨final, reads, mapped⟩ := saved_given stores loads adds saves
  -- Until the services are added, the reservations are those that were listed.
  have loading : Makes [.load] (loadGiven settings) := makes_loadGiven settings (by decide)
  have held : reservations readied = listed := by
    rw [grows.frame loads loading (by decide) (by decide), grows.listing lists, grows.listed lists]
  obtain ⟨settle, _⟩ := adds_settle grows shelf (addServices_adds adds) creates distinct fun _ _ _ _ => by rw [held]
  have saving : Makes [.patch] (Pass.saveIfChanged settings loaded? last?) := makes_saveIfChanged settings (by decide) loaded? last?
  have kept : reservations after = reservations added := grows.frame saves saving (by decide) (by decide)
  have shelved : stored after = stored added := saving.frame_except saves stored (by decide) shelf.keeps
  exact ⟨cidrs, final, reads, mapped, kept ▸ shelved ▸ settle⟩

end

/-- If every call is granted, the pass succeeds, makes calls of these kinds only, and leaves what is viewed as it is. -/
def Rests (answer : Answers σ) (view : σ → τ) (kinds : List Kind) (state : σ) (pass : Pass α) (value : α) : Prop :=
  Grants answer state pass →
    Meets answer (fun _ call => kind call ∈ kinds) state pass fun result after => result = .ok value ∧ view after = view state

section

variable {view : σ → τ} {kinds : List Kind} {state : σ} {pass : Pass α} {value : α}

theorem Rests.of_idle (idle : Idle answer kinds state pass value) : Rests answer view kinds state pass value := by
  intro _
  refine idle.mono ?_
  rintro result after ⟨ok, rfl⟩
  exact ⟨ok, rfl⟩

theorem Rests.of_succeeds (makes : Makes kinds pass)
    (comes : Succeeds answer state pass fun result after => result = value ∧ view after = view state) :
    Rests answer view kinds state pass value := by
  intro grants
  obtain ⟨_, ok, rfl, same⟩ := comes grants
  exact ⟨fun _ _ member => makes.only member, ok, same⟩

theorem Rests.say_bind {level : Level} {text : String} {next : Unit → Pass β} {result : β}
    (later : Rests answer view kinds state (next ()) result) : Rests answer view kinds state (Pass.say level text >>= next) result :=
  fun grants => Meets.say_bind (later grants)

theorem Rests.bind {next : α → Pass β} {result : β} (first : Rests answer view kinds state pass value)
    (later : ∀ after, view after = view state → Rests answer view kinds after (next value) result) :
    Rests answer view kinds state (pass >>= next) result := by
  intro grants
  obtain ⟨calls, ok, same⟩ := first fun before call member => grants before call (made_first answer _ member)
  generalize ran : effect answer state pass = ending at ok same
  obtain ⟨_, between⟩ := ending
  cases ok
  obtain ⟨more, ok, kept⟩ := later between same fun before call member => grants before call (mem_made_bind answer ran member)
  constructor
  · intro before call member
    rcases made_bind_cases member with member | ⟨_, _, again, member⟩
    · exact calls before call member
    · cases ran.symm.trans again
      exact more before call member
  · rw [effect_then answer ran]
    exact ⟨ok, kept.trans same⟩

end

/-- All that a pass over services may change, as far as it is kept. -/
def shown (settings : Settings) (document : σ → String) (reservations : σ → List Reservation)
    (stored : σ → Identity → Option Service) (state : σ) : Option String × List Reservation × (Identity → Option Service) :=
  (settings.location.map fun _ => document state, reservations state, stored state)

theorem shown_iff {before after : σ} :
    shown settings document reservations stored after = shown settings document reservations stored before ↔
    (∀ location, settings.location = some location → document after = document before) ∧
      reservations after = reservations before ∧ stored after = stored before := by
  unfold shown
  cases settings.location <;> simp

section

variable (stores : Stores answer settings document) (holds : Holds answer reservations) (shelf : Shelf answer stored)
  {kinds : List Kind} {state : σ}
include stores holds shelf

theorem shown_frame {pass : Pass α} (makes : Makes [.list, .load] pass) (state : σ) :
    shown settings document reservations stored (effect answer state pass).2 = shown settings document reservations stored state := by
  have ran : effect answer state pass = (_, _) := Prod.ext rfl rfl
  refine shown_iff.mpr ⟨?_, ?_, ?_⟩
  · intro location located
    exact (stores location located).frame ran makes (by decide)
  · exact holds.frame ran makes (by decide) (by decide)
  · exact makes.frame_except ran stored (by decide) shelf.keeps

/-- A service is told the address that it has. -/
theorem tellAddress_rests (get : .get ∈ kinds) (update : .update ∈ kinds) {identity : Identity} {reservation : Reservation}
    {latest : Service} (there : stored state identity = some (latest.assign reservation.address.write)) :
    Rests answer (shown settings document reservations stored) kinds state (tellAddress identity (some reservation))
      (some reservation.cidr) := by
  have tells : Makes [.get, .update] (tellAddress identity (some reservation)) := makes_tellAddress (by decide) (by decide) identity _
  refine Rests.of_succeeds (makes_tellAddress get update identity _) fun grants => ?_
  obtain ⟨_, ok, rfl⟩ := granted_telling identity reservation state grants
  obtain ⟨reply, after, ran, telling⟩ := tellAddress_telling answer identity reservation state
  rw [ran] at ok
  refine ⟨_, congrArg Prod.fst ran |>.trans ok, rfl, shown_iff.mpr ⟨?_, ?_, ?_⟩⟩
  · intro location located
    exact (stores location located).frame (Prod.ext rfl rfl) tells (by decide)
  · exact holds.frame (Prod.ext rfl rfl) tells (by decide) (by decide)
  · cases reply with
    | error failure => cases ok
    | ok _ =>
      obtain ⟨current, found, updated⟩ := telling_stored shelf telling
      cases there.symm.trans found
      -- To tell a service an address a second time changes nothing about it.
      have same : (latest.assign reservation.address.write).assign reservation.address.write =
        latest.assign reservation.address.write := rfl
      rw [ran, updated, same, ← there, Function.update_eq_self]

theorem addService_rests (get : .get ∈ kinds) (update : .update ∈ kinds) {copy : Service} {cidr : String}
    (settles : SettlesAt settings listed (stored state) copy cidr) {config? : Option Config}
    (present : ∀ config ∈ config?, cidr ∈ config.poolAddresses) :
    Rests answer (shown settings document reservations stored) kinds state (Pass.addService settings listed config? copy)
      ⟨some cidr, config?⟩ := by
  obtain ⟨identity, known, settles⟩ := settles
  cases settles with
  | assigned assigned => exact .of_idle (addService_idle ⟨identity, _, known, assigned, rfl⟩ present)
  | @told reservation latest unassigned owned there =>
    rw [addService_known known, addressOf_eq, unassigned]
    simp only [reservationFor, owned, bind_assoc, pure_bind]
    have tells := tellAddress_rests stores holds shelf get update there
    exact .say_bind (tells.bind fun _ _ => .of_idle (mapGiven_idle identity present))

theorem addServices_rests (get : .get ∈ kinds) (update : .update ∈ kinds) {shelved : Identity → Option Service}
    (there : stored state = shelved) {services : List Service} {cidrs : List String}
    (settle : List.Forall₂ (SettlesAt settings listed shelved) services cidrs) {config? : Option Config}
    (present : ∀ config ∈ config?, ∀ cidr ∈ cidrs, cidr ∈ config.poolAddresses) :
    Rests answer (shown settings document reservations stored) kinds state (Pass.addServices settings listed config? services)
      (cidrs, config?) := by
  induction settle generalizing state with
  | nil => exact .of_idle (.of_effect (.pure _) rfl)
  | @cons copy cidr rest others first _ ih =>
    have here : Rests answer (shown settings document reservations stored) kinds state (Pass.addService settings listed config? copy)
        ⟨some cidr, config?⟩ :=
      addService_rests stores holds shelf get update (there ▸ first) fun config known => present config known cidr (List.mem_cons_self ..)
    refine here.bind fun between same => ?_
    have kept : stored between = shelved := (shown_iff.mp same).2.2.trans there
    refine (ih kept fun config known other member => present config known other (List.mem_cons_of_mem _ member)).bind fun _ _ => ?_
    exact .of_idle (.of_effect (.pure _) rfl)

theorem addition_rests {batch : List Service} {cidrs : List String} {final : Config}
    (served : Served settings document reservations stored (batch.filter (·.isLoadBalancer)) cidrs final state) :
    Rests answer (shown settings document reservations stored) [.list, .load, .get, .update] state
      (Pass.services settings .add batch) () := by
  rw [services_eq]
  generalize batch.filter (·.isLoadBalancer) = services at served ⊢
  have listing : Makes [.list, .load] (Pass.listReservations settings) := makes_listReservations settings (by decide)
  have loading : Makes [.list, .load] (loadGiven settings) := makes_loadGiven settings (by decide)
  have lists : Rests answer (shown settings document reservations stored) [.list, .load, .get, .update] state
      (Pass.listReservations settings) (reservations state) :=
    .of_succeeds (makes_listReservations settings (by decide))
      ((granted_listing holds settings state).also (shown_frame stores holds shelf listing state))
  refine .say_bind (lists.bind fun opened same => ?_)
  obtain ⟨written, held, shelved⟩ := shown_iff.mp same
  have has : Has settings document reservations final (reservations state) opened :=
    ⟨fun location located => by rw [written location located, served.reads location located], held⟩
  have loads : Rests answer (shown settings document reservations stored) [.list, .load, .get, .update] opened
      (loadGiven settings) (given settings final) := by
    refine .of_succeeds (makes_loadGiven settings (by decide)) fun grants => ?_
    obtain ⟨_, ok, rfl, _⟩ := granted_loadGiven stores holds has grants
    exact ⟨_, ok, rfl, shown_frame stores holds shelf loading opened⟩
  refine loads.bind fun readied same => ?_
  have there : stored readied = stored state := (shown_iff.mp same).2.2.trans shelved
  have adds : Rests answer (shown settings document reservations stored) [.list, .load, .get, .update] readied
      (Pass.addServices settings (reservations state) (given settings final) services) (cidrs, given settings final) :=
    addServices_rests stores holds shelf (by decide) (by decide) there served.settle served.mapped
  exact adds.bind fun _ _ => .of_idle (saveIfChanged_idle (given settings final))

end

/-- A batch that was added can be added once more by the same copies, and nothing comes of it. -/
theorem outdated_batch_changes_nothing (stores : Stores answer settings document) (grows : Grows answer reservations)
    (shelf : Shelf answer stored) {batch : List Service} (distinct : Distinct batch)
    (free : settings.providerTag ∉ tagsOf (batch.filter (·.isLoadBalancer))) {state after : σ}
    (ok : effect answer state (Pass.services settings .add batch) = (.ok (), after))
    (creates : Creates answer (made answer state (Pass.services settings .add batch)))
    (grants : Grants answer after (Pass.services settings .add batch)) :
    ∃ last, effect answer after (Pass.services settings .add batch) = (.ok (), last) ∧
      (∀ before call, (before, call) ∈ made answer after (Pass.services settings .add batch) →
        kind call ∈ [Kind.list, .load, .get, .update]) ∧
      (∀ location, settings.location = some location → document last = document after) ∧
      reservations last = reservations after ∧ stored last = stored after := by
  have different : (settings.providerTag :: tagsOf (batch.filter (·.isLoadBalancer))).Nodup := List.nodup_cons.mpr ⟨free, distinct⟩
  obtain ⟨cidrs, final, served⟩ := addition_serves stores grows shelf different ok creates
  obtain ⟨calls, succeeds, same⟩ := addition_rests stores grows.toHolds shelf served grants
  exact ⟨_, Prod.ext succeeds rfl, calls, shown_iff.mp same⟩

section

/-- Another service that asks for an address. -/
def api : Service where
  metadata := { name := some "api", ns := some "shop" }
  spec := some { type := some Service.loadBalancerType }

/-- An address was reserved for one of the services, by a pass that got no further. What else is reserved is for others. -/
def halfway : Site where
  document := some ({} : Config).write
  reservations := [
    ⟨"foreign", .v4 10 0 0 7, 32, []⟩,
    ⟨"old", .v4 10 0 0 8, 32, [plain.providerTag, Identity.tag ⟨"shop", "old"⟩]⟩,
    ⟨"api", .v4 10 0 0 9, 32, [plain.providerTag, Identity.tag ⟨"shop", "api"⟩]⟩]
  services := [web, api]
  keys := by decide

theorem creates_site (offers : Nat → Offer) (calls : List (Site × Call)) : Creates (Site.answer offers) calls := fun _ _ _ _ => rfl

theorem outdated_batch_changes_nothing_halfway : ∃ after,
    (effect (Site.answer counted) halfway (Pass.services plain .add [web, api]) = (.ok (), after) ∧ Distinct [web, api] ∧
      plain.providerTag ∉ tagsOf ([web, api].filter (·.isLoadBalancer)) ∧
      Creates (Site.answer counted) (made (Site.answer counted) halfway (Pass.services plain .add [web, api])) ∧
      Grants (Site.answer counted) after (Pass.services plain .add [web, api])) ∧
    ∃ last, effect (Site.answer counted) after (Pass.services plain .add [web, api]) = (.ok (), last) ∧
      (∀ before call, (before, call) ∈ made (Site.answer counted) after (Pass.services plain .add [web, api]) →
        kind call ∈ [Kind.list, .load, .get, .update]) ∧
      (∀ location, plain.location = some location → last.document.getD "" = after.document.getD "") ∧
      last.reservations = after.reservations ∧ shelved last = shelved after := by
  have ok : (effect (Site.answer counted) halfway (Pass.services plain .add [web, api])).1 = .ok () := by decide +kernel
  have grants : Grants (Site.answer counted) (effect (Site.answer counted) halfway (Pass.services plain .add [web, api])).2
      (Pass.services plain .add [web, api]) := by decide +kernel
  have distinct : Distinct [web, api] := by decide +kernel
  have free : plain.providerTag ∉ tagsOf ([web, api].filter (·.isLoadBalancer)) := by decide +kernel
  have stores : Stores (Site.answer counted) plain (·.document.getD "") := fun location _ => store_site counted location.name ""
  have creates := creates_site counted (made (Site.answer counted) halfway (Pass.services plain .add [web, api]))
  have ran : effect (Site.answer counted) halfway (Pass.services plain .add [web, api]) = (.ok (), _) := Prod.ext ok rfl
  exact ⟨_, ⟨ran, distinct, free, creates, grants⟩, outdated_batch_changes_nothing stores (grows_site counted) (shelf_site counted)
    distinct free ran creates grants⟩

end

end PeerPool.Proofs.OutdatedBatches
