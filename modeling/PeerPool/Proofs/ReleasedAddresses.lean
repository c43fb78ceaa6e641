import PeerPool.Proofs.AddressSources
import PeerPool.Proofs.CanonicalAddresses
import PeerPool.Proofs.Overtaking
import PeerPool.Proofs.Removals

/-! What stays mapped of the addresses that a synchronizing pass releases. The pools are brought
in line with the texts that services use, and the reservations with the services' tags. So an
address stays mapped whose reservation is released if a service has it without owning it. -/

namespace PeerPool.Proofs.ReleasedAddresses
open PassLogic PassServices PassCalls PassPools PoolEdits Holdings Synchronized Deletions Drifts Coverage Removals AddressSources CanonicalAddresses
open FixedPoint Overtaking Sites Provider Cluster

variable {σ α : Type} {answer : Answers σ} {settings : Settings}

/-- A reservation is released if it is held when its ID is deleted. -/
def Released (answer : Answers σ) (reservations : σ → List Reservation) (calls : List (σ × Call)) (reservation : Reservation) : Prop :=
  ∃ before, (before, .deleteReservation reservation.id) ∈ calls ∧
    (answer before (.deleteReservation reservation.id)).1 = .ok () ∧ reservation ∈ reservations before

section

variable {reservations : σ → List Reservation} (ledger : Ledger answer reservations)
include ledger

theorem deleteOrphans_releases {orphans : List Reservation} {state : σ} {reservation : Reservation}
    (released : Released answer reservations (made answer state (Pass.deleteOrphans orphans)) reservation) :
    reservation ∈ reservations state ∧ reservation.id ∈ orphans.map (·.id) := by
  obtain ⟨before, member, _, held⟩ := released
  have makes : Makes [.delete] (Pass.deleteOrphans orphans) := makes_deleteOrphans (by decide) orphans
  have shrinks (between : σ) (call : Call) (known : kind call ∈ [Kind.delete]) (fewer : reservations between ⊆ reservations state) :
      reservations (answer between call).2 ⊆ reservations state := by
    cases call with
    | deleteReservation id =>
      cases answered : (answer between (.deleteReservation id)).1 with
      | ok _ =>
        rw [ledger.deletes between id answered]
        exact List.Subset.trans (List.filter_subset_self _) fewer
      | error error =>
        rw [ledger.refuses between id error answered]
        exact fewer
    | _ => exact absurd known (by simp [kind])
  obtain ⟨throughout, _⟩ := Asks.throughout (fun between => reservations between ⊆ reservations state) makes shrinks (List.Subset.refl _)
  refine ⟨(throughout before _ member).2 held, ?_⟩
  have asks := (@deleteOrphans_deletes σ answer orphans state).2
  have asked : Call.deleteReservation reservation.id ∈ orphans.map (.deleteReservation ·.id) := by
    rw [← asks]
    exact List.mem_map_of_mem member
  obtain ⟨orphan, inside, same⟩ := List.mem_map.mp asked
  exact List.mem_map.mpr ⟨orphan, inside, Call.deleteReservation.inj same⟩

/-- What cleaning up releases was made for none of the services. -/
theorem cleanUp_releases {state : σ} (distinct : ((reservations state).map (·.id)).Nodup) {loaded? : Option Config}
    {services : List Service} {added : List String × Option Config} {reservation : Reservation}
    (released : Released answer reservations (made answer state (cleanUp settings loaded? services added)) reservation) :
    reservation ∈ reservations state ∧ leftOver settings (tagsOf services) reservation = true := by
  obtain ⟨before, member, deleted, held⟩ := released
  rw [cleanUp_eq] at member
  have tidies : Makes [.list, .patch] (tidy settings loaded? services added) := makes_tidy (by decide) (by decide) loaded? services added
  obtain ⟨orphans, tidied, tidying, member⟩ := tidies.behind (by simp [kind]) member
  have kept : reservations tidied = reservations state := ledger.frame tidying tidies (by decide) (by decide)
  -- What is left over is chosen from a list that is read before any reservation is deleted.
  obtain ⟨current, relisted, lists, rest⟩ := (effect_bind_ok answer).mp tidying
  have shown := ledger.listed lists
  subst shown
  obtain ⟨_, _, _, rest⟩ := (effect_bind_ok answer).mp rest
  obtain ⟨_, _, _, rest⟩ := (effect_bind_ok answer).mp rest
  obtain ⟨_, _, _, rest⟩ := (effect_bind_ok answer).mp rest
  obtain ⟨_, _, _, same⟩ := (effect_bind_ok answer).mp rest
  cases same
  obtain ⟨known, orphaned⟩ := deleteOrphans_releases ledger ⟨before, member, deleted, held⟩
  rw [kept] at known
  refine ⟨known, ?_⟩
  obtain ⟨orphan, inside, same⟩ := List.mem_map.mp orphaned
  rw [orphans_eq] at inside
  obtain ⟨present, left⟩ := List.mem_filter.mp inside
  rw [← List.inj_on_of_nodup_map distinct present known same]
  exact left

end

/-- Of all calls, those that make reservations are made while services are added, and those
that delete any are made while cleaning up. -/
structure Parts (calls adding cleaning : List (σ × Call)) : Prop where
  adds : ∀ entry ∈ adding, entry ∈ calls
  creates : ∀ entry ∈ calls, kind entry.2 = .create → entry ∈ adding
  deletes : ∀ entry ∈ calls, kind entry.2 = .delete → entry ∈ cleaning

theorem sync_parts {batch : List Service} {state after : σ}
    (ok : effect answer state (Pass.services settings .sync batch) = (.ok (), after)) :
    ∃ listed opened loaded? readied cidrs last? added, effect answer state (Pass.listReservations settings) = (.ok listed, opened) ∧
      effect answer opened (loadGiven settings) = (.ok loaded?, readied) ∧
      effect answer readied (Pass.addServices settings listed loaded? (batch.filter (·.isLoadBalancer))) = (.ok (cidrs, last?), added) ∧
      effect answer added (cleanUp settings loaded? (batch.filter (·.isLoadBalancer)) (cidrs, last?)) = (.ok (), after) ∧
      Parts (made answer state (Pass.services settings .sync batch))
        (made answer readied (Pass.addServices settings listed loaded? (batch.filter (·.isLoadBalancer))))
        (made answer added (cleanUp settings loaded? (batch.filter (·.isLoadBalancer)) (cidrs, last?))) := by
  rw [effect_services] at ok
  rw [made_services]
  generalize batch.filter (·.isLoadBalancer) = services at ok ⊢
  obtain ⟨listed, opened, lists, rest⟩ := (effect_bind_ok answer).mp ok
  obtain ⟨loaded?, readied, loads, rest⟩ := (effect_bind_ok answer).mp rest
  rw [perform, syncServices_eq] at rest
  obtain ⟨⟨cidrs, last?⟩, added, adds, cleans⟩ := (effect_bind_ok answer).mp rest
  refine ⟨listed, opened, loaded?, readied, cidrs, last?, added, lists, loads, adds, cleans, ?_⟩
  have listing : Makes [.list] (Pass.listReservations settings) := makes_listReservations settings (by decide)
  have loading : Makes [.load] (loadGiven settings) := makes_loadGiven settings (by decide)
  have adding : Makes [.create, .get, .update] (Pass.addServices settings listed loaded? services) :=
    makes_addServices settings (by decide) (by decide) (by decide) listed loaded? services
  have cleaning : Makes [.list, .patch, .delete] (cleanUp settings loaded? services (cidrs, last?)) :=
    makes_cleanUp settings (by decide) (by decide) (by decide) loaded? services (cidrs, last?)
  simp only [made_bind, lists, loads, perform, syncServices_eq, adds]
  constructor
  · intro entry member
    simp [member]
  · intro entry member creates
    simp only [List.mem_append] at member
    rcases member with list | load | add | clean
    · exact absurd (creates ▸ listing.only list) (by decide)
    · exact absurd (creates ▸ loading.only load) (by decide)
    · exact add
    · exact absurd (creates ▸ cleaning.only clean) (by decide)
  · intro entry member deletes
    simp only [List.mem_append] at member
    rcases member with list | load | add | clean
    · exact absurd (deletes ▸ listing.only list) (by decide)
    · exact absurd (deletes ▸ loading.only load) (by decide)
    · exact absurd (deletes ▸ adding.only add) (by decide)
    · exact clean

/-- The pools hold what the services use when a synchronizing pass is through. -/
theorem sync_maps {location : Location} {document : σ → String} (store : Store answer location.name document)
    (located : settings.location = some location) {services : List Service} {listed : List Reservation} {loaded? last? : Option Config}
    {cidrs : List String} {opened readied added after : σ} (loads : effect answer opened (loadGiven settings) = (.ok loaded?, readied))
    (adds : effect answer readied (Pass.addServices settings listed loaded? services) = (.ok (cidrs, last?), added))
    (cleans : effect answer added (cleanUp settings loaded? services (cidrs, last?)) = (.ok (), after)) (cidr : String) :
    Mapped (document after) cidr ↔ cidr ∈ cidrs := by
  obtain ⟨loaded, rfl, opens⟩ := loadGiven_ok answer opened located loads
  obtain ⟨final, known, maps⟩ := (addServices_adds adds).maps loaded rfl
  cases known
  have adding : Makes [.create, .get, .update] (Pass.addServices settings listed (some loaded) services) :=
    makes_addServices settings (by decide) (by decide) (by decide) listed (some loaded) services
  have loading : Makes [.load] (loadGiven settings) := makes_loadGiven settings (by decide)
  have still : Config.read (document added) = .ok loaded := by
    rw [store.frame adds adding (by decide), ← loaded_is_stored store opens, store.frame loads loading (by decide)]
  rw [mapped_iff (cleanUp_saves store located still cleans), mem_unmapped_maps maps]

section

variable {document : σ → String} {reservations : σ → List Reservation} {name : String}
  (lawful : Lawful document reservations answer name)
include lawful

theorem goesBy_held {listed : List Reservation} {config? : Option Config} {services : List Service} {state after : σ}
    {result : Except PassError (List String × Option Config)} (shown : listed = reservations state)
    (ran : effect answer state (Pass.addServices settings listed config? services) = (result, after)) {reservation : Reservation}
    (found : reservation ∈ listed ∨ Created answer (made answer state (Pass.addServices settings listed config? services)) reservation) :
    reservation ∈ reservations after := by
  have makes : Makes [.create, .get, .update] (Pass.addServices settings listed config? services) :=
    makes_addServices settings (by decide) (by decide) (by decide) listed config? services
  have keeps (between : σ) (call : Call) (known : kind call ∈ [Kind.create, .get, .update])
      (held : reservation ∈ reservations between) : reservation ∈ reservations (answer between call).2 := by
    cases call with
    | createReservation project request =>
      cases answered : (answer between (.createReservation project request)).1 with
      | ok created =>
        rw [(lawful.creates between project request created answered).2]
        exact List.mem_append_left _ held
      | error error =>
        rw [lawful.refuses between project request error answered]
        exact held
    | deleteReservation id => exact absurd known (by simp [kind])
    | _ =>
      rw [lawful.inventory.keeps between _ (by simp [kind]) (by simp [kind])]
      exact held
  rcases found with held | ⟨before, project, request, member, answered⟩
  · exact makes.preserves ran (reservation ∈ reservations ·) keeps (shown ▸ held)
  · refine makes.since ran (reservation ∈ reservations ·) keeps member ?_
    rw [(lawful.creates before project request reservation answered).2]
    exact List.mem_append_right _ (List.mem_singleton.mpr rfl)

/-- What a service goes by was made for the service. -/
theorem goesBy_spared {listed : List Reservation} {calls : List (σ × Call)} {services : List Service} {identity : Identity}
    (member : identity.tag ∈ tagsOf services) {reservation : Reservation}
    (goes : GoesBy answer settings listed calls identity reservation) : leftOver settings (tagsOf services) reservation = false := by
  have tagged : identity.tag ∈ reservation.tags := by
    cases goes with
    | owned found =>
      have all := List.find?_some found
      simp only [Reservation.hasAllTags, List.all_cons, Bool.and_eq_true, List.contains_iff_mem] at all
      exact all.1
    | made _ _ answered =>
      rw [(lawful.creates _ _ _ _ answered).1]
      simp [requestFor, Request.single]
  have any : (tagsOf services).any reservation.tags.contains = true :=
    List.any_eq_true.mpr ⟨identity.tag, member, List.contains_iff_mem.mpr tagged⟩
  simp [leftOver, any]

end

theorem write_inj {first second : Address} (same : first.write = second.write) : first = second :=
  Option.some.inj ((AddressRoundTrip.read_write first).symm.trans ((congrArg Address.read? same).trans (AddressRoundTrip.read_write second)))

/-- A service that goes by other reservations uses the address of this one only if it has it already. -/
theorem uses_foreign {listed held : List Reservation} {calls : List (σ × Call)} {service : Service} {identity : Identity}
    (known : service.identity? = some identity) {reservation : Reservation} (apart : (held.map (·.address)).Nodup)
    (inside : reservation ∈ held) (others : ∀ other, GoesBy answer settings listed calls identity other → other ∈ held ∧ other ≠ reservation) :
    Uses answer settings listed calls service reservation.cidr ↔
      reservation.prefixLength = Pass.hostPrefixLength ∧ service.assignedAddress? = some reservation.address.write := by
  have differs {other : Reservation} (goes : GoesBy answer settings listed calls identity other) : other.address ≠ reservation.address := by
    obtain ⟨present, other⟩ := others other goes
    exact fun same => other (List.inj_on_of_nodup_map apart present inside same)
  -- The service owns nothing for this address, so its text is mapped like that of a single host.
  have unmatched : Pass.matching? reservation.address.write (Pass.owned? settings identity listed) = none := by
    refine Option.eq_none_iff_forall_ne_some.mpr fun other found => ?_
    obtain ⟨owned, same⟩ := Option.filter_eq_some_iff.mp found
    rw [AddressRoundTrip.read_write, beq_iff_eq, Option.some.injEq] at same
    exact differs (.owned owned) same.symm
  have written : knownCidr (Pass.owned? settings identity listed) reservation.address.write =
      prefixed reservation.address.write Pass.hostPrefixLength := by
    rw [knownCidr, unmatched]
    rfl
  constructor
  · intro uses
    generalize cidr : reservation.cidr = text at uses
    cases uses with
    | @assigned other text named assigned =>
      cases known.symm.trans named
      have texts := (prefixed_inj.mp cidr).1
      subst texts
      exact ⟨(prefixed_inj.mp (cidr.trans written)).2, assigned⟩
    | reserved named _ goes =>
      cases known.symm.trans named
      exact absurd (write_inj (prefixed_inj.mp cidr).1).symm (differs goes)
  · rintro ⟨length, assigned⟩
    have cidr : reservation.cidr = knownCidr (Pass.owned? settings identity listed) reservation.address.write := by
      rw [written, ← length]
      rfl
    rw [cidr]
    exact .assigned known assigned

/-- What a synchronizing pass leaves mapped, and what of it is released. -/
structure Leaves (answer : Answers σ) (document : σ → String) (reservations : σ → List Reservation) (settings : Settings)
    (services : List Service) (state : σ) (calls : List (σ × Call)) (after : σ) : Prop where
  maps : ∀ cidr, Mapped (document after) cidr ↔ ∃ service ∈ services, Uses answer settings (reservations state) calls service cidr
  /-- No service goes by what is released. -/
  foreign : ∀ reservation, Released answer reservations calls reservation → ∀ service ∈ services, ∀ identity ∈ service.identity?,
    ¬ GoesBy answer settings (reservations state) calls identity reservation
  /-- If no two reservations are for one address, a released one stays mapped exactly if a service has its address. -/
  released : (∀ state, ((reservations state).map (·.address)).Nodup) → ∀ reservation, Released answer reservations calls reservation →
    (Mapped (document after) reservation.cidr ↔ reservation.prefixLength = Pass.hostPrefixLength ∧
      ∃ service ∈ services, service.assignedAddress? = some reservation.address.write)

theorem released_unless_used {document : σ → String} {reservations : σ → List Reservation} {location : Location}
    (lawful : Lawful document reservations answer location.name) (ledger : Ledger answer reservations)
    (located : settings.location = some location) {batch : List Service} {state after : σ}
    (ok : effect answer state (Pass.services settings .sync batch) = (.ok (), after)) :
    Leaves answer document reservations settings (batch.filter (·.isLoadBalancer)) state
      (made answer state (Pass.services settings .sync batch)) after := by
  obtain ⟨listed, opened, loaded?, readied, cidrs, last?, added, lists, loads, adds, cleans, parts⟩ := sync_parts ok
  generalize batch.filter (·.isLoadBalancer) = services at adds cleans parts ⊢
  generalize made answer state (Pass.services settings .sync batch) = calls at parts ⊢
  have loading : Makes [.load] (loadGiven settings) := makes_loadGiven settings (by decide)
  have shown : listed = reservations state := lawful.holds.listed lists
  have unlisted : reservations readied = reservations state := by
    rw [lawful.holds.frame loads loading (by decide) (by decide), lawful.holds.listing lists]
  subst shown
  have maps (cidr : String) : Mapped (document after) cidr ↔ ∃ service ∈ services, Uses answer settings (reservations state) calls service cidr := by
    rw [sync_maps lawful.store located loads adds cleans]
    refine adds_exactly (addServices_adds adds) parts.adds ?_ cidr
    rintro reservation ⟨before, project, request, asked, answered⟩
    exact ⟨before, project, request, parts.creates _ asked rfl, answered⟩
  have left (reservation : Reservation) (released : Released answer reservations calls reservation) :
      reservation ∈ reservations added ∧ leftOver settings (tagsOf services) reservation = true := by
    obtain ⟨before, deletes, deleted, held⟩ := released
    exact cleanUp_releases ledger (lawful.distinct added) ⟨before, parts.deletes _ deletes rfl, deleted, held⟩
  -- What a service goes by bears its tag, and nothing with such a tag is left over.
  have spared {service : Service} (member : service ∈ services) {identity : Identity} (known : service.identity? = some identity)
      {reservation : Reservation} (goes : GoesBy answer settings (reservations state) calls identity reservation) :
      reservation ∈ reservations added ∧ leftOver settings (tagsOf services) reservation = false := by
    refine ⟨goesBy_held lawful unlisted.symm adds ?_, goesBy_spared lawful (mem_tagsOf member known) goes⟩
    cases goes with
    | owned found => exact .inl (List.mem_of_find?_eq_some found)
    | made _ asked answered => exact .inr ⟨_, _, _, parts.creates _ asked rfl, answered⟩
  refine ⟨maps, ?_, ?_⟩
  · intro reservation released service member identity known goes
    have kept := (spared member known goes).2
    rw [(left reservation released).2] at kept
    cases kept
  · intro apart reservation released
    obtain ⟨inside, orphaned⟩ := left reservation released
    have foreign {service : Service} (member : service ∈ services) : Uses answer settings (reservations state) calls service reservation.cidr ↔
        reservation.prefixLength = Pass.hostPrefixLength ∧ service.assignedAddress? = some reservation.address.write := by
      obtain ⟨identity, known⟩ := Option.isSome_iff_exists.mp (adds_named (addServices_adds adds) service member)
      refine uses_foreign known (apart added) inside fun other goes => ?_
      obtain ⟨present, kept⟩ := spared member known goes
      refine ⟨present, ?_⟩
      rintro rfl
      rw [orphaned] at kept
      cases kept
    rw [maps]
    constructor
    · rintro ⟨service, member, uses⟩
      obtain ⟨length, assigned⟩ := (foreign member).mp uses
      exact ⟨length, service, member, assigned⟩
    · rintro ⟨length, service, member, assigned⟩
      exact ⟨service, member, (foreign member).mpr ⟨length, assigned⟩⟩

section

theorem ledger_apart (offers : Nat → Offer) : Ledger (answerApart offers) Apart.held where
  toInventory := (lawful_apart offers "").inventory
  refuses site id error answered := by cases answered

/-- A reservation that was made for a service under another name. -/
def renamedReservation : Reservation := (counted 0).reservation [plain.providerTag, Identity.tag ⟨"shop", "old"⟩]

/-- The service has kept its address. -/
def renamedService : Service := web.assign "10.0.0.0"

def renamed : Apart counted where
  val := {
    document := some ({} : Config).write
    services := [renamedService]
    reservations := [renamedReservation]
    created := 1
    keys := keys_single _ }
  property := distinct_counted rfl

def synchronization : Pass Unit := Pass.services plain .sync [renamedService]

theorem synchronization_ok : (effect (answerApart counted) renamed synchronization).1 = .ok () := by decide +kernel

theorem released_unless_used_renamed : ∃ after, effect (answerApart counted) renamed synchronization = (.ok (), after) ∧
    Leaves (answerApart counted) Apart.text Apart.held plain [renamedService] renamed
      (made (answerApart counted) renamed synchronization) after := by
  have located : plain.location = some ⟨"metallb-system", "config"⟩ := rfl
  have ok : effect (answerApart counted) renamed synchronization =
      (.ok (), (effect (answerApart counted) renamed synchronization).2) := Prod.ext synchronization_ok rfl
  exact ⟨_, ok, released_unless_used (lawful_apart counted "config") (ledger_apart counted) located ok⟩

/-- The address that the service has stays mapped, though its reservation is released. -/
theorem renamed_stays_mapped : (effect (answerApart counted) renamed synchronization).1 = .ok () ∧
    Released (answerApart counted) Apart.held (made (answerApart counted) renamed synchronization) renamedReservation ∧
    renamedReservation ∉ (effect (answerApart counted) renamed synchronization).2.held ∧
    Mapped (effect (answerApart counted) renamed synchronization).2.text renamedReservation.cidr := by
  have releases : ∃ entry ∈ made (answerApart counted) renamed synchronization,
      deletions [entry] = [renamedReservation.id] ∧ renamedReservation ∈ entry.1.held := by decide +kernel
  refine ⟨synchronization_ok, ?_, by decide +kernel⟩
  obtain ⟨⟨before, call⟩, member, deletes, held⟩ := releases
  cases call with
  | deleteReservation id =>
    cases List.singleton_inj.mp deletes
    exact ⟨before, member, rfl, held⟩
  | _ => cases deletes

end

end PeerPool.Proofs.ReleasedAddresses
