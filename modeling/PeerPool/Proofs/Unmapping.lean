import PeerPool.Proofs.CanonicalAddresses
import PeerPool.Proofs.Removals

/-! Adding a service that has an address already, and removing it again. What is added is mapped
under the text that the service has, and what is removed is unmapped under the text that the
reservation's address is written in. The two are the same for addresses of version 4. -/

namespace PeerPool.Proofs.Unmapping
open PassLogic PassServices PassCalls PassPools PoolEdits PoolRemovals Holdings Synchronized Drifts Coverage Removals CanonicalAddresses
open Sites Provider Cluster

variable {σ : Type} {answer : Answers σ} {settings : Settings}

/-- A service that has an address of its reservation is mapped under its own text for it. -/
theorem knownCidr_denotes {text : String} {reservation : Reservation} (denotes : Address.read? text = some reservation.address) :
    knownCidr (some reservation) text = prefixed text reservation.prefixLength := by
  have matching : Pass.matching? text (some reservation) = some reservation := by simp [Pass.matching?, denotes]
  rw [knownCidr, matching]
  rfl

theorem cidr_prefixed (reservation : Reservation) :
    reservation.cidr = prefixed reservation.address.write reservation.prefixLength := rfl

section

variable {document : σ → String} {reservations : σ → List Reservation} {location : Location}
  (store : Store answer location.name document) (located : settings.location = some location)
include store located

theorem granted_add_assigned (holds : Holds answer reservations) {service : Service} (asks : service.isLoadBalancer = true)
    {identity : Identity} (known : service.identity? = some identity) {text : String} (assigned : service.assignedAddress? = some text)
    {state : σ} {loaded : Config} (read : Config.read (document state) = .ok loaded) :
    Succeeds answer state (Pass.services settings .add [service]) fun _ after =>
      Config.read (document after) = .ok (loaded.addPool
        (Pass.poolOf identity (knownCidr (Pass.owned? settings identity (reservations state)) text))).config ∧
      reservations after = reservations state := by
  refine granted_services store holds located .add [service] ?_ fun _ _ unread => absurd read (unread loaded)
  intro config opened opens same
  cases read.symm.trans opens
  obtain ⟨stored, held⟩ := Prod.mk.inj same
  rw [filter_asking asks, perform, ← held]
  generalize cidr : knownCidr (Pass.owned? settings identity (reservations opened)) text = mapped
  have adds : Succeeds answer opened (Pass.addServices settings (reservations opened) (some loaded) [service]) fun added after =>
      added.2 = some (loaded.addPool (Pass.poolOf identity mapped)).config ∧ after = opened := by
    refine .anyway ?_
    simp only [Pass.addServices, pure_bind, List.append_nil, addService_known known, addressOf_eq, assigned, bind_assoc]
    unfold Pass.debug
    rw [effect_say_bind, effect_bind, effect_mapGiven, cidr]
    exact ⟨_, rfl, rfl, rfl⟩
  refine adds.bind ?_
  rintro ⟨cidrs, _⟩ _ ⟨rfl, rfl⟩
  exact granted_saveIfChanged store holds located _ ((congrArg Config.read stored).trans read)

/-- What is mapped after the one pass and after the other. -/
theorem removal_unmaps_written (ledger : Ledger answer reservations) {service : Service} (asks : service.isLoadBalancer = true)
    {identity : Identity} (known : service.identity? = some identity) {text : String} (assigned : service.assignedAddress? = some text)
    {state : σ} {reservation : Reservation} (owned : Pass.owned? settings identity (reservations state) = some reservation)
    (denotes : Address.read? text = some reservation.address) {loaded : Config} (read : Config.read (document state) = .ok loaded)
    (adds : Grants answer state (Pass.services settings .add [service]))
    (removes : Grants answer (effect answer state (Pass.services settings .add [service])).2 (Pass.services settings .remove [service])) :
    ∃ added removed, effect answer state (Pass.services settings .add [service]) = (.ok (), added) ∧
      effect answer added (Pass.services settings .remove [service]) = (.ok (), removed) ∧
      (∀ cidr, Mapped (document added) cidr ↔ cidr ∈ loaded.poolAddresses ∨ cidr = prefixed text reservation.prefixLength) ∧
      (∀ cidr, Mapped (document removed) cidr ↔ Mapped (document added) cidr ∧ cidr ≠ reservation.cidr) ∧
      (Mapped (document removed) (prefixed text reservation.prefixLength) ↔ text ≠ reservation.address.write) ∧
      (∀ a b c d, reservation.address = .v4 a b c d → ¬ Mapped (document removed) (prefixed text reservation.prefixLength)) := by
  have alone : [service].filter (·.isLoadBalancer) = [service] := by simp [asks]
  obtain ⟨⟨⟩, added, saved, kept⟩ := granted_add_assigned store located ledger.toHolds asks known assigned read adds
  generalize ran : effect answer state (Pass.services settings .add [service]) = result at added saved kept removes
  obtain ⟨_, mapped⟩ := result
  cases added
  have named : ∀ other ∈ [service].filter (·.isLoadBalancer), other.identity?.isSome = true := by
    rw [alone]
    simp [known]
  obtain ⟨⟨⟩, removed, unmaps, _⟩ := granted_remove store ledger located named saved removes
  have reserved : reservedFor settings (reservations state) [service] = [reservation] := by simp [reservedFor, known, owned]
  rw [owned, knownCidr_denotes denotes] at saved unmaps
  rw [kept, alone, reserved] at unmaps
  refine ⟨mapped, _, rfl, Prod.ext removed rfl, ?_⟩
  have here (cidr : String) : Mapped (document mapped) cidr ↔ cidr ∈ loaded.poolAddresses ∨ cidr = prefixed text reservation.prefixLength := by
    rw [mapped_iff saved, mem_addPool loaded cidr _ rfl, or_comm]
  have there (cidr : String) : Mapped (document (effect answer mapped (Pass.services settings .remove [service])).2) cidr ↔
      Mapped (document mapped) cidr ∧ cidr ≠ reservation.cidr := by
    rw [mapped_iff unmaps, mem_unmapped_all, mapped_iff saved, List.map_singleton, List.mem_singleton]
  -- What was added is unmapped under the reservation's own text, so it stays if the two texts differ.
  have stays : Mapped (document (effect answer mapped (Pass.services settings .remove [service])).2)
      (prefixed text reservation.prefixLength) ↔ text ≠ reservation.address.write := by
    rw [there, here, and_iff_right (.inr rfl), cidr_prefixed, Ne, prefixed_inj, and_iff_left rfl]
  refine ⟨here, there, stays, ?_⟩
  intro a b c d version
  rw [stays, version, not_not]
  exact write_of_read?_v4 (version ▸ denotes)

end

section

theorem ledger_site (offers : Nat → Offer) : Ledger (Site.answer offers) Site.reservations where
  toInventory := inventory_site offers
  refuses site id error answered := by cases answered

/-- A service that was given its reservation's address in capitals. -/
def capitals : Service := web.assign "2001:DB8::1"

def lowerCase : Reservation :=
  ⟨"r1", .v6 #v[0x2001, 0xDB8, 0, 0, 0, 0, 0, 1], 128, [Identity.tag ⟨"shop", "web"⟩, plain.providerTag]⟩

def capitalSite : Site where
  document := some ({} : Config).write
  services := [capitals]
  reservations := [lowerCase]
  keys := keys_single capitals

def addition : Pass Unit := Pass.services plain .add [capitals]

def removal : Pass Unit := Pass.services plain .remove [capitals]

theorem capital_grants : Grants (Site.answer counted) capitalSite addition ∧
    Grants (Site.answer counted) (effect (Site.answer counted) capitalSite addition).2 removal := by decide +kernel

theorem capitals_denote : Pass.owned? plain ⟨"shop", "web"⟩ capitalSite.reservations = some lowerCase ∧
    Address.read? "2001:DB8::1" = some lowerCase.address := by decide +kernel

theorem removal_unmaps_written_capitals : ∃ added removed, effect (Site.answer counted) capitalSite addition = (.ok (), added) ∧
    effect (Site.answer counted) added removal = (.ok (), removed) ∧
    (∀ cidr, Mapped (added.document.getD "") cidr ↔ cidr ∈ ([] : List String) ∨ cidr = prefixed "2001:DB8::1" 128) ∧
    (∀ cidr, Mapped (removed.document.getD "") cidr ↔ Mapped (added.document.getD "") cidr ∧ cidr ≠ lowerCase.cidr) ∧
    (Mapped (removed.document.getD "") (prefixed "2001:DB8::1" 128) ↔ "2001:DB8::1" ≠ lowerCase.address.write) ∧
    (∀ a b c d, lowerCase.address = .v4 a b c d → ¬ Mapped (removed.document.getD "") (prefixed "2001:DB8::1" 128)) := by
  have located : plain.location = some ⟨"metallb-system", "config"⟩ := rfl
  have store : Store (Site.answer counted) "config" (·.document.getD "") := store_site counted "config" ""
  have known : capitals.identity? = some ⟨"shop", "web"⟩ := rfl
  have assigned : capitals.assignedAddress? = some "2001:DB8::1" := by decide +kernel
  have read : Config.read (capitalSite.document.getD "") = .ok {} := ConfigRoundTrip.read_write {}
  obtain ⟨adds, removes⟩ := capital_grants
  obtain ⟨owned, denotes⟩ := capitals_denote
  exact removal_unmaps_written store located (ledger_site counted) rfl known assigned owned denotes read adds removes

/-- What was mapped in capitals stays mapped, though the service is removed and every call is granted. -/
theorem capitals_stay_mapped :
    (Pass.owned? plain ⟨"shop", "web"⟩ capitalSite.reservations = some lowerCase ∧
      Address.read? "2001:DB8::1" = some lowerCase.address) ∧
    (Grants (Site.answer counted) capitalSite addition ∧
      Grants (Site.answer counted) (effect (Site.answer counted) capitalSite addition).2 removal) ∧
    capitals.isLoadBalancer = true ∧ capitals.assignedAddress? = some "2001:DB8::1" ∧
    ¬ Mapped (capitalSite.document.getD "") "2001:DB8::1/128" ∧
    Mapped ((effect (Site.answer counted) capitalSite addition).2.document.getD "") "2001:DB8::1/128" ∧
    Mapped ((effect (Site.answer counted) (effect (Site.answer counted) capitalSite addition).2 removal).2.document.getD "")
      "2001:DB8::1/128" :=
  ⟨capitals_denote, capital_grants, by decide +kernel⟩

end

end PeerPool.Proofs.Unmapping
