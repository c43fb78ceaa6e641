import PeerPool.Proofs.Additions

/-! A service that was told the address of its reservation, added again. Its address then comes from
the text that it has and no longer from the reservation, and the prefix length comes with it only if
the text denotes the address of the reservation. -/

namespace PeerPool.Proofs.RepeatedAdditions
open PassLogic PassServices PassCalls PassPools SiteEffects AddressSources Additions Coverage Sites Provider Cluster

variable {σ : Type} {answer : Answers σ} {settings : Settings} {listed : List Reservation} {identity : Identity}

/-- The text that a service has for an address. -/
def addressText (service : Service) : Option String := service.spec.bind ServiceSpec.loadBalancerAddress

/-- Adding the service brings back this text in any world, and asks nothing of it. -/
def Stands (settings : Settings) (listed : List Reservation) (service : Service) (cidr : String) : Prop :=
  ∀ {τ : Type} (answer : Answers τ) (state : τ) (config? : Option Config), ∃ last?,
    effect answer state (Pass.addService settings listed config? service) = (.ok ⟨some cidr, last?⟩, state) ∧
      made answer state (Pass.addService settings listed config? service) = []

theorem stands_written {service : Service} (known : service.identity? = some identity) {reservation : Reservation}
    (owned : Pass.owned? settings identity listed = some reservation) (text : addressText service = some reservation.address.write) :
    Stands settings listed service reservation.cidr := by
  intro τ answer state config?
  have comes : Pass.addressOf settings listed service identity = (do
      Pass.debug s!"Service '{identity.write}' already has address {reservation.address.write}"
      return some reservation.cidr) := by
    rw [addressOf_eq, assignedAddress_written text, owned]
    simp only [knownCidr_written]
  refine ⟨mapped identity (some reservation.cidr) config?, ?_, ?_⟩
  · rw [effect_addService answer state known, comes]
    rfl
  · rw [made_addService known, comes]
    rfl

section

variable {state after : σ} {calls : List (σ × Call)}

theorem telling_writes {address : Address} (telling : Telling answer identity address state calls (.ok ()) after) :
    ∃ before updated, (before, .updateService updated) ∈ calls ∧ (answer before (.updateService updated)).1 = .ok () ∧
      addressText updated = some address.write := by
  cases telling with
  | read _ written => exact ⟨_, _, List.mem_cons_of_mem _ (List.mem_singleton_self _), congrArg Prod.fst written, rfl⟩

theorem untold_refused {failure : StoreError} (untold : Untold answer identity calls failure) :
    ¬ ∀ before call, (before, call) ∈ calls → granted call (answer before call).1 = true := by
  intro grants
  cases untold with
  | unread member refused =>
    have granted := grants _ _ member
    rw [refused] at granted
    cases granted
  | unwritten member refused =>
    have granted := grants _ _ member
    rw [refused] at granted
    cases granted

end

/-- What a service is told comes back whenever it is added again, as it did when it was told. -/
theorem addition_repeats (answer : Answers σ) {service : Service} (known : service.identity? = some identity)
    (unassigned : service.assignedAddress? = none) {reservation : Reservation}
    (owned : Pass.owned? settings identity listed = some reservation) (config? : Option Config) (state : σ) :
    (Grants answer state (Pass.addService settings listed config? service) →
      ∃ added after, effect answer state (Pass.addService settings listed config? service) = (.ok added, after)) ∧
    (∀ added after, effect answer state (Pass.addService settings listed config? service) = (.ok added, after) →
      added.cidr = some reservation.cidr ∧
      ∃ before updated, (before, .updateService updated) ∈ made answer state (Pass.addService settings listed config? service) ∧
        (answer before (.updateService updated)).1 = .ok () ∧ addressText updated = some reservation.address.write ∧
        ∀ again : Service, again.identity? = some identity → addressText again = addressText updated →
          Stands settings listed again reservation.cidr) ∧
    ∀ address : Address, Address.read? address.write = some address := by
  have course := addressOf_course answer settings listed identity service state
  rw [Grants, effect_addService answer state known, made_addService known]
  generalize effect answer state (Pass.addressOf settings listed service identity) = found at course
  obtain ⟨_, ending⟩ := found
  obtain ⟨reply, telling, rfl⟩ := course_owned course unassigned owned
  cases reply with
  | error failure =>
    exact ⟨fun grants => absurd grants (untold_refused ((telling_fails telling).mp rfl)), nofun, AddressRoundTrip.read_write⟩
  | ok _ =>
    obtain ⟨before, updated, member, accepted, text⟩ := telling_writes telling
    refine ⟨fun _ => ⟨_, _, rfl⟩, ?_, AddressRoundTrip.read_write⟩
    rintro _ _ ⟨⟩
    refine ⟨rfl, before, updated, member, accepted, text, ?_⟩
    exact fun again same carried => stands_written same owned (carried.trans text)

/-- A service that is stored, with an address of version 6 that is reserved for it. -/
def reservedSite : Site where
  services := [web]
  reservations := [Unmapping.lowerCase]
  keys := keys_single web

theorem addition_repeats_web :
    web.identity? = some ⟨"shop", "web"⟩ ∧ web.assignedAddress? = none ∧
    Pass.owned? plain ⟨"shop", "web"⟩ reservedSite.reservations = some Unmapping.lowerCase ∧
    Grants (Site.answer counted) reservedSite (Pass.addService plain reservedSite.reservations none web) ∧
    ∃ added after,
      effect (Site.answer counted) reservedSite (Pass.addService plain reservedSite.reservations none web) = (.ok added, after) ∧
      added.cidr = some Unmapping.lowerCase.cidr ∧
      ∃ before updated,
        (before, .updateService updated) ∈
          made (Site.answer counted) reservedSite (Pass.addService plain reservedSite.reservations none web) ∧
        (Site.answer counted before (.updateService updated)).1 = .ok () ∧
        addressText updated = some Unmapping.lowerCase.address.write ∧
        ∀ again : Service, again.identity? = some ⟨"shop", "web"⟩ → addressText again = addressText updated →
          Stands plain reservedSite.reservations again Unmapping.lowerCase.cidr := by
  have known : web.identity? = some ⟨"shop", "web"⟩ := rfl
  have owned : Pass.owned? plain ⟨"shop", "web"⟩ reservedSite.reservations = some Unmapping.lowerCase := by decide +kernel
  have grants : Grants (Site.answer counted) reservedSite (Pass.addService plain reservedSite.reservations none web) := by
    decide +kernel
  obtain ⟨returns, repeats, -⟩ := addition_repeats (Site.answer counted) known rfl owned none reservedSite
  obtain ⟨added, after, ran⟩ := returns grants
  exact ⟨known, rfl, owned, grants, added, after, ran, repeats added after ran⟩

end PeerPool.Proofs.RepeatedAdditions
