import PeerPool.Proofs.Coverage
import PeerPool.Proofs.PoolRemovals

/-! What removing services comes to. Each of them gives up the first reservation that it owns, if
it owns one, and exactly the addresses of those reservations are unmapped that are deleted. -/

namespace PeerPool.Proofs.Removals
open PassLogic PassServices PassCalls PoolEdits PoolRemovals Holdings Synchronized Drifts Coverage Provider Cluster

variable {σ : Type} {answer : Answers σ} {settings : Settings} {listed : List Reservation}

/-- The reservations that services are to give up. -/
def reservedFor (settings : Settings) (listed : List Reservation) (services : List Service) : List Reservation :=
  services.filterMap fun service => service.identity?.bind (Pass.owned? settings · listed)

/-- Of what services own, all that is given up in a run of deletions, one of them for each. -/
def givenUp (answer : Answers σ) (owned : List Reservation) (deletions : List (σ × Call)) : List Reservation :=
  ((owned.zip deletions).filter fun entry => granted entry.2.2 (answer entry.2.1 entry.2.2).1).map Prod.fst

def without (held gone : List Reservation) : List Reservation := held.filter fun reservation => !(gone.map (·.id)).contains reservation.id

/-- Services are removed one after another by these calls, and these reservations are deleted. -/
inductive Frees (answer : Answers σ) (settings : Settings) (listed : List Reservation) :
    σ → List Service → List Reservation → List (σ × Call) → σ → Prop where
  | nil {state : σ} : Frees answer settings listed state [] [] [] state
  | unreserved {state after : σ} {service : Service} {rest : List Service} {freed : List Reservation} {calls : List (σ × Call)}
      {identity : Identity} : service.identity? = some identity → Pass.owned? settings identity listed = none →
      Frees answer settings listed state rest freed calls after →
      Frees answer settings listed state (service :: rest) freed calls after
  | refused {state between after : σ} {service : Service} {rest : List Service} {freed : List Reservation}
      {calls : List (σ × Call)} {identity : Identity} {reservation : Reservation} {error : Provider.Error} :
      service.identity? = some identity → Pass.owned? settings identity listed = some reservation →
      answer state (.deleteReservation reservation.id) = (.error error, between) →
      Frees answer settings listed between rest freed calls after →
      Frees answer settings listed state (service :: rest) freed ((state, .deleteReservation reservation.id) :: calls) after
  | freed {state between after : σ} {service : Service} {rest : List Service} {freed : List Reservation}
      {calls : List (σ × Call)} {identity : Identity} {reservation : Reservation} :
      service.identity? = some identity → Pass.owned? settings identity listed = some reservation →
      answer state (.deleteReservation reservation.id) = (.ok (), between) →
      Frees answer settings listed between rest freed calls after →
      Frees answer settings listed state (service :: rest) (reservation :: freed)
        ((state, .deleteReservation reservation.id) :: calls) after

theorem removeServices_frees {services : List Service} (named : ∀ service ∈ services, service.identity?.isSome = true)
    (config? : Option Config) (state : σ) :
    ∃ freed after, effect answer state (Pass.removeServices settings listed config? services) =
        (.ok (config?.map fun config => unmapped [] config (freed.map (·.cidr))), after) ∧
      Frees answer settings listed state services freed
        (made answer state (Pass.removeServices settings listed config? services)) after := by
  induction services generalizing config? state with
  | nil =>
    refine ⟨[], state, ?_, .nil⟩
    cases config? <;> rfl
  | cons service rest ih =>
    have later := ih fun other member => named other (List.mem_cons_of_mem _ member)
    obtain ⟨identity, known⟩ := Option.isSome_iff_exists.mp (named service (List.mem_cons_self ..))
    rw [Pass.removeServices, Pass.identityOf, known, pure_bind]
    cases owned : Pass.owned? settings identity listed with
    | none =>
      obtain ⟨freed, after, ran, frees⟩ := later config? state
      exact ⟨freed, after, ran, .unreserved known owned frees⟩
    | some reservation =>
      simp only
      rw [effect_ask_bind, made_ask_bind]
      generalize answered : answer state (.deleteReservation reservation.id) = reply
      obtain ⟨error | ⟨⟩, between⟩ := reply
      · obtain ⟨freed, after, ran, frees⟩ := later config? between
        exact ⟨freed, after, ran, .refused known owned answered frees⟩
      · obtain ⟨freed, after, ran, frees⟩ := later (config?.map fun config => (config.removeAddress reservation.cidr).config) between
        refine ⟨reservation :: freed, after, ?_, .freed known owned answered frees⟩
        refine Eq.trans ran ?_
        rw [Option.map_map]
        rfl

theorem removeServices_named {services : List Service} {config? last? : Option Config} {state after : σ}
    (ok : effect answer state (Pass.removeServices settings listed config? services) = (.ok last?, after)) :
    ∀ service ∈ services, service.identity?.isSome = true := by
  induction services generalizing config? state with
  | nil => exact fun _ member => absurd member List.not_mem_nil
  | cons service rest ih =>
    rw [Pass.removeServices] at ok
    obtain ⟨identity, between, names, ok⟩ := (effect_bind_ok answer).mp ok
    have later : ∀ other ∈ rest, other.identity?.isSome = true := by
      split at ok
      · exact ih ok
      · rw [effect_ask_bind] at ok
        split at ok
        · exact ih ok
        · exact ih ok
    intro other member
    rcases List.mem_cons.mp member with rfl | member
    · rw [Pass.identityOf] at names
      cases known : other.identity? with
      | none =>
        rw [known] at names
        cases names
      | some identity => rfl
    · exact later other member

section

variable {state after : σ} {services : List Service} {freed : List Reservation} {calls : List (σ × Call)}
  (frees : Frees answer settings listed state services freed calls after)
include frees

theorem Frees.within : freed.Sublist (reservedFor settings listed services) := by
  induction frees with
  | nil => exact .slnil
  | unreserved known owned _ ih => simpa [reservedFor, known, owned] using ih
  | refused known owned _ _ ih => simpa [reservedFor, known, owned] using ih.cons _
  | freed known owned _ _ ih => simpa [reservedFor, known, owned] using ih

theorem Frees.asks : calls.map Prod.snd = (reservedFor settings listed services).map (.deleteReservation ·.id) := by
  induction frees with
  | nil => rfl
  | unreserved known owned _ ih => simpa [reservedFor, known, owned] using ih
  | refused known owned _ _ ih => simpa [reservedFor, known, owned] using ih
  | freed known owned _ _ ih => simpa [reservedFor, known, owned] using ih

theorem Frees.gives : freed = givenUp answer (reservedFor settings listed services) calls := by
  induction frees with
  | nil => rfl
  | unreserved known owned _ ih => simpa [reservedFor, known, owned] using ih
  | refused known owned answered _ ih =>
    simpa [reservedFor, known, owned, givenUp, granted, answered, Except.isOk, Except.toBool] using ih
  | freed known owned answered _ ih =>
    simpa [reservedFor, known, owned, givenUp, granted, answered, Except.isOk, Except.toBool] using ih

/-- If no deletion is refused, everything that the services own first is given up. -/
theorem Frees.all (succeed : Deletes answer calls) : freed = reservedFor settings listed services := by
  have later {first : σ × Call} {calls : List (σ × Call)} (succeed : Deletes answer (first :: calls)) : Deletes answer calls :=
    fun before id member => succeed before id (List.mem_cons_of_mem _ member)
  induction frees with
  | nil => rfl
  | unreserved known owned _ ih => simp [reservedFor, known, owned, ih succeed]
  | refused _ _ answered =>
    have granted := succeed _ _ (List.mem_cons_self ..)
    rw [answered] at granted
    cases granted
  | freed known owned _ _ ih => simp [reservedFor, known, owned, ih (later succeed)]

end

/-- How calls act on the reservations, but for those that make new ones. A deletion that is
refused deletes nothing. -/
structure Ledger (answer : Answers σ) (reservations : σ → List Reservation) : Prop extends Inventory answer reservations where
  refuses : ∀ state id error, (answer state (.deleteReservation id)).1 = .error error →
    reservations (answer state (.deleteReservation id)).2 = reservations state

theorem Frees.remaining {reservations : σ → List Reservation} (ledger : Ledger answer reservations) {state after : σ}
    {services : List Service} {freed : List Reservation} {calls : List (σ × Call)}
    (frees : Frees answer settings listed state services freed calls after) :
    reservations after = without (reservations state) freed := by
  induction frees with
  | nil => simp [without]
  | unreserved _ _ _ ih => exact ih
  | @refused state _ _ _ _ _ _ _ reservation error _ _ answered _ ih =>
    have kept := ledger.refuses state reservation.id error (congrArg Prod.fst answered)
    rw [answered] at kept
    rw [ih, kept]
  | @freed state _ _ _ _ _ _ _ reservation _ _ answered _ ih =>
    have gone := ledger.deletes state reservation.id (congrArg Prod.fst answered)
    rw [answered] at gone
    -- What the later deletions leave is filtered once more by the ID of this one.
    rw [ih, gone, without, without, List.filter_filter]
    congr 1
    funext other
    rw [List.map_cons, List.contains_cons, Bool.not_or, Bool.and_comm]
    rfl

/-- If every deletion is granted, all that is reserved for the services is given up. -/
theorem granted_freeing {reservations : σ → List Reservation} (ledger : Ledger answer reservations) {services : List Service}
    (named : ∀ service ∈ services, service.identity?.isSome = true) (config? : Option Config) (state : σ) :
    Succeeds answer state (Pass.removeServices settings (reservations state) config? services) fun last? after =>
      last? = config?.map (fun config => unmapped [] config ((reservedFor settings (reservations state) services).map (·.cidr))) ∧
      reservations after = without (reservations state) (reservedFor settings (reservations state) services) := by
  intro grants
  obtain ⟨freed, after, ran, frees⟩ := @removeServices_frees σ answer settings (reservations state) _ named config? state
  have succeed : Deletes answer (made answer state (Pass.removeServices settings (reservations state) config? services)) := by
    intro before id member
    have grant := grants before _ member
    generalize (answer before (.deleteReservation id)).1 = reply at grant
    obtain error | ⟨⟩ := reply
    · cases grant
    · rfl
  have everything := frees.all succeed
  subst everything
  rw [ran]
  exact ⟨_, rfl, rfl, frees.remaining ledger⟩

section

variable {document : σ → String} {reservations : σ → List Reservation} {location : Location}
  (store : Store answer location.name document) (ledger : Ledger answer reservations)
include store ledger

theorem granted_removeServices {services : List Service} (named : ∀ service ∈ services, service.identity?.isSome = true)
    (config : Config) (state : σ) :
    Succeeds answer state (Pass.removeServices settings (reservations state) (some config) services) fun config? after =>
      (config? = some (unmapped [] config ((reservedFor settings (reservations state) services).map (·.cidr))) ∧
        reservations after = without (reservations state) (reservedFor settings (reservations state) services)) ∧
      document after = document state := by
  have makes : Makes [.delete] (Pass.removeServices settings (reservations state) (some config) services) :=
    makes_removeServices settings (by decide) (reservations state) (some config) services
  exact (granted_freeing ledger named (some config) state).also (store.frame (Prod.ext rfl rfl) makes (by decide))

theorem granted_remove (located : settings.location = some location) {batch : List Service}
    (named : ∀ service ∈ batch.filter (·.isLoadBalancer), service.identity?.isSome = true) {state : σ} {loaded : Config}
    (before : Config.read (document state) = .ok loaded) :
    Succeeds answer state (Pass.services settings .remove batch) fun _ after =>
      Config.read (document after) =
        .ok (unmapped [] loaded ((reservedFor settings (reservations state) (batch.filter (·.isLoadBalancer))).map (·.cidr))) ∧
      reservations after =
        without (reservations state) (reservedFor settings (reservations state) (batch.filter (·.isLoadBalancer))) := by
  refine granted_services store ledger.toHolds located .remove batch ?_ ?_
  · intro config opened read same
    cases before.symm.trans read
    obtain ⟨stored, held⟩ := Prod.mk.inj same
    rw [← held]
    refine (granted_removeServices store ledger named loaded opened).bind ?_
    rintro _ removed ⟨⟨rfl, gone⟩, unwritten⟩
    have still : Config.read (document removed) = .ok loaded := by rw [unwritten, stored, before]
    refine (granted_saveIfChanged store ledger.toHolds located _ still).mono ?_
    rintro result after ⟨value, ok, saved, kept⟩
    exact ⟨value, ok, saved, kept.trans gone⟩
  · intro error after unread _
    exact absurd before (unread loaded)

end

end PeerPool.Proofs.Removals
