import PeerPool.Proofs.Holdings

/-! No service is ever reserved two addresses, whichever calls fail and however old the
objects are that a pass works from. A pass reserves an address only for a service that had
none when the reservations were listed, and it reserves none for the same service twice. -/

namespace PeerPool.Proofs.ReservedOnce
open PassLogic PassServices PassCalls Holdings Sites Provider Cluster

variable {σ : Type} {answer : Answers σ} {reservations : σ → List Reservation} {settings : Settings}

/-- How the calls of a pass act on the reservations of the provider. -/
structure Registry (answer : Answers σ) (reservations : σ → List Reservation) : Prop extends Holds answer reservations where
  creates : ∀ state project request created, (answer state (.createReservation project request)).1 = .ok created →
    ∃ added, added.tags = request.tags ∧
      (reservations (answer state (.createReservation project request)).2).Perm (added :: reservations state)
  refuses : ∀ state project request error, (answer state (.createReservation project request)).1 = .error error →
    reservations (answer state (.createReservation project request)).2 = reservations state
  deletes : ∀ state id, (reservations (answer state (.deleteReservation id)).2).Sublist (reservations state)

theorem registry_site (offers : Nat → Offer) : Registry (Site.answer offers) Site.reservations where
  toHolds := holds_site offers
  creates state project request created answered :=
    ⟨(offers state.created).reservation request.tags, rfl, List.perm_append_comm⟩
  refuses state project request error answered := by cases answered
  deletes state id := List.filter_sublist

/-- The reservations that count as those of a service. -/
def ownedBy (settings : Settings) (identity : Identity) (held : List Reservation) : List Reservation :=
  held.filter (·.hasAllTags [identity.tag, settings.providerTag])

/-- Every service has at most one address. -/
def Once (settings : Settings) (held : List Reservation) : Prop :=
  ∀ identity, (ownedBy settings identity held).length ≤ 1

theorem owned?_eq_none {identity : Identity} {held : List Reservation} :
    Pass.owned? settings identity held = none ↔ ownedBy settings identity held = [] := by
  simp [Pass.owned?, findByAllTags?, ownedBy]

theorem Once.sublist {fewer held : List Reservation} (once : Once settings held) (sublist : fewer.Sublist held) :
    Once settings fewer := fun identity => Nat.le_trans (sublist.filter _).length_le (once identity)

theorem Registry.shrinks (law : Registry answer reservations) {call : Call} (other : kind call ≠ .create) (state : σ) :
    (reservations (answer state call).2).Sublist (reservations state) := by
  by_cases deletes : kind call = .delete
  · cases call with
    | deleteReservation id => exact law.deletes state id
    | _ => cases deletes
  · exact law.keeps state call other deletes ▸ .refl _

/-- What a reservation with these tags changes about what a service owns. -/
theorem ownedBy_cons {identity other : Identity} {added : Reservation} (held : List Reservation)
    (free : other.tag ≠ settings.providerTag) (tags : added.tags = [settings.providerTag, identity.tag]) :
    ownedBy settings other (added :: held) =
      if other.tag = identity.tag then added :: ownedBy settings other held else ownedBy settings other held := by
  have tagged : added.hasAllTags [other.tag, settings.providerTag] = decide (other.tag = identity.tag) := by
    simp [Reservation.hasAllTags, tags, free]
  rw [ownedBy, List.filter_cons, tagged]
  split <;> simp_all [ownedBy]

/-- What becomes of the reservations when an address is found for one service. -/
structure Spares (settings : Settings) (identity : Identity) (before after : List Reservation) : Prop where
  once : Once settings after
  others : ∀ other : Identity, other.tag ≠ identity.tag → ownedBy settings other before = [] →
    ownedBy settings other after = []

theorem Spares.shrink {identity : Identity} {before between after : List Reservation}
    (spares : Spares settings identity before between) (shrinks : after.Sublist between) :
    Spares settings identity before after := by
  refine ⟨spares.once.sublist shrinks, fun other differs absent => ?_⟩
  have owned := shrinks.filter (·.hasAllTags [other.tag, settings.providerTag])
  rw [← ownedBy, ← ownedBy, spares.others other differs absent] at owned
  exact List.sublist_nil.mp owned

/-- A service that owns no address may have one reserved. -/
theorem Registry.reserves (law : Registry answer reservations) (free : ∀ identity : Identity, identity.tag ≠ settings.providerTag)
    {state : σ} {identity : Identity} {request : Request} (project : String) (once : Once settings (reservations state))
    (tags : request.tags = [settings.providerTag, identity.tag]) (none : ownedBy settings identity (reservations state) = []) :
    Spares settings identity (reservations state)
      (reservations (answer state (.createReservation project request)).2) := by
  generalize found : reservations (answer state (.createReservation project request)).2 = after
  cases reply : (answer state (.createReservation project request)).1 with
  | error error =>
    rw [law.refuses state project request error reply] at found
    rw [← found]
    exact ⟨once, fun _ _ absent => absent⟩
  | ok created =>
    obtain ⟨added, carried, perm⟩ := law.creates state project request created reply
    rw [found] at perm
    have owned (other : Identity) := ownedBy_cons (reservations state) (free other) (carried.trans tags)
    constructor
    · intro other
      have length := (perm.filter (·.hasAllTags [other.tag, settings.providerTag])).length_eq
      change (ownedBy settings other after).length = (ownedBy settings other (added :: reservations state)).length at length
      rw [length, owned other]
      split
      next same =>
        have absent : ownedBy settings other (reservations state) = [] := by rw [ownedBy, same, ← ownedBy, none]
        simp [absent]
      next => exact once other
    · intro other differs absent
      have perm := perm.filter (·.hasAllTags [other.tag, settings.providerTag])
      change (ownedBy settings other after).Perm (ownedBy settings other (added :: reservations state)) at perm
      rw [owned other, if_neg differs, absent] at perm
      exact perm.eq_nil

section

variable (answer reservations settings) in
/-- Every service has at most one address after the call. -/
def Allowed (before : σ) (call : Call) : Prop := Once settings (reservations (answer before call).2)

variable (law : Registry answer reservations)
include law

/-- A pass that makes no reservations leaves no more of them than there were. -/
theorem meets_without_create {α : Type} {kinds : List Kind} {pass : Pass α} (makes : Makes kinds pass)
    (reserves : .create ∉ kinds) {state : σ} (once : Once settings (reservations state)) :
    Meets answer (Allowed answer reservations settings) state pass fun _ after =>
      (reservations after).Sublist (reservations state) := by
  have shrinks (between : σ) (call : Call) (known : kind call ∈ kinds) :
      (reservations (answer between call).2).Sublist (reservations between) := by
    apply law.shrinks
    intro same
    exact reserves (same ▸ known)
  obtain ⟨allowed, ends⟩ := Asks.throughout (fun after => (reservations after).Sublist (reservations state))
    makes (fun between call known fewer => (shrinks between call known).trans fewer) (.refl _)
  refine ⟨?_, ends⟩
  intro before call member
  obtain ⟨known, fewer⟩ := allowed before call member
  exact once.sublist ((shrinks before call known).trans fewer)

variable (free : ∀ identity : Identity, identity.tag ≠ settings.providerTag)
include free

theorem reserve_spares {state : σ} {identity : Identity} (once : Once settings (reservations state))
    (none : ownedBy settings identity (reservations state) = []) :
    Meets answer (Allowed answer reservations settings) state (Pass.reserve settings identity) fun _ after =>
      Spares settings identity (reservations state) (reservations after) := by
  have spares (request : Request) (tags : request.tags = [settings.providerTag, identity.tag]) :=
    law.reserves free settings.projectId once tags none
  unfold Pass.reserve
  refine .say_bind (.ask_bind (spares _ rfl).once ?_)
  split
  · exact .say_bind (.pure (spares _ rfl))
  · exact .say_bind (.pure (spares _ rfl))

theorem addressOf_spares {state : σ} {identity : Identity} {listed : List Reservation} (service : Service)
    (once : Once settings (reservations state))
    (fresh : Pass.owned? settings identity listed = none → ownedBy settings identity (reservations state) = []) :
    Meets answer (Allowed answer reservations settings) state (Pass.addressOf settings listed service identity) fun _ after =>
      Spares settings identity (reservations state) (reservations after) := by
  have same : Spares settings identity (reservations state) (reservations state) := ⟨once, fun _ _ absent => absent⟩
  rw [addressOf_eq]
  cases service.assignedAddress? with
  | some address => exact .say_bind (.pure same)
  | none =>
    have found : Meets answer (Allowed answer reservations settings) state (reservationFor settings listed identity)
        fun _ after => Spares settings identity (reservations state) (reservations after) := by
      unfold reservationFor
      cases owned : Pass.owned? settings identity listed with
      | some reservation => exact .say_bind (.pure same)
      | none => exact reserve_spares law free once (fresh owned)
    refine .bind found ?_ fun _ _ spares => spares
    intro reservation? between spares
    have tells : Makes [.get, .update] (tellAddress identity reservation?) := makes_tellAddress (by decide) (by decide) identity reservation?
    exact (meets_without_create law tells (by decide) spares.once).mono fun _ _ shrinks => spares.shrink shrinks

theorem addService_spares {state : σ} {identity : Identity} {listed : List Reservation} {service : Service}
    (config : Option Config) (known : service.identity? = some identity) (once : Once settings (reservations state))
    (fresh : Pass.owned? settings identity listed = none → ownedBy settings identity (reservations state) = []) :
    Meets answer (Allowed answer reservations settings) state (Pass.addService settings listed config service) fun _ after =>
      Spares settings identity (reservations state) (reservations after) := by
  rw [addService_known known]
  refine .bind (addressOf_spares law free service once fresh) ?_ fun _ _ spares => spares
  intro cidr? between spares
  have maps : Makes [] (mapGiven identity cidr? config) := makes_mapGiven identity cidr? config
  exact (meets_without_create law maps (by decide) spares.once).mono fun _ _ shrinks => spares.shrink shrinks

theorem addServices_once {listed : List Reservation} {services : List Service} (distinct : (tagsOf services).Nodup)
    {state : σ} (config : Option Config) (once : Once settings (reservations state))
    (fresh : ∀ service ∈ services, ∀ identity ∈ service.identity?,
      Pass.owned? settings identity listed = none → ownedBy settings identity (reservations state) = []) :
    Meets answer (Allowed answer reservations settings) state (Pass.addServices settings listed config services) fun _ after =>
      Once settings (reservations after) := by
  -- A service that is still to come owns nothing yet if it owned nothing when the
  -- reservations were listed: what was made since carries the tags of other services.
  induction services generalizing state config with
  | nil => exact .pure once
  | cons service rest ih =>
    have first : Meets answer (Allowed answer reservations settings) state (Pass.addService settings listed config service)
        fun _ after => Once settings (reservations after) ∧ ∀ other : Identity, other.tag ∈ tagsOf rest →
          ownedBy settings other (reservations state) = [] → ownedBy settings other (reservations after) = [] := by
      cases known : service.identity? with
      | none =>
        have nameless : Pass.addService settings listed config service = throw .missingMetadata := by
          rw [addService_eq, Pass.identityOf, known]
          rfl
        rw [nameless]
        exact .throw ⟨once, fun _ _ absent => absent⟩
      | some identity =>
        rw [tagsOf_cons known] at distinct
        have absent := (List.nodup_cons.mp distinct).1
        refine (addService_spares law free config known once (fresh service (by simp) identity known)).mono ?_
        intro _ after spares
        refine ⟨spares.once, fun other member => spares.others other ?_⟩
        intro same
        exact absent (same ▸ member)
    have distinctRest : (tagsOf rest).Nodup := by
      refine distinct.sublist ?_
      exact ((List.sublist_cons_self service rest).filterMap _).map _
    rw [Pass.addServices]
    refine .bind first ?_ fun _ _ holds => holds.1
    intro added between holds
    refine .bind (ih distinctRest added.config holds.1 ?_) (fun _ after once => .pure once) fun _ _ once => once
    intro other member identity known unowned
    exact holds.2 identity (mem_tagsOf member known) (fresh other (List.mem_cons_of_mem _ member) identity known unowned)

theorem perform_once {listed : List Reservation} {services : List Service} (distinct : (tagsOf services).Nodup)
    {state : σ} (mode : Mode) (loaded : Option Config) (once : Once settings (reservations state))
    (fresh : ∀ service ∈ services, ∀ identity ∈ service.identity?,
      Pass.owned? settings identity listed = none → ownedBy settings identity (reservations state) = []) :
    Meets answer (Allowed answer reservations settings) state (perform settings mode listed loaded services)
      fun _ after => Once settings (reservations after) := by
  have adds := addServices_once law free distinct loaded once fresh
  cases mode with
  | add =>
    refine .bind adds ?_ fun _ _ once => once
    intro added between once
    have saves : Makes [.patch] (Pass.saveIfChanged settings loaded added.2) :=
      makes_saveIfChanged settings (by decide) loaded added.2
    exact (meets_without_create law saves (by decide) once).mono fun _ _ shrinks => once.sublist shrinks
  | remove =>
    have removes : Makes [.delete, .patch]
        (Pass.removeServices settings listed loaded services >>= Pass.saveIfChanged settings loaded) :=
      .bind (makes_removeServices settings (by decide) listed loaded services) fun config =>
        makes_saveIfChanged settings (by decide) loaded config
    exact (meets_without_create law removes (by decide) once).mono fun _ _ shrinks => once.sublist shrinks
  | sync =>
    rw [perform, syncServices_eq]
    refine .bind adds ?_ fun _ _ once => once
    intro added between once
    have cleans : Makes [.list, .patch, .delete] (cleanUp settings loaded services added) :=
      makes_cleanUp settings (by decide) (by decide) (by decide) loaded services added
    exact (meets_without_create law cleans (by decide) once).mono fun _ _ shrinks => once.sublist shrinks

theorem services_once {state : σ} (mode : Mode) {batch : List Service} (distinct : Distinct batch)
    (once : Once settings (reservations state)) :
    Meets answer (Allowed answer reservations settings) state (Pass.services settings mode batch) fun _ after =>
      Once settings (reservations after) := by
  have lists : Meets answer (Allowed answer reservations settings) state (Pass.listReservations settings) fun result after =>
      reservations after = reservations state ∧ ∀ listed, result = .ok listed → listed = reservations state := by
    have makes : Makes [.list] (Pass.listReservations settings) := makes_listReservations settings (by decide)
    refine ⟨(meets_without_create law makes (by decide) once).calls, law.listing rfl, ?_⟩
    intro listed result
    exact law.listed (Prod.ext result rfl)
  rw [services_eq]
  refine .say_bind (.bind lists ?_ fun _ _ listed => listed.1 ▸ once)
  rintro listed between ⟨same, current⟩
  rw [← same] at once
  have loads : Makes [.load] (loadGiven settings) := makes_loadGiven settings (by decide)
  refine .bind (meets_without_create law loads (by decide) once) ?_ fun _ _ shrinks => once.sublist shrinks
  intro loaded after shrinks
  refine perform_once law free distinct mode loaded (once.sublist shrinks) ?_
  -- What is owned now was owned when the reservations were listed.
  intro service _ identity _ unowned
  rw [owned?_eq_none, current listed rfl, ← same] at unowned
  have owned := shrinks.filter (·.hasAllTags [identity.tag, settings.providerTag])
  rw [← ownedBy, ← ownedBy, unowned] at owned
  exact List.sublist_nil.mp owned

end

/-- Runs passes one after another, whatever becomes of each. -/
def attempts (settings : Settings) : List (Mode × List Service) → Program Call.Answer Unit
  | [] => .done ()
  | (mode, batch) :: rest => (Pass.services settings mode batch).run.bind fun _ => attempts settings rest

/-- Throughout any passes, over any batches, no service has two addresses. -/
theorem reserved_once (law : Registry answer reservations) (settings : Settings)
    (free : ∀ identity : Identity, identity.tag ≠ settings.providerTag) (passes : List (Mode × List Service))
    (distinct : ∀ pass ∈ passes, Distinct pass.2) (state : σ) (once : Once settings (reservations state)) :
    ∀ before call, (before, call) ∈ calls answer state (attempts settings passes) →
      Once settings (reservations (answer before call).2) := by
  induction passes generalizing state with
  | nil =>
    intro before call member
    exact absurd member List.not_mem_nil
  | cons pass rest ih =>
    obtain ⟨mode, batch⟩ := pass
    obtain ⟨allowed, ends⟩ := services_once law free mode (distinct (mode, batch) (by simp)) once
    intro before call member
    rw [attempts, calls_bind] at member
    rcases List.mem_append.mp member with member | member
    · exact allowed before call member
    · exact ih (fun pass member => distinct pass (List.mem_cons_of_mem _ member)) _ ends before call member

/-- A service that is covered, then looked at again, then given up. -/
theorem reserved_once_web :
    Distinct [web] ∧ ∀ before call, (before, call) ∈ calls (Site.answer counted) { services := [web] }
        (attempts plain [(.add, [web]), (.sync, [web]), (.remove, [web])]) →
      Once plain (Site.answer counted before call).2.reservations := by
  refine ⟨distinct_single web, ?_⟩
  apply reserved_once (registry_site counted)
  · exact tag_ne (by decide)
  · intro pass member
    have alone : pass.2 = [web] := by
      rcases List.mem_cons.mp member with rfl | member
      · rfl
      rcases List.mem_cons.mp member with rfl | member
      · rfl
      cases List.mem_singleton.mp member
      rfl
    rw [alone]
    exact distinct_single web
  · intro identity
    simp [ownedBy]

end PeerPool.Proofs.ReservedOnce
