import PeerPool.Proofs.PassCalls
import PeerPool.Proofs.PassPools
import PeerPool.Proofs.Sites

/-! A site where one call fails: a listing of reservations, a load or a patch of the
configuration, or a request for a service. The failing call changes nothing. A pass either
gets by without it, and then goes as it goes where nothing fails, or it gives up there. -/

namespace PeerPool.Proofs.Interruptions
open PassLogic PassServices PassCalls PassPools Sites Provider Cluster

/-- What the failing call is answered with. -/
structure Refusal where
  registry : Provider.Error
  store : StoreError
deriving DecidableEq, Repr

/-- The kinds of calls that a pass does not survive the refusal of. -/
def vital : List Kind := [.list, .load, .patch, .get, .update]

/-- A site, and how many vital calls go well before the next one fails. If none is to fail
any more, there is no such number. -/
structure Fused where
  site : Site
  left : Option Nat

def Refusal.answer (refusal : Refusal) : (call : Call) → call.Answer
  | .loadDocument _ => .error refusal.store
  | .patchDocument _ _ => .error refusal.store
  | .resolvePeers _ => .error refusal.registry
  | .listReservations _ => .error refusal.registry
  | .createReservation _ _ => .error refusal.registry
  | .deleteReservation _ => .error refusal.registry
  | .getService _ _ => .error refusal.store
  | .updateService _ => .error refusal.store

def Fused.answer (offers : Nat → Offer) (refusal : Refusal) : Answers Fused
  | ⟨site, left⟩, call =>
    match left, vital.contains (kind call) with
    | some 0, true => (refusal.answer call, ⟨site, none⟩)
    | some (n + 1), true => ((site.answer offers call).1, ⟨(site.answer offers call).2, some n⟩)
    | left, _ => ((site.answer offers call).1, ⟨(site.answer offers call).2, left⟩)

variable {offers : Nat → Offer} {refusal : Refusal} {α β : Type}

/-- A pass goes as it goes where nothing fails, or it gives up at a site where it may stop. -/
structure Faces (offers : Nat → Offer) (refusal : Refusal) (site : Site) (pass : Pass α) (stops : Site → Prop) : Prop where
  goes : ∀ n m result after, effect (Fused.answer offers refusal) ⟨site, some n⟩ pass = (result, ⟨after, some m⟩) →
    effect (Site.answer offers) site pass = (result, after)
  halts : ∀ n result after, effect (Fused.answer offers refusal) ⟨site, some n⟩ pass = (result, ⟨after, none⟩) →
    (∃ error, result = .error error) ∧ stops after

namespace Faces

variable {site : Site} {stops wider : Site → Prop}

theorem mono {pass : Pass α} (faces : Faces offers refusal site pass stops) (implies : ∀ after, stops after → wider after) :
    Faces offers refusal site pass wider := by
  refine ⟨faces.goes, ?_⟩
  intro n result after ran
  obtain ⟨gaveUp, stopped⟩ := faces.halts n result after ran
  exact ⟨gaveUp, implies after stopped⟩

theorem pure (value : α) : Faces offers refusal site (Pure.pure value : Pass α) stops := by
  constructor
  · intro n m result after ran
    cases ran
    rfl
  · intro n result after ran
    cases ran

theorem throw (error : PassError) : Faces offers refusal site (MonadExcept.throw error : Pass α) stops := by
  constructor
  · intro n m result after ran
    cases ran
    rfl
  · intro n result after ran
    cases ran

theorem check {ε : Type} (wrap : ε → PassError) (result : Except ε α) :
    Faces offers refusal site (Pass.check wrap result) stops := by
  cases result with
  | ok value => exact pure value
  | error error => exact throw (wrap error)

theorem say_bind {level : Level} {text : String} {next : Unit → Pass β} (later : Faces offers refusal site (next ()) stops) :
    Faces offers refusal site (Pass.say level text >>= next) stops := ⟨later.goes, later.halts⟩

theorem bind {pass : Pass α} {next : α → Pass β} (first : Faces offers refusal site pass stops)
    (later : ∀ value after, effect (Site.answer offers) site pass = (.ok value, after) →
      Faces offers refusal after (next value) stops) : Faces offers refusal site (pass >>= next) stops := by
  -- If the call fails in the first part, that part ends in an error and the second never
  -- begins. If it has not failed by then, the first part went as it would have gone anyway.
  constructor
  · intro n m result after ran
    rw [effect_bind] at ran ⊢
    generalize parted : effect (Fused.answer offers refusal) ⟨site, some n⟩ pass = part at ran
    obtain ⟨reply, ⟨between, left⟩⟩ := part
    cases left with
    | none =>
      obtain ⟨⟨error, rfl⟩, _⟩ := first.halts n _ _ parted
      cases ran
    | some k =>
      have went := first.goes n k _ _ parted
      rw [went]
      cases reply with
      | error error =>
        cases ran
        rfl
      | ok value => exact (later value between went).goes k m result after ran
  · intro n result after ran
    rw [effect_bind] at ran
    generalize parted : effect (Fused.answer offers refusal) ⟨site, some n⟩ pass = part at ran
    obtain ⟨reply, ⟨between, left⟩⟩ := part
    cases left with
    | none =>
      obtain ⟨⟨error, rfl⟩, stopped⟩ := first.halts n _ _ parted
      cases ran
      exact ⟨⟨error, rfl⟩, stopped⟩
    | some k =>
      have went := first.goes n k _ _ parted
      cases reply with
      | error error => cases ran
      | ok value => exact (later value between went).halts k result after ran

/-- A pass may stop where it makes a vital call, if it gives up when the call fails. -/
theorem ask_bind {call : Call} {next : call.Answer → Pass β}
    (gives : ∃ error, next (refusal.answer call) = MonadExcept.throw error) (stopped : stops site)
    (later : Faces offers refusal (site.answer offers call).2 (next (site.answer offers call).1) stops) :
    Faces offers refusal site (Pass.ask call >>= next) stops := by
  obtain ⟨error, gives⟩ := gives
  constructor
  · intro n m result after ran
    rw [effect_ask_bind] at ran ⊢
    simp only [Fused.answer] at ran
    split at ran
    · rw [gives] at ran
      cases ran
    · exact later.goes _ m result after ran
    · exact later.goes _ m result after ran
  · intro n result after ran
    rw [effect_ask_bind] at ran
    simp only [Fused.answer] at ran
    split at ran
    · rw [gives] at ran
      cases ran
      exact ⟨⟨error, rfl⟩, stopped⟩
    · exact later.halts _ result after ran
    · exact later.halts _ result after ran

/-- Without a vital call, nothing happens that would not happen anyway. -/
theorem asks_unharmed (offers : Nat → Offer) (refusal : Refusal) {kinds : List Kind} (harmless : ∀ kind ∈ kinds, vital.contains kind = false)
    {program : Program Call.Answer α} (asks : Asks kinds program) (site : Site) (n : Nat) :
    let run := program.trace (Site.answer offers) site
    (program.trace (Fused.answer offers refusal) ⟨site, some n⟩).value = run.value ∧
      (program.trace (Fused.answer offers refusal) ⟨site, some n⟩).state = ⟨run.state, some n⟩ := by
  induction program generalizing site with
  | done value => exact ⟨rfl, rfl⟩
  | say level text rest ih => exact ih asks site
  | ask call rest ih =>
    obtain ⟨known, asks⟩ := asks
    have same : Fused.answer offers refusal ⟨site, some n⟩ call =
        ((site.answer offers call).1, ⟨(site.answer offers call).2, some n⟩) := by
      cases n <;> simp only [Fused.answer, harmless _ known]
    simp only [Program.trace, Run.after, same]
    exact ih _ (asks _) _

theorem unharmed {kinds : List Kind} (harmless : ∀ kind ∈ kinds, vital.contains kind = false) {pass : Pass α}
    (makes : Makes kinds pass) : Faces offers refusal site pass stops := by
  have same (n : Nat) : effect (Fused.answer offers refusal) ⟨site, some n⟩ pass =
      ((effect (Site.answer offers) site pass).1, ⟨(effect (Site.answer offers) site pass).2, some n⟩) := by
    obtain ⟨value, state⟩ := asks_unharmed offers refusal harmless makes site n
    exact Prod.ext value state
  constructor
  · intro n m result after ran
    rw [same n] at ran
    cases ran
    rfl
  · intro n result after ran
    rw [same n] at ran
    cases ran

end Faces

section

variable (settings : Settings) (site : Site)

theorem faces_listReservations : Faces offers refusal site (Pass.listReservations settings) (· = site) :=
  .ask_bind ⟨_, rfl⟩ rfl (.check _ _)

theorem faces_loadGiven : Faces offers refusal site (loadGiven settings) (· = site) := by
  unfold loadGiven
  cases settings.location with
  | none => exact .pure none
  | some location =>
    have loads : Faces offers refusal site (Pass.load location.name) (· = site) := by
      refine .say_bind (.ask_bind ⟨_, rfl⟩ rfl (.bind (.check _ _) ?_))
      intro text after read
      exact .check _ _
    simp only [map_eq_pure_bind]
    exact loads.bind fun _ _ _ => .pure _

theorem faces_saveIfChanged (loaded config? : Option Config) :
    Faces offers refusal site (Pass.saveIfChanged settings loaded config?) (· = site) := by
  unfold Pass.saveIfChanged
  split
  · split
    · exact .say_bind (.pure ())
    · exact .say_bind (.say_bind (.ask_bind ⟨_, rfl⟩ rfl (.check _ _)))
  · exact .pure ()

theorem faces_assign (identity : Identity) (address : Address) :
    Faces offers refusal site (Pass.assign identity address) (· = site) := by
  refine .ask_bind ⟨_, rfl⟩ rfl ?_
  refine .bind (.check _ _) ?_
  intro latest between checked
  have same : between = site := by
    rw [effect_check] at checked
    exact (Prod.mk.inj checked).2.symm
  subst same
  refine .ask_bind ⟨_, rfl⟩ rfl (.bind (.check _ _) ?_)
  intro _ after updated
  exact .say_bind (.pure ())

theorem faces_tellAddress (identity : Identity) (reservation? : Option Reservation) :
    Faces offers refusal site (tellAddress identity reservation?) (· = site) := by
  cases reservation? with
  | none => exact .pure none
  | some reservation => exact (faces_assign site identity reservation.address).bind fun _ _ _ => .pure _

/-- Where the search for the address of one service may stop: where it began, or where an
address was reserved that the service was not told. -/
inductive Midway (settings : Settings) (offers : Nat → Offer) (listed : List Reservation) (identity : Identity)
    (service : Service) (site : Site) : Site → Prop where
  | untouched : Midway settings offers listed identity service site site
  | untold : service.assignedAddress? = none → Pass.owned? settings identity listed = none →
      Midway settings offers listed identity service site (site.create offers [settings.providerTag, identity.tag])

theorem faces_addressOf (listed : List Reservation) (service : Service) (identity : Identity) :
    Faces offers refusal site (Pass.addressOf settings listed service identity)
      (Midway settings offers listed identity service site) := by
  rw [addressOf_eq]
  cases assigned : service.assignedAddress? with
  | some address => exact .say_bind (.pure _)
  | none =>
    simp only
    have makes : Makes [.create] (reservationFor settings listed identity) :=
      makes_reservationFor settings (by decide) listed identity
    refine (Faces.unharmed (by decide) makes).bind ?_
    intro reservation? between found
    have begins : Midway settings offers listed identity service site between := by
      unfold reservationFor at found
      cases owned : Pass.owned? settings identity listed with
      | some reservation =>
        rw [owned] at found
        cases found
        exact .untouched
      | none =>
        rw [owned] at found
        cases found
        exact .untold assigned owned
    apply (faces_tellAddress between identity reservation?).mono
    rintro after rfl
    exact begins

end

/-- Where the adding of services may stop, and where it has got to in the end. -/
inductive Stopped (settings : Settings) (offers : Nat → Offer) (listed : List Reservation) :
    Site → Option Config → List Service → Site → Prop where
  | here {site : Site} {config? : Option Config} {services : List Service} :
      Stopped settings offers listed site config? services site
  | untold {site : Site} {config? : Option Config} {service : Service} {rest : List Service} {identity : Identity} :
      service.identity? = some identity → service.assignedAddress? = none → Pass.owned? settings identity listed = none →
      Stopped settings offers listed site config? (service :: rest) (site.create offers [settings.providerTag, identity.tag])
  | later {site between after : Site} {config? : Option Config} {service : Service} {rest : List Service}
      {added : Pass.Added} :
      effect (Site.answer offers) site (Pass.addService settings listed config? service) = (.ok added, between) →
      Stopped settings offers listed between added.config rest after →
      Stopped settings offers listed site config? (service :: rest) after

section

variable (settings : Settings) (listed : List Reservation)

theorem faces_addService (site : Site) (config? : Option Config) (service : Service) (rest : List Service) :
    Faces offers refusal site (Pass.addService settings listed config? service)
      (Stopped settings offers listed site config? (service :: rest)) := by
  rw [addService_eq, Pass.identityOf]
  cases known : service.identity? with
  | none => exact .throw _
  | some identity =>
    simp only [pure_bind]
    have stops (after : Site) (midway : Midway settings offers listed identity service site after) :
        Stopped settings offers listed site config? (service :: rest) after := by
      cases midway with
      | untouched => exact .here
      | untold assigned owned => exact .untold known assigned owned
    refine ((faces_addressOf settings site listed service identity).mono stops).bind ?_
    intro cidr? between found
    have makes : Makes [] (mapGiven identity cidr? config?) := makes_mapGiven identity cidr? config?
    exact .unharmed (by decide) makes

theorem faces_addServices (site : Site) (config? : Option Config) (services : List Service) :
    Faces offers refusal site (Pass.addServices settings listed config? services)
      (Stopped settings offers listed site config? services) := by
  induction services generalizing site config? with
  | nil => exact .pure _
  | cons service rest ih =>
    rw [Pass.addServices]
    refine (faces_addService settings listed site config? service rest).bind ?_
    intro added between ran
    refine ((ih between added.config).mono fun after stopped => .later ran stopped).bind ?_
    intro later after _
    exact .pure _

/-- Once all services are added, the site is one where the adding of them may stop. -/
theorem stopped_addServices {site after : Site} {config? : Option Config} {services : List Service}
    {added : List String × Option Config}
    (ran : effect (Site.answer offers) site (Pass.addServices settings listed config? services) = (.ok added, after)) :
    Stopped settings offers listed site config? services after := by
  induction services generalizing site config? added with
  | nil =>
    cases ran
    exact .here
  | cons service rest ih =>
    obtain ⟨first, between, once, remaining⟩ := (effect_bind_ok _).mp ran
    obtain ⟨later, last, others, same⟩ := (effect_bind_ok _).mp remaining
    rw [effect_pure] at same
    cases same
    exact .later once (ih others)

theorem faces_cleanUp (site : Site) (loaded : Option Config) (services : List Service) (added : List String × Option Config) :
    Faces offers refusal site (cleanUp settings loaded services added) (· = site) := by
  refine (faces_listReservations settings site).bind ?_
  intro current between lists
  have same : between = site := by
    cases lists
    rfl
  subst same
  have removes : Makes [] (withoutStale added.1 added.2) := makes_withoutStale added.1 added.2
  refine .say_bind (.say_bind ((Faces.unharmed (by decide) removes).bind ?_))
  intro config? after cleaned
  rw [effect_withoutStale] at cleaned
  cases cleaned
  refine (faces_saveIfChanged settings between loaded _).bind ?_
  intro _ saved _
  have deletes : Makes [.delete] (Pass.deleteOrphans (Pass.orphans settings (tagsOf services) current)) :=
    makes_deleteOrphans (by decide) _
  exact .unharmed (by decide) deletes

theorem faces_perform {mode : Mode} (adds : mode ≠ .remove) (site : Site) (loaded : Option Config) (services : List Service) :
    Faces offers refusal site (perform settings mode listed loaded services)
      (Stopped settings offers listed site loaded services) := by
  cases mode with
  | remove => exact absurd rfl adds
  | add =>
    refine (faces_addServices settings listed site loaded services).bind ?_
    intro added between ran
    apply (faces_saveIfChanged settings between loaded added.2).mono
    rintro after rfl
    exact stopped_addServices settings listed ran
  | sync =>
    rw [perform, syncServices_eq]
    refine (faces_addServices settings listed site loaded services).bind ?_
    intro added between ran
    apply (faces_cleanUp settings between loaded services added).mono
    rintro after rfl
    exact stopped_addServices settings listed ran

end

end PeerPool.Proofs.Interruptions
