import PeerPool.Proofs.AddressSources
import PeerPool.Proofs.SeparateWorlds

/-! Reservations that are refused, of which nothing comes. A pass that adds services does the same
without those that no reservation could be made for: it stays in step with the pass over all of them,
which has done nothing but ask once more. -/

namespace PeerPool.Proofs.FailedReservations
open PassLogic PassServices PassCalls PassPools SeparateWorlds Synchronized AddressSources Sites Provider Cluster

variable {σ κ δ α β : Type} {answer : Answers σ} {settings : Settings} {listed : List Reservation}

/-- What was asked for in vain. -/
def refusal? (answer : Answers σ) : σ × Call → Option Request
  | (before, .createReservation project request) =>
    if (answer before (.createReservation project request)).1.isOk then none else some request
  | _ => none

def refusals (answer : Answers σ) (calls : List (σ × Call)) : List Request := calls.filterMap (refusal? answer)

/-- The calls without the requests that were refused. -/
def besidesRefusals (answer : Answers σ) (calls : List (σ × Call)) : List Call :=
  (calls.filter (refusal? answer · = none)).map Prod.snd

/-- What the service asks for was refused. -/
def turnedDown (settings : Settings) (refused : List Request) (service : Service) : Bool :=
  service.identity?.any fun identity => decide (requestFor settings identity ∈ refused)

/-- The batch without the services that asked in vain. -/
def served (settings : Settings) (refused : List Request) (batch : List Service) : List Service :=
  batch.filter fun service => !(service.isLoadBalancer && turnedDown settings refused service)

theorem balancers_served (refused : List Request) (batch : List Service) : (served settings refused batch).filter (·.isLoadBalancer) =
    (batch.filter (·.isLoadBalancer)).filter (!turnedDown settings refused ·) := by
  rw [served, List.filter_filter, List.filter_filter]
  apply List.filter_congr
  intro service _
  cases service.isLoadBalancer <;> simp

theorem refusals_append (first second : List (σ × Call)) :
    refusals answer (first ++ second) = refusals answer first ++ refusals answer second := List.filterMap_append ..

theorem mem_refusals {calls : List (σ × Call)} {request : Request} : request ∈ refusals answer calls ↔
    ∃ before project failure, (before, .createReservation project request) ∈ calls ∧
      (answer before (.createReservation project request)).1 = .error failure := by
  simp only [refusals, List.mem_filterMap]
  constructor
  · rintro ⟨⟨before, call⟩, member, refused⟩
    cases call with
    | createReservation project asked =>
      simp only [refusal?] at refused
      split at refused <;> cases refused
      next unserved =>
        cases answered : (answer before (.createReservation project request)).1 with
        | ok reservation => exact absurd (by rw [answered]; rfl) unserved
        | error failure => exact ⟨before, project, failure, member, answered⟩
    | _ => cases refused
  · rintro ⟨before, project, failure, member, answered⟩
    refine ⟨_, member, ?_⟩
    simp [refusal?, answered, Except.isOk, Except.toBool]

/-- A request that is refused changes nothing that is in view. -/
def Unnoticed (answer : Answers σ) (view : σ → κ) : Prop :=
  ∀ state project request failure, (answer state (.createReservation project request)).1 = .error failure →
    view (answer state (.createReservation project request)).2 = view state

theorem vain_alone {identity : Identity} {state after : σ} {failure : Provider.Error}
    (answered : answer state (creation settings identity) = (.error failure, after)) :
    refusals answer [(state, creation settings identity)] = [requestFor settings identity] ∧
      besidesRefusals answer [(state, creation settings identity)] = [] := by
  simp [refusals, besidesRefusals, refusal?, answered, Except.isOk, Except.toBool]

theorem requestFor_inj {identity other : Identity} (same : requestFor settings identity = requestFor settings other) :
    identity.tag = other.tag := by
  have tags := congrArg Request.tags same
  simp only [requestFor, Request.single, List.cons.injEq, and_true, true_and] at tags
  exact tags

theorem refusals_spared {kinds : List Kind} {pass : Pass α} (makes : Makes kinds pass) (spares : .create ∉ kinds) (state : σ) :
    refusals answer (made answer state pass) = [] := by
  apply List.eq_nil_iff_forall_not_mem.mpr
  intro request refused
  obtain ⟨before, project, _, member, _⟩ := mem_refusals.mp refused
  exact spares (makes.only member)

section

variable {kinds : List Kind} {pass : Pass α} {next : α → Pass β} {state after : σ} {value : α}

theorem refusals_behind (makes : Makes kinds pass) (spares : .create ∉ kinds) (came : effect answer state pass = (.ok value, after)) :
    refusals answer (made answer state (pass >>= next)) = refusals answer (made answer after (next value)) := by
  rw [made_bind, came, refusals_append, refusals_spared makes spares, List.nil_append]

theorem refusals_ahead (makes : ∀ value, Makes kinds (next value)) (spares : .create ∉ kinds) :
    refusals answer (made answer state (pass >>= next)) = refusals answer (made answer state pass) := by
  rw [made_bind, refusals_append]
  generalize effect answer state pass = result
  obtain ⟨error | value, after⟩ := result
  · exact List.append_nil _
  · rw [refusals_spared (makes value) spares, List.append_nil]

end

/-- A pass leaves what another one leaves, as far as a view goes, and makes the same calls but for those
that the other makes in vain. -/
structure Follows (answer : Answers σ) (view : σ → κ) (first second : σ) (pass other : Pass α) : Prop where
  result : (effect answer second other).1 = (effect answer first pass).1
  calls : (made answer second other).map Prod.snd = besidesRefusals answer (made answer first pass)
  views : view (effect answer second other).2 = view (effect answer first pass).2

namespace Follows

variable {view : σ → κ} {first second : σ} {kinds : List Kind}

theorem agree {pass : Pass α} (sees : Sees answer view kinds) (makes : Makes kinds pass)
    (grants : refusals answer (made answer first pass) = []) (same : view second = view first) :
    Follows answer view first second pass pass := by
  obtain ⟨value, views, calls⟩ := asks_agree sees makes same
  refine ⟨value, calls.trans ?_, views⟩
  rw [besidesRefusals, List.filter_eq_self.mpr]
  · rfl
  · intro entry member
    exact decide_eq_true (List.filterMap_eq_nil_iff.mp grants entry member)

theorem bind {pass other : Pass α} {next follow : α → Pass β} (follows : Follows answer view first second pass other)
    (later : ∀ value here there, effect answer first pass = (.ok value, here) → view there = view here →
      Follows answer view here there (next value) (follow value)) :
    Follows answer view first second (pass >>= next) (other >>= follow) := by
  obtain ⟨result, calls, views⟩ := follows
  generalize came : effect answer first pass = ran at result views
  generalize went : effect answer second other = reran at result views
  obtain ⟨error | value, here⟩ := ran <;> obtain ⟨_, there⟩ := reran <;> cases result
  · refine ⟨?_, ?_, ?_⟩
    · rw [effect_bind, effect_bind, came, went]
    · rw [made_bind, made_bind, came, went, List.append_nil, List.append_nil, calls]
    · rw [effect_bind, effect_bind, came, went]
      exact views
  · obtain ⟨result, more, last⟩ := later value here there came views
    refine ⟨?_, ?_, ?_⟩
    · rw [effect_then answer came, effect_then answer went, result]
    · rw [made_bind, made_bind, came, went, besidesRefusals, List.filter_append, List.map_append, List.map_append, calls, more]
      rfl
    · rw [effect_then answer came, effect_then answer went, last]

/-- A part that is nothing but a request made in vain may be left out. -/
theorem skip {pass : Pass α} {next : α → Pass β} {other : Pass β} {value : α} {after : σ}
    (came : effect answer first pass = (.ok value, after)) (vain : besidesRefusals answer (made answer first pass) = [])
    (follows : Follows answer view after second (next value) other) : Follows answer view first second (pass >>= next) other := by
  obtain ⟨result, calls, views⟩ := follows
  refine ⟨?_, ?_, ?_⟩
  · rw [effect_then answer came, result]
  · rw [made_bind, came, calls]
    unfold besidesRefusals at vain ⊢
    rw [List.filter_append, List.map_append, vain, List.nil_append]
  · rw [effect_then answer came, views]

end Follows

/-- A service is added, or its request is all that is made for it. -/
theorem addService_refused (answer : Answers σ) (settings : Settings) (listed : List Reservation) (config? : Option Config)
    (service : Service) (state : σ) :
    refusals answer (made answer state (Pass.addService settings listed config? service)) = [] ∨
    ∃ identity failure after, service.identity? = some identity ∧
      answer state (creation settings identity) = (.error failure, after) ∧
      effect answer state (Pass.addService settings listed config? service) = (.ok ⟨none, config?⟩, after) ∧
      made answer state (Pass.addService settings listed config? service) = [(state, creation settings identity)] := by
  cases known : service.identity? with
  | none =>
    left
    rw [addService_eq, Pass.identityOf, known]
    rfl
  | some identity =>
    have course := addressOf_course answer settings listed identity service state
    rw [effect_addService answer state known, made_addService known]
    generalize effect answer state (Pass.addressOf settings listed service identity) = found at course
    generalize made answer state (Pass.addressOf settings listed service identity) = calls at course
    obtain ⟨result, after⟩ := found
    cases course with
    | known => exact .inl rfl
    | refused _ _ refused => exact .inr ⟨identity, _, after, rfl, refused, rfl, rfl⟩
    | found _ finds telling =>
      left
      apply List.eq_nil_iff_forall_not_mem.mpr
      intro request refused
      obtain ⟨before, project, failure, member, answered⟩ := mem_refusals.mp refused
      rcases List.mem_append.mp member with member | member
      · cases finds with
        | owned => cases member
        | made _ created =>
          cases List.mem_singleton.mp member
          rw [created] at answered
          cases answered
      · exact absurd (telling.tells _ member) (by simp [kind])

theorem refusals_cons {service : Service} {rest : List Service} {config? : Option Config} {state : σ} {request : Request}
    (refused : request ∈ refusals answer (made answer state (Pass.addServices settings listed config? (service :: rest)))) :
    request ∈ refusals answer (made answer state (Pass.addService settings listed config? service)) ∨
    ∃ added between, effect answer state (Pass.addService settings listed config? service) = (.ok added, between) ∧
      request ∈ refusals answer (made answer between (Pass.addServices settings listed added.config rest)) := by
  obtain ⟨before, project, failure, member, answered⟩ := mem_refusals.mp refused
  rcases made_bind_cases member with here | ⟨added, between, came, there⟩
  · exact .inl (mem_refusals.mpr ⟨before, project, failure, here, answered⟩)
  · have returns (result : List String × Option Config) : Makes [] (pure (added.cidr.toList ++ result.1, result.2)) := .pure _
    have there := Makes.ahead returns List.not_mem_nil there
    exact .inr ⟨added, between, came, mem_refusals.mpr ⟨before, project, failure, there, answered⟩⟩

theorem refusals_addServices {services : List Service} {config? : Option Config} {state : σ} {request : Request}
    (refused : request ∈ refusals answer (made answer state (Pass.addServices settings listed config? services))) :
    ∃ service ∈ services, ∃ identity, service.identity? = some identity ∧ request = requestFor settings identity := by
  induction services generalizing config? state with
  | nil => cases refused
  | cons service rest ih =>
    rcases refusals_cons refused with here | ⟨_, _, _, there⟩
    · rcases addService_refused answer settings listed config? service state with none | ⟨identity, _, _, known, _, _, asks⟩
      · rw [none] at here
        cases here
      · rw [asks] at here
        obtain ⟨_, _, _, member, _⟩ := mem_refusals.mp here
        cases List.mem_singleton.mp member
        exact ⟨service, List.mem_cons_self .., identity, known, rfl⟩
    · obtain ⟨other, member, named⟩ := ih there
      exact ⟨other, List.mem_cons_of_mem _ member, named⟩

/-- Services with tags of their own ask for different things. -/
theorem requests_differ {service other : Service} {rest : List Service} (distinct : (tagsOf (service :: rest)).Nodup)
    {identity named : Identity} (known : service.identity? = some identity) (member : other ∈ rest)
    (knows : other.identity? = some named) : requestFor settings named ≠ requestFor settings identity := by
  intro asks
  rw [tagsOf_cons known] at distinct
  exact (List.nodup_cons.mp distinct).1 (requestFor_inj asks ▸ mem_tagsOf member knows)

/-- As far as these services go, the requests that were refused are their own. -/
def Agrees (settings : Settings) (refused own : List Request) (services : List Service) : Prop :=
  ∀ service ∈ services, ∀ identity, service.identity? = some identity →
    (requestFor settings identity ∈ refused ↔ requestFor settings identity ∈ own)

section

variable {view : σ → κ} {first second : σ} {kinds : List Kind} {refused : List Request} {config? : Option Config}

/-- The rest of the batch asks for nothing that the first service asks for. -/
theorem granted_kept {service : Service} {rest : List Service} (distinct : (tagsOf (service :: rest)).Nodup)
    (agrees : Agrees settings refused
      (refusals answer (made answer first (Pass.addServices settings listed config? (service :: rest)))) (service :: rest))
    (grants : refusals answer (made answer first (Pass.addService settings listed config? service)) = []) :
    turnedDown settings refused service = false := by
  cases known : service.identity? with
  | none => simp [turnedDown, known]
  | some identity =>
    simp only [turnedDown, known, Option.any_some, decide_eq_false_iff_not]
    rw [agrees service (List.mem_cons_self ..) identity known]
    intro vain
    rcases refusals_cons vain with here | ⟨_, _, _, there⟩
    · rw [grants] at here
      cases here
    · obtain ⟨other, member, named, knows, asks⟩ := refusals_addServices there
      exact requests_differ distinct known member knows asks.symm

theorem addServices_follows (sees : Sees answer view kinds) (create : .create ∈ kinds) (get : .get ∈ kinds) (update : .update ∈ kinds)
    (unnoticed : Unnoticed answer view) {services : List Service} (distinct : (tagsOf services).Nodup)
    (agrees : Agrees settings refused (refusals answer (made answer first (Pass.addServices settings listed config? services))) services)
    (same : view second = view first) :
    Follows answer view first second (Pass.addServices settings listed config? services)
      (Pass.addServices settings listed config? (services.filter (!turnedDown settings refused ·))) := by
  induction services generalizing config? first second with
  | nil => exact ⟨rfl, rfl, same⟩
  | cons service rest ih =>
    have fewer : (tagsOf rest).Nodup := distinct.sublist (((List.sublist_cons_self service rest).filterMap _).map _)
    rcases addService_refused answer settings listed config? service first with
      grants | ⟨identity, failure, after, known, answered, came, asks⟩
    · rw [List.filter_cons_of_pos (by simp [granted_kept distinct agrees grants])]
      refine .bind (.agree sees (makes_addService settings create get update listed config? service) grants same) ?_
      intro added here there came views
      refine .bind (ih fewer ?_ views) fun added _ _ _ views => ⟨rfl, rfl, views⟩
      rw [made_addServices_cons came, refusals_append, grants, List.nil_append] at agrees
      exact fun other member => agrees other (List.mem_cons_of_mem _ member)
    · obtain ⟨own, vain⟩ := vain_alone answered
      rw [← asks] at own vain
      rw [made_addServices_cons came, refusals_append, own] at agrees
      have gone : turnedDown settings refused service = true := by
        simp only [turnedDown, known, Option.any_some, decide_eq_true_eq]
        exact (agrees service (List.mem_cons_self ..) identity known).mpr (List.mem_cons_self ..)
      rw [List.filter_cons_of_neg (by simp [gone])]
      have unchanged := unnoticed first settings.projectId (requestFor settings identity) failure (congrArg Prod.fst answered)
      rw [answered] at unchanged
      apply Follows.skip came vain
      -- Nothing is put before what the rest comes to.
      change Follows answer view after second (Pass.addServices settings listed config? rest >>= pure) _
      rw [bind_pure]
      apply ih fewer _ (same.trans unchanged.symm)
      intro other member named knows
      rw [agrees other (List.mem_cons_of_mem _ member) named knows, List.singleton_append, List.mem_cons,
        or_iff_right (requests_differ distinct known member knows)]

end

/-- What a state holds, and what else there is to it. -/
def holdings (document : σ → δ) (reservations : σ → List Reservation) (services : σ → List Service) (rest : σ → κ) (state : σ) :
    δ × List Reservation × List Service × κ := (document state, reservations state, services state, rest state)

def adding : List Kind := [.list, .load, .create, .get, .update, .patch]

theorem add_follows {view : σ → κ} (sees : Sees answer view adding) (unnoticed : Unnoticed answer view)
    {batch : List Service} (distinct : Distinct batch) (state : σ) :
    Follows answer view state state (Pass.services settings .add batch) (Pass.services settings .add
      (served settings (refusals answer (made answer state (Pass.services settings .add batch))) batch)) := by
  generalize vain : refusals answer (made answer state (Pass.services settings .add batch)) = refused
  rw [made_services] at vain
  have lists : Makes [.list] (Pass.listReservations settings) := makes_listReservations settings (by decide)
  have loads : Makes [.load] (loadGiven settings) := makes_loadGiven settings (by decide)
  have saves (loaded? last? : Option Config) : Makes [.patch] (Pass.saveIfChanged settings loaded? last?) :=
    makes_saveIfChanged settings (by decide) loaded? last?
  have follows : Follows answer view state state
      (Pass.listReservations settings >>= fun listed => loadGiven settings >>= fun loaded =>
        perform settings .add listed loaded (batch.filter (·.isLoadBalancer)))
      (Pass.listReservations settings >>= fun listed => loadGiven settings >>= fun loaded =>
        perform settings .add listed loaded ((served settings refused batch).filter (·.isLoadBalancer))) := by
    rw [balancers_served]
    refine .bind (.agree sees (makes_listReservations settings (by decide)) (refusals_spared lists (by decide) state) rfl) ?_
    intro listed opened _ listing views
    refine .bind (.agree sees (makes_loadGiven settings (by decide)) (refusals_spared loads (by decide) opened) views) ?_
    intro loaded? readied _ loading views
    refine .bind (addServices_follows sees (by decide) (by decide) (by decide) unnoticed distinct ?_ views) ?_
    · -- The other parts of the pass ask for no reservations.
      rw [refusals_behind lists (by decide) listing, refusals_behind loads (by decide) loading, perform,
        refusals_ahead (fun _ => saves _ _) (by decide)] at vain
      rw [vain]
      exact fun _ _ _ _ => Iff.rfl
    · intro added after _ _ views
      exact .agree sees (makes_saveIfChanged settings (by decide) _ _) (refusals_spared (saves _ _) (by decide) after) views
  obtain ⟨result, calls, views⟩ := follows
  simp only [← effect_services, ← made_services] at result calls views
  exact ⟨result, calls, views⟩

/-- Nothing is different but for the requests made in vain. -/
structure Unaffected (answer : Answers σ) (document : σ → δ) (reservations : σ → List Reservation) (services : σ → List Service)
    (state : σ) (pass other : Pass α) : Prop where
  result : (effect answer state other).1 = (effect answer state pass).1
  calls : (made answer state other).map Prod.snd = besidesRefusals answer (made answer state pass)
  document : document (effect answer state other).2 = document (effect answer state pass).2
  reservations : reservations (effect answer state other).2 = reservations (effect answer state pass).2
  services : services (effect answer state other).2 = services (effect answer state pass).2

/-- Which requests are refused is left open. That one of them is refused shows in nothing that is held. -/
theorem refusals_isolated {document : σ → δ} {reservations : σ → List Reservation} {services : σ → List Service} {rest : σ → κ}
    (sees : Sees answer (holdings document reservations services rest) adding)
    (unnoticed : Unnoticed answer (holdings document reservations services rest))
    {batch : List Service} (distinct : Distinct batch) (state : σ) :
    Unaffected answer document reservations services state (Pass.services settings .add batch) (Pass.services settings .add
      (served settings (refusals answer (made answer state (Pass.services settings .add batch))) batch)) := by
  obtain ⟨result, calls, views⟩ := add_follows sees unnoticed distinct state
  simp only [holdings, Prod.mk.injEq] at views
  obtain ⟨document, reservations, services, _⟩ := views
  exact ⟨result, calls, document, reservations, services⟩

section

/-- A site that has no addresses for some tags. -/
def choosy (lacking : List String) : Answers Site
  | site, .createReservation project request =>
    if request.tags.any lacking.contains then (.error (.refused 422 "no capacity"), site)
    else Site.answer counted site (.createReservation project request)
  | site, call => Site.answer counted site call

/-- A world that counts the calls made on it. -/
def counting (answer : Answers σ) : Answers (σ × Nat) :=
  fun (state, asked) call => ((answer state call).1, (answer state call).2, asked + 1)

/-- All of a site that calls go by, and not how many there were. -/
abbrev stocked : Site × Nat → Option String × List Reservation × List Service × Nat :=
  holdings (·.1.document) (·.1.reservations) (·.1.services) (·.1.created)

theorem stocked_inj {first second : Site × Nat} (same : stocked second = stocked first) : second.1 = first.1 := by
  obtain ⟨⟨_, _, _, _, _⟩, _⟩ := first
  obtain ⟨⟨_, _, _, _, _⟩, _⟩ := second
  cases same
  rfl

theorem counting_sees (answer : Answers Site) (kinds : List Kind) : Sees (counting answer) stocked kinds := by
  rintro ⟨site, asked⟩ ⟨other, times⟩ call _ same
  cases stocked_inj same
  exact ⟨rfl, rfl⟩

theorem choosy_unnoticed (lacking : List String) : Unnoticed (counting (choosy lacking)) stocked := by
  intro state project request failure refused
  obtain ⟨site, asked⟩ := state
  simp only [counting, choosy] at refused ⊢
  split at refused
  next lacks => rw [if_pos lacks]; rfl
  next => cases refused

def called (name : String) : Service := { web with metadata := { name := some name, ns := some "shop" } }

/-- One service has an address, one has a reservation, and the others have none. One asks for none. -/
def mixed : List Service :=
  [{ called "old" with spec := some { type := some Service.loadBalancerType, loadBalancerAddress := some "10.1.1.1" } }, called "api",
    called "db", { called "api" with spec := none }, web]

def scarce : Site where
  document := some ({} : Config).write
  reservations := [⟨"r1", .v4 10 9 9 9, 32, [plain.providerTag, Identity.tag ⟨"shop", "db"⟩]⟩]
  services := [called "api", called "db", web]
  keys := by decide

/-- There is no address to be had for one of the services. -/
abbrev wanting : Answers (Site × Nat) := counting (choosy [Identity.tag ⟨"shop", "api"⟩])

theorem refusals_isolated_scarce :
    Distinct mixed ∧ refusals wanting (made wanting (scarce, 0) (Pass.services plain .add mixed)) = [requestFor plain ⟨"shop", "api"⟩] ∧
      Unaffected wanting (·.1.document) (·.1.reservations) (·.1.services) (scarce, 0) (Pass.services plain .add mixed)
        (Pass.services plain .add
          (served plain (refusals wanting (made wanting (scarce, 0) (Pass.services plain .add mixed))) mixed)) := by
  have distinct : Distinct mixed := by decide +kernel
  have located : plain.location = some ⟨"metallb-system", "config"⟩ := rfl
  have listing : effect wanting (scarce, 0) (Pass.listReservations plain) = (.ok scarce.reservations, scarce, 1) := rfl
  have loading : effect wanting (scarce, 1) (loadGiven plain) = (.ok (some {}), scarce, 2) := loads_written located rfl
  have refused : refusals wanting (made wanting (scarce, 2) (perform plain .add scarce.reservations (some {})
      (mixed.filter (·.isLoadBalancer)))) = [requestFor plain ⟨"shop", "api"⟩] := by decide +kernel
  refine ⟨distinct, ?_, refusals_isolated (counting_sees _ adding) (choosy_unnoticed _) distinct (scarce, 0)⟩
  rw [made_services, refusals_behind (makes_listReservations plain (List.mem_singleton_self _)) (by decide) listing,
    refusals_behind (makes_loadGiven plain (List.mem_singleton_self _)) (by decide) loading, refused]

end

end PeerPool.Proofs.FailedReservations
