import PeerPool.Proofs.AddressSources
import PeerPool.Proofs.SiteEffects

/-! What passes do to the services that are stored. A pass decides by the copies it is given
which of them are to be told an address, and tells the ones that are stored by then. A copy that
is out of date may have no address yet where the stored service has one, which is lost. -/

namespace PeerPool.Proofs.StaleCopies
open PassLogic PassServices PassCalls PassPools Deletions Synchronized AddressSources Sites Simulation Provider Cluster

variable {σ : Type} {answer : Answers σ} {settings : Settings} {listed : List Reservation} {calls : List (σ × Call)}
  {services : List Service}

/-- How calls act on the services that are stored. -/
structure Shelf (answer : Answers σ) (stored : σ → Identity → Option Service) : Prop where
  keyed : ∀ state identity service, stored state identity = some service → storedAs service = identity
  gets : ∀ state identity latest, (answer state (.getService identity.ns identity.name)).1 = .ok latest →
    stored state identity = some latest
  updates : ∀ state service, (answer state (.updateService service)).1 = .ok () → ∀ identity,
    stored (answer state (.updateService service)).2 identity = if identity = storedAs service then some service else stored state identity
  refuses : ∀ state service error, (answer state (.updateService service)).1 = .error error →
    stored (answer state (.updateService service)).2 = stored state
  keeps : ∀ state call, kind call ≠ .update → stored (answer state call).2 = stored state

/-- The service is told the address of a reservation that it goes by, because the copy has none. -/
inductive Tells (answer : Answers σ) (settings : Settings) (listed : List Reservation) (calls : List (σ × Call))
    (services : List Service) (identity : Identity) : σ → Service → Prop where
  | intro {copy latest : Service} {reservation : Reservation} {asked before : σ} : copy ∈ services →
      copy.identity? = some identity → copy.assignedAddress? = none → GoesBy answer settings listed calls identity reservation →
      answer asked (.getService identity.ns identity.name) = (.ok latest, before) →
      Tells answer settings listed calls services identity before (latest.assign reservation.address.write)

theorem Tells.mono {more : List (σ × Call)} {others : List Service} (within : ∀ entry ∈ calls, entry ∈ more)
    (among : ∀ service ∈ services, service ∈ others) {identity : Identity} {before : σ} {updated : Service}
    (tells : Tells answer settings listed calls services identity before updated) :
    Tells answer settings listed more others identity before updated := by
  cases tells with
  | intro member known unassigned goes answered => exact .intro (among _ member) known unassigned (goes.mono within) answered

theorem Tells.asks {identity : Identity} {before : σ} {updated : Service}
    (tells : Tells answer settings listed calls services identity before updated) :
    ∃ copy ∈ services, copy.identity? = some identity ∧ copy.assignedAddress? = none := by
  cases tells with
  | intro member known unassigned _ _ => exact ⟨_, member, known, unassigned⟩

section

variable {state before : σ} {updated : Service}

theorem addressOf_tells {service : Service} {identity : Identity} (known : service.identity? = some identity)
    (member : (before, .updateService updated) ∈ made answer state (Pass.addressOf settings listed service identity)) :
    Tells answer settings listed (made answer state (Pass.addressOf settings listed service identity)) [service] identity before updated := by
  have course := addressOf_course answer settings listed identity service state
  generalize made answer state (Pass.addressOf settings listed service identity) = calls at course member ⊢
  generalize effect answer state (Pass.addressOf settings listed service identity) = ran at course
  obtain ⟨result, after⟩ := ran
  cases course with
  | known => cases member
  | refused => cases List.mem_singleton.mp member
  | @found asked told reservation _ _ _ unassigned finds telling =>
    have goes : GoesBy answer settings listed (asked ++ told) identity reservation := finds.goesBy fun _ => List.mem_append_left _
    rcases List.mem_append.mp member with member | member
    · cases finds.creates _ member
    · cases telling with
      | unread => cases List.mem_singleton.mp member
      | read read _ =>
        rcases List.mem_cons.mp member with first | member
        · cases first
        · cases List.mem_singleton.mp member
          exact .intro (List.mem_singleton.mpr rfl) known unassigned goes read

theorem addService_tells {config? : Option Config} {service : Service}
    (member : (before, .updateService updated) ∈ made answer state (Pass.addService settings listed config? service)) :
    ∃ identity, Tells answer settings listed (made answer state (Pass.addService settings listed config? service)) [service]
      identity before updated := by
  rw [addService_eq] at member ⊢
  have names : Makes [] (Pass.identityOf service) := makes_identityOf service
  obtain ⟨identity, _, named, _⟩ := names.behind (by simp) member
  obtain ⟨known, named⟩ := identityOf_ok named
  rw [named, pure_bind] at member ⊢
  have maps (cidr? : Option String) : Makes [] (mapGiven identity cidr? config?) := makes_mapGiven identity cidr? config?
  exact ⟨identity, (addressOf_tells known (Makes.ahead maps (by simp) member)).mono (made_first answer) fun _ inside => inside⟩

theorem addServices_tells {config? : Option Config}
    (member : (before, .updateService updated) ∈ made answer state (Pass.addServices settings listed config? services)) :
    ∃ identity, Tells answer settings listed (made answer state (Pass.addServices settings listed config? services)) services
      identity before updated := by
  induction services generalizing state config? with
  | nil => cases member
  | cons service rest ih =>
    rw [Pass.addServices] at member ⊢
    rcases made_bind_cases member with first | ⟨added, between, first, later⟩
    · obtain ⟨identity, tells⟩ := addService_tells first
      exact ⟨identity, tells.mono (made_first answer) (by simp)⟩
    · have ends (added' : List String × Option Config) : Makes [] (pure (added.cidr.toList ++ added'.1, added'.2) :
          Pass (List String × Option Config)) := .pure _
      obtain ⟨identity, tells⟩ := ih (Makes.ahead ends (by simp) later)
      refine ⟨identity, tells.mono ?_ fun _ inside => List.mem_cons_of_mem _ inside⟩
      intro entry inside
      exact mem_made_bind answer first (made_first answer entry inside)

theorem perform_adds {mode : Mode} (adding : mode ≠ .remove) (settings : Settings) (listed : List Reservation) (loaded? : Option Config)
    (services : List Service) : ∃ next : List String × Option Config → Pass Unit,
      perform settings mode listed loaded? services = Pass.addServices settings listed loaded? services >>= next ∧
        ∀ added, Makes [.list, .patch, .delete] (next added) := by
  cases mode with
  | add => exact ⟨_, rfl, fun added => makes_saveIfChanged settings (by decide) loaded? added.2⟩
  | remove => exact absurd rfl adding
  | sync =>
    rw [perform, syncServices_eq]
    exact ⟨_, rfl, fun added => makes_cleanUp settings (by decide) (by decide) (by decide) loaded? services added⟩

/-- The calls that add the services are among those of the pass. -/
theorem adding_within {mode : Mode} (adding : mode ≠ .remove) {batch : List Service} {loaded? : Option Config} {opened readied : σ}
    (lists : effect answer state (Pass.listReservations settings) = (.ok listed, opened))
    (loads : effect answer opened (loadGiven settings) = (.ok loaded?, readied)) :
    ∀ entry ∈ made answer readied (Pass.addServices settings listed loaded? (batch.filter (·.isLoadBalancer))),
      entry ∈ made answer state (Pass.services settings mode batch) := by
  intro entry inside
  obtain ⟨next, adds, _⟩ := perform_adds adding settings listed loaded? (batch.filter (·.isLoadBalancer))
  rw [made_services]
  apply mem_made_bind answer lists
  apply mem_made_bind answer loads
  rw [adds]
  exact made_first answer entry inside

theorem remove_updates {loaded? : Option Config} :
    (before, .updateService updated) ∉ made answer state (perform settings .remove listed loaded? services) := by
  intro member
  have makes : Makes [.delete, .patch] (perform settings .remove listed loaded? services) :=
    .bind (makes_removeServices settings (by decide) listed loaded? services) fun _ => makes_saveIfChanged settings (by decide) loaded? _
  exact absurd (makes.only member) (by simp [kind])

theorem services_tells {mode : Mode} {batch : List Service}
    (member : (before, .updateService updated) ∈ made answer state (Pass.services settings mode batch)) :
    mode ≠ .remove ∧ ∃ listed, (answer state (.listReservations settings.projectId)).1 = .ok listed ∧
      ∃ identity, Tells answer settings listed (made answer state (Pass.services settings mode batch))
        (batch.filter (·.isLoadBalancer)) identity before updated := by
  rw [made_services] at member
  have listing : Makes [.list] (Pass.listReservations settings) := makes_listReservations settings (by decide)
  have loading : Makes [.load] (loadGiven settings) := makes_loadGiven settings (by decide)
  obtain ⟨listed, opened, lists, member⟩ := listing.behind (by simp [kind]) member
  obtain ⟨loaded?, readied, loads, member⟩ := loading.behind (by simp [kind]) member
  have adding : mode ≠ .remove := by
    rintro rfl
    exact remove_updates member
  obtain ⟨next, adds, ends⟩ := perform_adds adding settings listed loaded? (batch.filter (·.isLoadBalancer))
  rw [adds] at member
  obtain ⟨identity, tells⟩ := addServices_tells (Makes.ahead ends (by simp [kind]) member)
  exact ⟨adding, listed, (listing_listed lists).2, identity, tells.mono (adding_within adding lists loads) fun _ inside => inside⟩

end

/-- The batch asks for an address for a service, by a copy that has none. -/
def Asked (mode : Mode) (batch : List Service) (identity : Identity) : Prop :=
  mode ≠ .remove ∧ ∃ copy ∈ batch.filter (·.isLoadBalancer), copy.identity? = some identity ∧ copy.assignedAddress? = none

/-- The stored service has got the address of a reservation that was listed for it or made for it. -/
def Told (answer : Answers σ) (stored : σ → Identity → Option Service) (settings : Settings) (state : σ) (calls : List (σ × Call))
    (identity : Identity) (service : Service) (moment : σ) : Prop :=
  ∃ listed reservation, (answer state (.listReservations settings.projectId)).1 = .ok listed ∧
    GoesBy answer settings listed calls identity reservation ∧
    stored moment identity = some (service.assign reservation.address.write)

/-- The stored service is as it was, or it was told an address for a copy of it that has none. -/
def KeptOrTold (answer : Answers σ) (stored : σ → Identity → Option Service) (settings : Settings) (mode : Mode)
    (batch : List Service) (state : σ) (identity : Identity) (service : Service) (moment : σ) : Prop :=
  stored moment identity = some service ∨ Asked mode batch identity ∧
    Told answer stored settings state (made answer state (Pass.services settings mode batch)) identity service moment

section

variable {stored : σ → Identity → Option Service} (shelf : Shelf answer stored) {mode : Mode} {batch : List Service}
  {state : σ} {identity : Identity} {service : Service}
include shelf

theorem Tells.finds {before : σ} {updated : Service} (tells : Tells answer settings listed calls services identity before updated) :
    storedAs updated = identity ∧ ∃ latest reservation, stored before identity = some latest ∧
      GoesBy answer settings listed calls identity reservation ∧ updated = latest.assign reservation.address.write := by
  cases tells with
  | @intro copy latest reservation asked before member known unassigned goes answered =>
    have found := shelf.gets asked identity latest (congrArg Prod.fst answered)
    have kept := shelf.keeps asked (.getService identity.ns identity.name) (by simp [kind])
    rw [answered] at kept
    exact ⟨shelf.keyed asked identity latest found, latest, reservation, kept ▸ found, goes, rfl⟩

/-- An update tells the service an address over the one that it has. -/
theorem update_tells {before : σ} {updated : Service} {listed : List Reservation}
    (lists : (answer state (.listReservations settings.projectId)).1 = .ok listed)
    (tells : Tells answer settings listed (made answer state (Pass.services settings mode batch)) services identity before updated)
    (updates : (answer before (.updateService updated)).1 = .ok ())
    (holds : KeptOrTold answer stored settings mode batch state identity service before) :
    Told answer stored settings state (made answer state (Pass.services settings mode batch)) identity service
      (answer before (.updateService updated)).2 := by
  obtain ⟨key, latest, reservation, found, goes, rfl⟩ := tells.finds shelf
  have replaced := shelf.updates before _ updates identity
  rw [key, if_pos rfl] at replaced
  refine ⟨listed, reservation, lists, goes, replaced.trans ?_⟩
  -- Whether it was told an address before or not, all else of it is still the same.
  rcases holds with first | ⟨_, _, _, _, _, told⟩
  · cases found.symm.trans first
    rfl
  · cases found.symm.trans told
    rfl

/-- Each call leaves a service as it was, or tells it an address. -/
theorem keeps_or_tells (before : σ) (call : Call) (member : (before, call) ∈ made answer state (Pass.services settings mode batch))
    (holds : KeptOrTold answer stored settings mode batch state identity service before) :
    stored (answer before call).2 identity = stored before identity ∨ Asked mode batch identity ∧
      Told answer stored settings state (made answer state (Pass.services settings mode batch)) identity service (answer before call).2 := by
  by_cases updates : kind call = .update
  · cases call with
    | updateService updated =>
      obtain ⟨adding, listed, lists, other, tells⟩ := services_tells member
      cases answered : (answer before (.updateService updated)).1 with
      | error error => exact .inl (congrFun (shelf.refuses before _ error answered) identity)
      | ok _ =>
        by_cases here : identity = other
        · subst here
          exact .inr ⟨⟨adding, tells.asks⟩, update_tells shelf lists tells answered holds⟩
        · have replaced := shelf.updates before _ answered identity
          rw [(tells.finds shelf).1, if_neg here] at replaced
          exact .inl replaced
    | _ => cases updates
  · exact .inl (congrFun (shelf.keeps before call updates) identity)

theorem keptOrTold_kept (before : σ) (call : Call) (member : (before, call) ∈ made answer state (Pass.services settings mode batch))
    (holds : KeptOrTold answer stored settings mode batch state identity service before) :
    KeptOrTold answer stored settings mode batch state identity service (answer before call).2 := by
  rcases keeps_or_tells shelf before call member holds with kept | told
  · unfold KeptOrTold Told at holds ⊢
    rw [kept]
    exact holds
  · exact .inr told

end

/-- No reservation is refused. -/
def Creates (answer : Answers σ) (calls : List (σ × Call)) : Prop :=
  ∀ before project request, (before, .createReservation project request) ∈ calls →
    (answer before (.createReservation project request)).1.isOk = true

theorem Creates.within {fewer : List (σ × Call)} (creates : Creates answer calls) (inside : ∀ entry ∈ fewer, entry ∈ calls) :
    Creates answer fewer := fun before project request member => creates before project request (inside _ member)

/-- One of the calls tells the service an address, and is accepted. -/
def Reached (answer : Answers σ) (settings : Settings) (listed : List Reservation) (calls : List (σ × Call))
    (services : List Service) (identity : Identity) : Prop :=
  ∃ before updated, (before, .updateService updated) ∈ calls ∧ (answer before (.updateService updated)).1 = .ok () ∧
    Tells answer settings listed calls services identity before updated

theorem Reached.mono {more : List (σ × Call)} {others : List Service} (within : ∀ entry ∈ calls, entry ∈ more)
    (among : ∀ service ∈ services, service ∈ others) {identity : Identity}
    (reached : Reached answer settings listed calls services identity) : Reached answer settings listed more others identity := by
  obtain ⟨before, updated, asked, updates, tells⟩ := reached
  exact ⟨before, updated, within _ asked, updates, tells.mono within among⟩

section

variable {state after : σ} {copy : Service} {identity : Identity} (known : copy.identity? = some identity)
  (unassigned : copy.assignedAddress? = none)
include unassigned

theorem addressOf_reaches {cidr? : Option String}
    (ok : effect answer state (Pass.addressOf settings listed copy identity) = (.ok cidr?, after))
    (creates : Creates answer (made answer state (Pass.addressOf settings listed copy identity))) :
    ∃ before updated, (before, .updateService updated) ∈ made answer state (Pass.addressOf settings listed copy identity) ∧
      (answer before (.updateService updated)).1 = .ok () := by
  have course := addressOf_course answer settings listed identity copy state
  rw [ok] at course
  generalize made answer state (Pass.addressOf settings listed copy identity) = calls at course creates ⊢
  generalize same : Except.ok cidr? = result at course
  cases course with
  | known assigned => cases unassigned.symm.trans assigned
  | refused _ _ refused =>
    have granted := creates _ _ _ (List.mem_singleton_self _)
    rw [refused] at granted
    cases granted
  | @found asked _ _ _ _ reply _ _ telling =>
    cases reply with
    | error failure => cases same
    | ok _ =>
      cases telling with
      | read _ written => exact ⟨_, _, List.mem_append_right asked (by simp), congrArg Prod.fst written⟩

include known

theorem addService_reaches {config? : Option Config} {added : Pass.Added}
    (ok : effect answer state (Pass.addService settings listed config? copy) = (.ok added, after))
    (creates : Creates answer (made answer state (Pass.addService settings listed config? copy))) :
    Reached answer settings listed (made answer state (Pass.addService settings listed config? copy)) [copy] identity := by
  rw [addService_known known] at ok creates ⊢
  obtain ⟨cidr?, between, found, _⟩ := (effect_bind_ok answer).mp ok
  obtain ⟨before, updated, member, updates⟩ := addressOf_reaches unassigned found (creates.within (made_first answer))
  exact ⟨before, updated, made_first answer _ member, updates, (addressOf_tells known member).mono (made_first answer) fun _ inside => inside⟩

theorem adds_reaches {config? last? : Option Config} {cidrs : List String} (member : copy ∈ services)
    (adds : Adds answer settings listed state config? services cidrs last? after)
    (creates : Creates answer (made answer state (Pass.addServices settings listed config? services))) :
    Reached answer settings listed (made answer state (Pass.addServices settings listed config? services)) services identity := by
  induction adds with
  | nil => cases member
  | cons first _ ih =>
    rw [made_addServices_cons first] at creates ⊢
    rcases List.mem_cons.mp member with rfl | member
    · have reached := addService_reaches known unassigned first (creates.within fun _ => List.mem_append_left _)
      exact reached.mono (fun _ => List.mem_append_left _) (by simp)
    · have reached := ih member (creates.within fun _ => List.mem_append_right _)
      exact reached.mono (fun _ => List.mem_append_right _) fun _ => List.mem_cons_of_mem _

/-- A pass that succeeds tells each service an address that it is asked for, if no reservation is refused. -/
theorem services_reaches {mode : Mode} {batch : List Service} (adding : mode ≠ .remove) (member : copy ∈ batch.filter (·.isLoadBalancer))
    (ok : effect answer state (Pass.services settings mode batch) = (.ok (), after))
    (creates : Creates answer (made answer state (Pass.services settings mode batch))) :
    ∃ listed, (answer state (.listReservations settings.projectId)).1 = .ok listed ∧
      Reached answer settings listed (made answer state (Pass.services settings mode batch)) (batch.filter (·.isLoadBalancer)) identity := by
  rw [effect_services] at ok
  obtain ⟨listed, opened, lists, ok⟩ := (effect_bind_ok answer).mp ok
  obtain ⟨loaded?, readied, loads, ok⟩ := (effect_bind_ok answer).mp ok
  obtain ⟨next, adds, _⟩ := perform_adds adding settings listed loaded? (batch.filter (·.isLoadBalancer))
  rw [adds] at ok
  obtain ⟨_, between, added, _⟩ := (effect_bind_ok answer).mp ok
  have reached := adds_reaches known unassigned member (addServices_adds added) (creates.within (adding_within adding lists loads))
  exact ⟨listed, (listing_listed lists).2, reached.mono (adding_within adding lists loads) fun _ inside => inside⟩

end

/-- A pass leaves a stored service as it is, but for the address that it tells it for a copy without one. -/
structure Overwrites (answer : Answers σ) (stored : σ → Identity → Option Service) (settings : Settings) (mode : Mode)
    (batch : List Service) (state : σ) (identity : Identity) (service : Service) : Prop where
  throughout : ∀ before call, (before, call) ∈ made answer state (Pass.services settings mode batch) →
    KeptOrTold answer stored settings mode batch state identity service before
  ends : KeptOrTold answer stored settings mode batch state identity service (effect answer state (Pass.services settings mode batch)).2
  /-- The address that it may have by then is lost whenever the pass succeeds, unless no reservation can be had. -/
  overwrites : Asked mode batch identity → (effect answer state (Pass.services settings mode batch)).1 = .ok () →
    Creates answer (made answer state (Pass.services settings mode batch)) →
    Told answer stored settings state (made answer state (Pass.services settings mode batch)) identity service
      (effect answer state (Pass.services settings mode batch)).2

theorem overwrites_if_asked {stored : σ → Identity → Option Service} (shelf : Shelf answer stored) (settings : Settings) (mode : Mode)
    (batch : List Service) (state : σ) {identity : Identity} {service : Service} (present : stored state identity = some service) :
    Overwrites answer stored settings mode batch state identity service := by
  obtain ⟨throughout, ends⟩ := calls_throughout (KeptOrTold answer stored settings mode batch state identity service)
    (keptOrTold_kept shelf) (.inl present)
  refine ⟨throughout, ends, ?_⟩
  intro asked ok creates
  obtain ⟨adding, copy, member, known, unassigned⟩ := asked
  obtain ⟨listed, lists, before, updated, asks, updates, tells⟩ :=
    services_reaches known unassigned adding member (Prod.ext ok rfl) creates
  have told := update_tells shelf lists tells updates (throughout before _ asks)
  -- Once a service is told, it is told anew or left alone.
  refine calls_since (Told answer stored settings state _ identity service) ?_ asks told
  intro between call made told
  rcases keeps_or_tells shelf between call made (.inr ⟨⟨adding, copy, member, known, unassigned⟩, told⟩) with kept | ⟨_, again⟩
  · unfold Told at told ⊢
    rw [kept]
    exact told
  · exact again

section

def shelved (site : Site) (identity : Identity) : Option Service := site.services.find? (storedAs · = identity)

theorem shelved_update {site : Site} {service : Service} (present : site.services.any (storedAs · = storedAs service) = true)
    (identity : Identity) : (site.services.map (replacing service)).find? (storedAs · = identity) =
      if identity = storedAs service then some service else shelved site identity := by
  have keys : (fun other => decide (storedAs other = identity)) ∘ replacing service = (fun other => decide (storedAs other = identity)) := by
    funext other
    simp [storedAs_replacing]
  rw [List.find?_map, keys]
  change (shelved site identity).map (replacing service) = _
  cases found : shelved site identity with
  | none =>
    rw [if_neg]
    · rfl
    · rintro rfl
      obtain ⟨other, member, same⟩ := List.any_eq_true.mp present
      exact List.find?_eq_none.mp found other member same
  | some other =>
    have key : storedAs other = identity := by simpa using List.find?_some found
    rw [Option.map_some, replacing, key]
    split <;> rfl

theorem shelf_site (offers : Nat → Offer) : Shelf (Site.answer offers) shelved where
  keyed site identity service found := by simpa using List.find?_some found
  gets site identity latest answered := by
    simp only [Site.answer, Site.service] at answered
    split at answered
    next found =>
      cases answered
      exact found
    next => cases answered
  updates site service answered identity := by
    simp only [Site.answer, Site.update] at answered ⊢
    split at answered
    next present =>
      rw [if_pos present]
      exact shelved_update present identity
    next => cases answered
  refuses site service error answered := by
    simp only [Site.answer, Site.update] at answered ⊢
    split at answered
    next => cases answered
    next absent => rw [if_neg absent]
  keeps site call other := by
    cases call with
    | updateService service => exact absurd rfl other
    | _ => rfl

/-- A service that was given an address since a copy of it was taken. -/
def outdated : Site where
  document := some ({} : Config).write
  services := [web.assign "10.9.9.9"]
  keys := keys_single _

theorem overwrites_if_asked_web : shelved outdated ⟨"shop", "web"⟩ = some (web.assign "10.9.9.9") ∧
    Overwrites (Site.answer counted) shelved plain .add [web] outdated ⟨"shop", "web"⟩ (web.assign "10.9.9.9") :=
  ⟨rfl, overwrites_if_asked (shelf_site counted) plain .add [web] outdated rfl⟩

/-- The address that the service was given is lost to one that is made for its copy. -/
theorem copy_overwrites_address :
    (shelved outdated ⟨"shop", "web"⟩).bind Service.assignedAddress? = some "10.9.9.9" ∧
    (effect (Site.answer counted) outdated (Pass.services plain .add [web])).1 = .ok () ∧
    (shelved (effect (Site.answer counted) outdated (Pass.services plain .add [web])).2 ⟨"shop", "web"⟩).bind
      Service.assignedAddress? = some "10.0.0.0" := by decide +kernel

end

end PeerPool.Proofs.StaleCopies
