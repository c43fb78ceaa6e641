import PeerPool.Proofs.Coverage

/-! Where the addresses come from that a pass maps for services: a service has its address
already, or it goes by a reservation that was listed for it or made for it. -/

namespace PeerPool.Proofs.AddressSources
open PassLogic PassServices PassCalls PassPools Synchronized Coverage Provider Cluster

variable {σ α β : Type} {answer : Answers σ} {settings : Settings} {listed : List Reservation}

/-- What is asked for where a service owns no reservation. -/
def requestFor (settings : Settings) (identity : Identity) : Request :=
  Request.single settings.facility [settings.providerTag, identity.tag]

/-- A service goes by the first listed reservation that it owns. If there is none, it goes by one
that is made for it. -/
inductive GoesBy (answer : Answers σ) (settings : Settings) (listed : List Reservation) (calls : List (σ × Call))
    (identity : Identity) : Reservation → Prop where
  | owned {reservation : Reservation} : Pass.owned? settings identity listed = some reservation →
      GoesBy answer settings listed calls identity reservation
  | made {before : σ} {reservation : Reservation} : Pass.owned? settings identity listed = none →
      (before, .createReservation settings.projectId (requestFor settings identity)) ∈ calls →
      (answer before (.createReservation settings.projectId (requestFor settings identity))).1 = .ok reservation →
      GoesBy answer settings listed calls identity reservation

/-- The text that is mapped for a service. -/
inductive Uses (answer : Answers σ) (settings : Settings) (listed : List Reservation) (calls : List (σ × Call))
    (service : Service) : String → Prop where
  | assigned {identity : Identity} {text : String} : service.identity? = some identity → service.assignedAddress? = some text →
      Uses answer settings listed calls service (knownCidr (Pass.owned? settings identity listed) text)
  | reserved {identity : Identity} {reservation : Reservation} : service.identity? = some identity →
      service.assignedAddress? = none → GoesBy answer settings listed calls identity reservation →
      Uses answer settings listed calls service reservation.cidr

/-- Some call came back with this reservation as a new one. -/
def Created (answer : Answers σ) (calls : List (σ × Call)) (reservation : Reservation) : Prop :=
  ∃ before project request, (before, .createReservation project request) ∈ calls ∧
    (answer before (.createReservation project request)).1 = .ok reservation

section

variable {calls more : List (σ × Call)} (within : ∀ entry ∈ calls, entry ∈ more)
include within

theorem GoesBy.mono {identity : Identity} {reservation : Reservation} (goes : GoesBy answer settings listed calls identity reservation) :
    GoesBy answer settings listed more identity reservation := by
  cases goes with
  | owned found => exact .owned found
  | made unowned member answered => exact .made unowned (within _ member) answered

theorem Uses.mono {service : Service} {cidr : String} (uses : Uses answer settings listed calls service cidr) :
    Uses answer settings listed more service cidr := by
  cases uses with
  | assigned known assigned => exact .assigned known assigned
  | reserved known unassigned goes => exact .reserved known unassigned (goes.mono within)

end

theorem reserve_asks (answer : Answers σ) (settings : Settings) (identity : Identity) (state : σ) :
    effect answer state (Pass.reserve settings identity) =
        (.ok (answer state (.createReservation settings.projectId (requestFor settings identity))).1.toOption,
          (answer state (.createReservation settings.projectId (requestFor settings identity))).2) ∧
      made answer state (Pass.reserve settings identity) =
        [(state, .createReservation settings.projectId (requestFor settings identity))] := by
  unfold Pass.reserve Pass.info
  rw [effect_say_bind, effect_ask_bind, made_say_bind, made_ask_bind, ← requestFor]
  generalize answer state (.createReservation settings.projectId (requestFor settings identity)) = reply
  obtain ⟨_ | _, after⟩ := reply <;> exact ⟨rfl, rfl⟩

section

variable (answer settings listed) (identity : Identity)

/-- The call that asks for a reservation. -/
abbrev creation : Call := .createReservation settings.projectId (requestFor settings identity)

/-- The call that reads the service as it is stored. -/
abbrev reading : Call := .getService identity.ns identity.name

/-- How a service without an address comes by a reservation: with which calls, and to which state. -/
inductive Finds (state : σ) : List (σ × Call) → Reservation → σ → Prop where
  | owned {reservation : Reservation} : Pass.owned? settings identity listed = some reservation → Finds state [] reservation state
  | made {reservation : Reservation} {after : σ} : Pass.owned? settings identity listed = none →
      answer state (creation settings identity) = (.ok reservation, after) →
      Finds state [(state, creation settings identity)] reservation after

/-- How the service is told an address. -/
inductive Telling (address : Address) (state : σ) : List (σ × Call) → Except StoreError Unit → σ → Prop where
  | unread {failure : StoreError} {after : σ} : answer state (reading identity) = (.error failure, after) →
      Telling address state [(state, reading identity)] (.error failure) after
  | read {latest : Service} {found after : σ} {reply : Except StoreError Unit} : answer state (reading identity) = (.ok latest, found) →
      answer found (.updateService (latest.assign address.write)) = (reply, after) →
      Telling address state [(state, reading identity), (found, .updateService (latest.assign address.write))] reply after

/-- All the ways in which a service comes by its address, or does not. -/
inductive Course (service : Service) (state : σ) : List (σ × Call) → Except PassError (Option String) → σ → Prop where
  | known {text : String} : service.assignedAddress? = some text →
      Course service state [] (.ok (some (knownCidr (Pass.owned? settings identity listed) text))) state
  | refused {failure : Provider.Error} {after : σ} : service.assignedAddress? = none → Pass.owned? settings identity listed = none →
      answer state (creation settings identity) = (.error failure, after) →
      Course service state [(state, creation settings identity)] (.ok none) after
  | found {asked told : List (σ × Call)} {reservation : Reservation} {between after : σ} {reply : Except StoreError Unit} :
      service.assignedAddress? = none → Finds answer settings listed identity state asked reservation between →
      Telling answer identity reservation.address between told reply after →
      Course service state (asked ++ told) ((reply.mapError .serviceStore).map fun _ => some reservation.cidr) after

end

theorem assign_telling (answer : Answers σ) (identity : Identity) (address : Address) (state : σ) : ∃ reply after,
    effect answer state (Pass.assign identity address) = (reply.mapError .serviceStore, after) ∧
      Telling answer identity address state (made answer state (Pass.assign identity address)) reply after := by
  unfold Pass.assign
  rw [effect_ask_bind, made_ask_bind]
  cases read : answer state (reading identity) with
  | mk reply found =>
    cases reply with
    | error failure => exact ⟨.error failure, found, rfl, .unread read⟩
    | ok latest =>
      change ∃ reply after, effect answer found (Pass.ask (.updateService (latest.assign address.write)) >>= _) = _ ∧
        Telling answer identity address state
          ((state, reading identity) :: made answer found (Pass.ask (.updateService (latest.assign address.write)) >>= _)) reply after
      rw [effect_ask_bind, made_ask_bind]
      cases written : answer found (.updateService (latest.assign address.write)) with
      | mk reply after =>
        have telling := Telling.read read written
        cases reply <;> exact ⟨_, after, rfl, telling⟩

theorem tellAddress_telling (answer : Answers σ) (identity : Identity) (reservation : Reservation) (state : σ) : ∃ reply after,
    effect answer state (tellAddress identity (some reservation)) =
        ((reply.mapError .serviceStore).map fun _ => some reservation.cidr, after) ∧
      Telling answer identity reservation.address state (made answer state (tellAddress identity (some reservation))) reply after := by
  obtain ⟨reply, after, assigned, telling⟩ := assign_telling answer identity reservation.address state
  unfold tellAddress
  rw [effect_bind, made_bind, assigned]
  refine ⟨reply, after, ?_⟩
  cases reply <;> exact ⟨rfl, by simpa only [Except.mapError, made_pure, List.append_nil] using telling⟩

theorem addressOf_course (answer : Answers σ) (settings : Settings) (listed : List Reservation) (identity : Identity) (service : Service)
    (state : σ) : Course answer settings listed identity service state (made answer state (Pass.addressOf settings listed service identity))
      (effect answer state (Pass.addressOf settings listed service identity)).1
      (effect answer state (Pass.addressOf settings listed service identity)).2 := by
  rw [addressOf_eq]
  cases assigned : service.assignedAddress? with
  | some text => exact .known assigned
  | none =>
    simp only
    unfold reservationFor
    cases owned : Pass.owned? settings identity listed with
    | some reservation =>
      obtain ⟨reply, after, ends, telling⟩ := tellAddress_telling answer identity reservation state
      simp only [bind_assoc, pure_bind]
      have course := Course.found assigned (.owned owned) telling
      rw [List.nil_append] at course
      unfold Pass.debug
      rw [effect_say_bind, made_say_bind, ends]
      exact course
    | none =>
      obtain ⟨effects, asks⟩ := reserve_asks answer settings identity state
      rw [effect_bind, made_bind, effects, asks]
      cases created : answer state (creation settings identity) with
      | mk reply between =>
        cases reply with
        | error failure => exact .refused assigned owned created
        | ok reservation =>
          obtain ⟨reply, after, ends, telling⟩ := tellAddress_telling answer identity reservation between
          have course := Course.found assigned (.made owned created) telling
          simp only [Except.toOption]
          rw [ends]
          exact course

section

variable {state after between : σ} {identity : Identity} {asked calls : List (σ × Call)} {reservation : Reservation}

theorem Telling.reads {address : Address} {reply : Except StoreError Unit}
    (telling : Telling answer identity address state asked reply after) : (state, reading identity) ∈ asked := by
  cases telling <;> exact List.mem_cons_self ..

theorem Telling.tells {address : Address} {reply : Except StoreError Unit}
    (telling : Telling answer identity address state asked reply after) : ∀ entry ∈ asked, kind entry.2 ∈ [Kind.get, .update] := by
  cases telling <;> simp [kind]

theorem Finds.goesBy (finds : Finds answer settings listed identity state asked reservation between)
    (within : ∀ entry ∈ asked, entry ∈ calls) : GoesBy answer settings listed calls identity reservation := by
  cases finds with
  | owned owned => exact .owned owned
  | made unowned created => exact .made unowned (within _ (List.mem_singleton_self _)) (congrArg Prod.fst created)

theorem Finds.creates (finds : Finds answer settings listed identity state asked reservation between) :
    ∀ entry ∈ asked, entry.2 = creation settings identity := by
  cases finds with
  | owned => exact fun _ member => absurd member List.not_mem_nil
  | made => exact List.forall_mem_singleton.mpr rfl

end

section

variable {state : σ} {kinds : List Kind} {pass : Pass α} {next : α → Pass β} {reservation : Reservation}

theorem Created.ahead (makes : ∀ value, Makes kinds (next value)) (spares : .create ∉ kinds)
    (created : Created answer (made answer state (pass >>= next)) reservation) : Created answer (made answer state pass) reservation := by
  obtain ⟨before, project, request, member, answered⟩ := created
  exact ⟨before, project, request, Makes.ahead makes spares member, answered⟩

end

theorem identityOf_ok {state after : σ} {service : Service} {identity : Identity}
    (ok : effect answer state (Pass.identityOf service) = (.ok identity, after)) :
    service.identity? = some identity ∧ Pass.identityOf service = pure identity := by
  unfold Pass.identityOf at ok ⊢
  cases known : service.identity? with
  | none =>
    rw [known] at ok
    cases ok
  | some identity =>
    rw [known] at ok
    cases ok
    exact ⟨rfl, rfl⟩

section

variable {state after : σ} {service : Service}

theorem addressOf_uses {identity : Identity} (known : service.identity? = some identity) {cidr : String}
    (ok : effect answer state (Pass.addressOf settings listed service identity) = (.ok (some cidr), after)) :
    Uses answer settings listed (made answer state (Pass.addressOf settings listed service identity)) service cidr := by
  have course := addressOf_course answer settings listed identity service state
  rw [ok] at course
  generalize made answer state (Pass.addressOf settings listed service identity) = calls at course ⊢
  generalize same : Except.ok (some cidr) = result at course
  cases course with
  | known assigned =>
    cases same
    exact .assigned known assigned
  | refused => cases same
  | @found asked told _ _ _ reply unassigned finds _ =>
    have goes := finds.goesBy fun _ => List.mem_append_left told
    cases reply <;> cases same
    exact .reserved known unassigned goes

/-- What is made for a service on the way is what it goes by in the end. -/
theorem addressOf_created {identity : Identity} {cidr? : Option String} {reservation : Reservation}
    (ok : effect answer state (Pass.addressOf settings listed service identity) = (.ok cidr?, after))
    (created : Created answer (made answer state (Pass.addressOf settings listed service identity)) reservation) :
    cidr? = some reservation.cidr := by
  have course := addressOf_course answer settings listed identity service state
  obtain ⟨before, project, request, member, answered⟩ := created
  rw [ok] at course
  generalize made answer state (Pass.addressOf settings listed service identity) = calls at course member
  generalize same : Except.ok cidr? = result at course
  cases course with
  | known => cases member
  | refused _ _ refused =>
    cases List.mem_singleton.mp member
    rw [refused] at answered
    cases answered
  | @found asked told _ _ _ reply _ finds telling =>
    rcases List.mem_append.mp member with member | member
    · cases finds with
      | owned => cases member
      | made _ made =>
        cases List.mem_singleton.mp member
        rw [made] at answered
        cases answered
        cases reply <;> cases same
        rfl
    · exact absurd (telling.tells _ member) (by simp [kind])

theorem addService_uses {config? : Option Config} {added : Pass.Added} {cidr : String}
    (ok : effect answer state (Pass.addService settings listed config? service) = (.ok added, after)) (comes : added.cidr = some cidr) :
    Uses answer settings listed (made answer state (Pass.addService settings listed config? service)) service cidr := by
  rw [addService_eq] at ok ⊢
  obtain ⟨identity, _, names, _⟩ := (effect_bind_ok answer).mp ok
  obtain ⟨known, named⟩ := identityOf_ok names
  rw [named, pure_bind] at ok ⊢
  obtain ⟨cidr?, between, found, maps⟩ := (effect_bind_ok answer).mp ok
  rw [effect_mapGiven] at maps
  cases maps
  cases comes
  exact (addressOf_uses known found).mono (made_first answer)

theorem addService_created {config? : Option Config} {added : Pass.Added} {reservation : Reservation}
    (ok : effect answer state (Pass.addService settings listed config? service) = (.ok added, after))
    (created : Created answer (made answer state (Pass.addService settings listed config? service)) reservation) :
    added.cidr = some reservation.cidr := by
  rw [addService_eq] at ok created
  obtain ⟨identity, _, names, _⟩ := (effect_bind_ok answer).mp ok
  obtain ⟨known, named⟩ := identityOf_ok names
  rw [named, pure_bind] at ok created
  have maps (cidr? : Option String) : Makes [] (mapGiven identity cidr? config?) := makes_mapGiven identity cidr? config?
  obtain ⟨cidr?, between, found, ends⟩ := (effect_bind_ok answer).mp ok
  rw [effect_mapGiven] at ends
  cases ends
  exact addressOf_created found (created.ahead maps (by decide))

end

theorem made_addService {service : Service} {identity : Identity} (known : service.identity? = some identity) (state : σ) (config? : Option Config) :
    made answer state (Pass.addService settings listed config? service) =
      made answer state (Pass.addressOf settings listed service identity) := by
  rw [addService_known known, made_bind]
  split
  next cidr? _ _ => rw [(makes_mapGiven identity cidr? config?).quiet, List.append_nil]
  next => exact List.append_nil _

/-- The calls made for services are those for the first of them and then those for the rest. -/
theorem made_addServices_cons {service : Service} {rest : List Service} {config? : Option Config} {added : Pass.Added} {state between : σ}
    (first : effect answer state (Pass.addService settings listed config? service) = (.ok added, between)) :
    made answer state (Pass.addServices settings listed config? (service :: rest)) =
      made answer state (Pass.addService settings listed config? service) ++
        made answer between (Pass.addServices settings listed added.config rest) := by
  rw [Pass.addServices, made_bind, first]
  simp only [made_bind]
  congr 1
  split <;> exact List.append_nil _

section

variable {state after : σ} {services : List Service} {config? last? : Option Config} {cidrs : List String}
  (adds : Adds answer settings listed state config? services cidrs last? after)
include adds

theorem adds_named : ∀ service ∈ services, service.identity?.isSome = true := by
  induction adds with
  | nil => exact fun _ member => absurd member List.not_mem_nil
  | cons first _ ih =>
    rw [addService_eq] at first
    obtain ⟨identity, _, names, _⟩ := (effect_bind_ok answer).mp first
    intro other member
    rcases List.mem_cons.mp member with rfl | member
    · exact Option.isSome_of_eq_some (identityOf_ok names).1
    · exact ih other member

theorem adds_uses {cidr : String} (comes : cidr ∈ cidrs) : ∃ service ∈ services,
    Uses answer settings listed (made answer state (Pass.addServices settings listed config? services)) service cidr := by
  induction adds with
  | nil => cases comes
  | @cons _ _ _ _ _ service _ _ _ first _ ih =>
    rw [made_addServices_cons first]
    rcases List.mem_append.mp comes with here | there
    · refine ⟨service, List.mem_cons_self .., (addService_uses first (Option.mem_toList.mp here)).mono ?_⟩
      exact fun _ => List.mem_append_left _
    · obtain ⟨other, member, uses⟩ := ih there
      exact ⟨other, List.mem_cons_of_mem _ member, uses.mono fun _ => List.mem_append_right _⟩

theorem adds_created {reservation : Reservation}
    (created : Created answer (made answer state (Pass.addServices settings listed config? services)) reservation) :
    reservation.cidr ∈ cidrs := by
  induction adds with
  | nil =>
    obtain ⟨_, _, _, member, _⟩ := created
    cases member
  | cons first _ ih =>
    obtain ⟨before, project, request, member, answered⟩ := created
    rw [made_addServices_cons first] at member
    rcases List.mem_append.mp member with here | there
    · rw [addService_created first ⟨before, project, request, here, answered⟩]
      exact List.mem_cons_self ..
    · exact List.mem_append_right _ (ih ⟨before, project, request, there, answered⟩)

theorem adds_has {calls : List (σ × Call)} (only : ∀ reservation, Created answer calls reservation →
      Created answer (made answer state (Pass.addServices settings listed config? services)) reservation)
    {service : Service} (member : service ∈ services) {cidr : String} (uses : Uses answer settings listed calls service cidr) :
    cidr ∈ cidrs := by
  cases uses with
  | assigned known assigned =>
    refine adds_comesTo adds member known ?_
    rw [comesTo, assigned]
  | reserved known unassigned goes =>
    cases goes with
    | owned found =>
      refine adds_comesTo adds member known ?_
      rw [comesTo, unassigned, found]
      rfl
    | made unowned asked answered =>
      -- Of calls at large it is not known for whom they were made, so these have to be among the pass's own.
      exact adds_created adds (only _ ⟨_, _, _, asked, answered⟩)

/-- The addresses that come back are those that the services use. -/
theorem adds_exactly {calls : List (σ × Call)}
    (within : ∀ entry ∈ made answer state (Pass.addServices settings listed config? services), entry ∈ calls)
    (only : ∀ reservation, Created answer calls reservation →
      Created answer (made answer state (Pass.addServices settings listed config? services)) reservation) (cidr : String) :
    cidr ∈ cidrs ↔ ∃ service ∈ services, Uses answer settings listed calls service cidr := by
  constructor
  · intro comes
    obtain ⟨service, member, uses⟩ := adds_uses adds comes
    exact ⟨service, member, uses.mono within⟩
  · rintro ⟨service, member, uses⟩
    exact adds_has adds only member uses

end

end PeerPool.Proofs.AddressSources
