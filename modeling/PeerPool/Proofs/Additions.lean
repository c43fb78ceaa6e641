import PeerPool.Proofs.InPlaceEdits
import PeerPool.Proofs.StaleCopies
import PeerPool.Proofs.Unmapping

/-! All that becomes of a service that is added, whatever the calls for it are answered with: which
calls are made and what they carry, what comes back, and what is different in the configuration
afterwards. Each way that it can go is told once, and the rest is read off. -/

namespace PeerPool.Proofs.Additions
open PassLogic PassServices PassCalls PassPools PoolEdits InPlaceEdits AddressSources CanonicalAddresses Sites Provider Cluster

variable {σ : Type} {answer : Answers σ} {settings : Settings} {listed : List Reservation} {identity : Identity}

/-- A service whose reservation is at hand is told the address of that one. -/
theorem course_owned {service : Service} {state after : σ} {calls : List (σ × Call)} {result : Except PassError (Option String)}
    (course : Course answer settings listed identity service state calls result after) (unassigned : service.assignedAddress? = none)
    {reservation : Reservation} (owned : Pass.owned? settings identity listed = some reservation) :
    ∃ reply, Telling answer identity reservation.address state calls reply after ∧
      result = (reply.mapError .serviceStore).map fun _ => some reservation.cidr := by
  cases course with
  | known assigned => cases unassigned.symm.trans assigned
  | refused _ unowned _ => cases owned.symm.trans unowned
  | found _ finds telling =>
    cases finds with
    | owned same =>
      cases owned.symm.trans same
      exact ⟨_, telling, rfl⟩
    | made unowned _ => cases owned.symm.trans unowned

/-- Calls of a kind are made once if the condition holds, and else never. -/
structure OnceIff (wanted : Kind) (calls : List (σ × Call)) (condition : Prop) : Prop where
  once : condition → (ofKind wanted calls).length = 1
  never : ¬ condition → ofKind wanted calls = []

section

variable {wanted : Kind} {calls : List (σ × Call)} {condition : Prop}

theorem OnceIff.of_holds (holds : condition) (once : (ofKind wanted calls).length = 1) : OnceIff wanted calls condition :=
  ⟨fun _ => once, fun fails => absurd holds fails⟩

theorem OnceIff.of_fails (fails : ¬ condition) (never : ofKind wanted calls = []) : OnceIff wanted calls condition :=
  ⟨fun holds => absurd holds fails, fun _ => never⟩

end

/-- A reservation has the tag of the service and that of the agent. -/
def Carries (settings : Settings) (identity : Identity) (reservation : Reservation) : Prop :=
  identity.tag ∈ reservation.tags ∧ settings.providerTag ∈ reservation.tags

theorem owned_none : Pass.owned? settings identity listed = none ↔
    ∀ reservation ∈ listed, ¬ Carries settings identity reservation := by
  simp [Pass.owned?, findByAllTags?, Reservation.hasAllTags, Carries]

/-- What the calls carry. The service that is written is the one just read, with another address. -/
inductive Carried (answer : Answers σ) (settings : Settings) (listed : List Reservation) (identity : Identity)
    (calls : List (σ × Call)) : σ → Call → Prop where
  | creation {before : σ} : Carried answer settings listed identity calls before (creation settings identity)
  | reading {before : σ} : Carried answer settings listed identity calls before (reading identity)
  | update {reservation : Reservation} {latest : Service} {asked before : σ} : GoesBy answer settings listed calls identity reservation →
      (asked, AddressSources.reading identity) ∈ calls → answer asked (AddressSources.reading identity) = (.ok latest, before) →
      Carried answer settings listed identity calls before (.updateService { latest with
        spec := some { latest.spec.getD {} with loadBalancerAddress := some reservation.address.write } })

/-- Which calls are made for a service, in which order, and what they carry. -/
structure Asked (answer : Answers σ) (settings : Settings) (listed : List Reservation) (service : Service) (identity : Identity)
    (calls : List (σ × Call)) : Prop where
  order : (calls.map (kind ·.2)).Sublist [.create, .get, .update]
  creates : OnceIff .create calls
    (service.assignedAddress? = none ∧ ∀ reservation ∈ listed, ¬ Carries settings identity reservation)
  gets : OnceIff .get calls
    (service.assignedAddress? = none ∧ ∃ reservation, GoesBy answer settings listed calls identity reservation)
  updates : OnceIff .update calls
    (service.assignedAddress? = none ∧ (∃ reservation, GoesBy answer settings listed calls identity reservation) ∧
      ∃ before latest, (before, reading identity) ∈ calls ∧ (answer before (reading identity)).1 = .ok latest)
  carries : ∀ entry ∈ calls, Carried answer settings listed identity calls entry.1 entry.2

section

variable {state after between : σ} {asked calls : List (σ × Call)} {reservation : Reservation} {service : Service}
  {result : Except PassError (Option String)}

theorem telling_carried {reply : Except StoreError Unit} (telling : Telling answer identity reservation.address state asked reply after)
    (goes : GoesBy answer settings listed calls identity reservation) (within : ∀ entry ∈ asked, entry ∈ calls) :
    ∀ entry ∈ asked, Carried answer settings listed identity calls entry.1 entry.2 := by
  have reads := within _ telling.reads
  cases telling with
  | unread => exact List.forall_mem_singleton.mpr .reading
  | read read _ => exact List.forall_mem_cons.mpr ⟨.reading, List.forall_mem_singleton.mpr (.update goes reads read)⟩

theorem course_asked (course : Course answer settings listed identity service state calls result after) :
    Asked answer settings listed service identity calls := by
  cases course with
  | known assigned =>
    have assigned : service.assignedAddress? ≠ none := by simp [assigned]
    exact ⟨List.nil_sublist _, .of_fails (assigned ·.1) rfl, .of_fails (assigned ·.1) rfl, .of_fails (assigned ·.1) rfl,
      fun _ member => absurd member List.not_mem_nil⟩
  | refused unassigned unowned refused =>
    -- The one reservation that it could have gone by was not made.
    have nothing : ¬ ∃ reservation, GoesBy answer settings listed [(state, creation settings identity)] identity reservation := by
      rintro ⟨reservation, owned | ⟨_, member, created⟩⟩
      · simp_all
      · cases List.mem_singleton.mp member
        rw [refused] at created
        cases created
    exact ⟨by simp [kind], .of_holds ⟨unassigned, owned_none.mp unowned⟩ rfl, .of_fails (nothing ·.2) rfl,
      .of_fails (nothing ·.2.1) rfl, List.forall_mem_singleton.mpr .creation⟩
  | @found asked told reservation between _ reply unassigned finds telling =>
    have goes : GoesBy answer settings listed (asked ++ told) identity reservation := finds.goesBy fun _ => List.mem_append_left _
    constructor
    case order => cases finds <;> cases telling <;> simp [kind]
    case creates =>
      cases finds with
      | owned owned =>
        refine .of_fails ?_ (by cases telling <;> rfl)
        rintro ⟨_, unowned⟩
        cases owned.symm.trans (owned_none.mpr unowned)
      | made unowned _ => exact .of_holds ⟨unassigned, owned_none.mp unowned⟩ (by cases telling <;> rfl)
    case gets => exact .of_holds ⟨unassigned, _, goes⟩ (by cases finds <;> cases telling <;> rfl)
    case updates =>
      have reads := List.mem_append_right asked telling.reads
      cases telling with
      | unread unread =>
        refine .of_fails ?_ (by cases finds <;> rfl)
        rintro ⟨_, _, before, latest, member, read⟩
        rcases List.mem_append.mp member with member | member
        · cases finds.creates _ member
        · cases List.mem_singleton.mp member
          rw [unread] at read
          cases read
      | read read _ => exact .of_holds ⟨unassigned, ⟨_, goes⟩, _, _, reads, congrArg Prod.fst read⟩ (by cases finds <;> rfl)
    case carries =>
      refine List.forall_mem_append.mpr ⟨?_, telling_carried telling goes fun _ => List.mem_append_right _⟩
      rintro ⟨_, call⟩ member
      cases finds.creates _ member
      exact .creation

end

/-- The address with its prefix length: that of the reservation which the service goes by, or the text
that the service has with the prefix length of its own reservation, if this is of the same address. -/
inductive Comes (answer : Answers σ) (settings : Settings) (listed : List Reservation) (service : Service) (identity : Identity)
    (calls : List (σ × Call)) : String → Prop where
  | reserved {reservation : Reservation} : service.assignedAddress? = none → GoesBy answer settings listed calls identity reservation →
      Comes answer settings listed service identity calls (prefixed reservation.address.write reservation.prefixLength)
  | assigned {text : String} {reservation : Reservation} : service.assignedAddress? = some text →
      Pass.owned? settings identity listed = some reservation → Address.read? text = some reservation.address →
      Comes answer settings listed service identity calls (prefixed text reservation.prefixLength)
  | foreign {text : String} : service.assignedAddress? = some text →
      (∀ reservation, Pass.owned? settings identity listed = some reservation → Address.read? text ≠ some reservation.address) →
      Comes answer settings listed service identity calls (prefixed text 32)

/-- One of the calls that tell the service its address was refused. -/
inductive Untold (answer : Answers σ) (identity : Identity) (calls : List (σ × Call)) (failure : StoreError) : Prop where
  | unread {before : σ} : (before, reading identity) ∈ calls → (answer before (reading identity)).1 = .error failure →
      Untold answer identity calls failure
  | unwritten {before : σ} {updated : Service} : (before, .updateService updated) ∈ calls →
      (answer before (.updateService updated)).1 = .error failure → Untold answer identity calls failure

structure Returned (answer : Answers σ) (settings : Settings) (listed : List Reservation) (service : Service) (identity : Identity)
    (calls : List (σ × Call)) (result : Except PassError (Option String)) : Prop where
  nothing : result = .ok none ↔ ∃ before failure, (before, creation settings identity) ∈ calls ∧
    (answer before (creation settings identity)).1 = .error failure
  fails : ∀ error, result = .error error ↔ ∃ failure, Untold answer identity calls failure ∧ error = .serviceStore failure
  comes : ∀ cidr, result = .ok (some cidr) → Comes answer settings listed service identity calls cidr

section

variable {state after between : σ} {asked told calls : List (σ × Call)} {reservation : Reservation} {service : Service}
  {result : Except PassError (Option String)}

theorem knownCidr_foreign {text : String} (foreign : Address.read? text ≠ some reservation.address) :
    knownCidr (some reservation) text = prefixed text 32 := by
  have none : Pass.matching? text (some reservation) = none := by simp [Pass.matching?, foreign]
  rw [knownCidr, none]
  rfl

theorem knownCidr_comes {text : String} (assigned : service.assignedAddress? = some text) :
    Comes answer settings listed service identity calls (knownCidr (Pass.owned? settings identity listed) text) := by
  cases owned : Pass.owned? settings identity listed with
  | none => exact .foreign assigned fun _ some => absurd (owned.symm.trans some) nofun
  | some reservation =>
    by_cases denotes : Address.read? text = some reservation.address
    · rw [Unmapping.knownCidr_denotes denotes]
      exact .assigned assigned owned denotes
    · rw [knownCidr_foreign denotes]
      refine .foreign assigned fun other same => ?_
      cases owned.symm.trans same
      exact denotes

theorem untold_append (creates : ∀ entry ∈ asked, entry.2 = creation settings identity) {failure : StoreError} :
    Untold answer identity (asked ++ told) failure ↔ Untold answer identity told failure := by
  constructor
  · rintro (⟨member, refused⟩ | ⟨member, refused⟩)
    · rcases List.mem_append.mp member with member | member
      · cases creates _ member
      · exact .unread member refused
    · rcases List.mem_append.mp member with member | member
      · cases creates _ member
      · exact .unwritten member refused
  · rintro (⟨member, refused⟩ | ⟨member, refused⟩)
    · exact .unread (List.mem_append_right _ member) refused
    · exact .unwritten (List.mem_append_right _ member) refused

theorem telling_fails {address : Address} {reply : Except StoreError Unit}
    (telling : Telling answer identity address state told reply after) {failure : StoreError} :
    reply = .error failure ↔ Untold answer identity told failure := by
  cases telling with
  | unread unread =>
    constructor
    · rintro ⟨⟩
      exact .unread (List.mem_singleton_self _) (congrArg Prod.fst unread)
    · rintro (⟨member, refused⟩ | ⟨member, _⟩)
      · cases List.mem_singleton.mp member
        rw [unread] at refused
        cases refused
        rfl
      · cases List.mem_singleton.mp member
  | read read written =>
    constructor
    · rintro rfl
      exact .unwritten (List.mem_cons_of_mem _ (List.mem_singleton_self _)) (congrArg Prod.fst written)
    · rintro (⟨member, refused⟩ | ⟨member, refused⟩)
      · rcases List.mem_cons.mp member with first | second
        · cases first
          rw [read] at refused
          cases refused
        · cases List.mem_singleton.mp second
      · rcases List.mem_cons.mp member with first | second
        · cases first
        · cases List.mem_singleton.mp second
          rw [written] at refused
          exact refused

theorem course_returned (course : Course answer settings listed identity service state calls result after) :
    Returned answer settings listed service identity calls result := by
  cases course with
  | known assigned =>
    refine ⟨by simp, ?_, ?_⟩
    · intro error
      refine ⟨nofun, ?_⟩
      rintro ⟨_, ⟨member, _⟩ | ⟨member, _⟩, _⟩ <;> cases member
    · rintro _ ⟨⟩
      exact knownCidr_comes assigned
  | refused unassigned unowned refused =>
    refine ⟨?_, ?_, nofun⟩
    · exact ⟨fun _ => ⟨_, _, List.mem_singleton_self _, congrArg Prod.fst refused⟩, fun _ => rfl⟩
    · intro error
      refine ⟨nofun, ?_⟩
      rintro ⟨_, ⟨member, _⟩ | ⟨member, _⟩, _⟩ <;> cases List.mem_singleton.mp member
  | @found asked told reservation between _ reply unassigned finds telling =>
    have fails (error : PassError) : ((reply.mapError .serviceStore).map fun _ => some reservation.cidr) = .error error ↔
        ∃ failure, reply = .error failure ∧ error = .serviceStore failure := by
      cases reply <;> simp [Except.mapError, Except.map, eq_comm]
    refine ⟨?_, ?_, ?_⟩
    · constructor
      · cases reply <;> nofun
      · rintro ⟨before, failure, member, refused⟩
        rcases List.mem_append.mp member with member | member
        · cases finds with
          | owned => cases member
          | made _ created =>
            cases List.mem_singleton.mp member
            rw [created] at refused
            cases refused
        · cases telling <;> simp at member
    · intro error
      rw [fails]
      simp only [untold_append finds.creates, telling_fails telling]
    · intro cidr same
      have reserved := Comes.reserved unassigned (finds.goesBy fun _ => List.mem_append_left told)
      cases reply <;> cases same
      exact reserved

end

/-- What becomes of the configuration: what comes back is mapped on top of what was, in the pool of the
service, unless it was mapped already. -/
structure Extended (identity : Identity) (result : Except PassError (Option String)) (before? after? : Option Config) : Prop where
  unchanged : (∀ cidr, result ≠ .ok (some cidr)) → after? = before?
  absent : before? = none → after? = none
  maps : ∀ cidr before, result = .ok (some cidr) → before? = some before → ∃ after, after? = some after ∧
    cidr ∈ after.poolAddresses ∧ SameBesidesPools before after ∧ (cidr ∈ before.poolAddresses → after = before) ∧
      (cidr ∉ before.poolAddresses → Merged (Pass.poolOf identity cidr) before.pools after.pools)

theorem extended_error (identity : Identity) (error : PassError) (config? : Option Config) :
    Extended identity (.error error) config? config? := ⟨fun _ => rfl, id, nofun⟩

theorem extended_mapped (identity : Identity) (cidr? : Option String) (config? : Option Config) :
    Extended identity (.ok cidr?) config? (mapped identity cidr? config?) := by
  constructor
  case unchanged =>
    intro none
    cases cidr? with
    | none => rfl
    | some cidr => exact absurd rfl (none cidr)
  case absent =>
    rintro rfl
    cases cidr? <;> rfl
  case maps =>
    rintro cidr before ⟨⟩ rfl
    refine ⟨_, rfl, (mem_addPool before cidr (Pass.poolOf identity cidr) rfl).mpr (.inl rfl), addPool_same before _, ?_, ?_⟩
    · exact fun known => addPool_mapped before known _ rfl
    · intro new
      rw [addPool_unmapped before new _ rfl]
      exact mergePool_merged _ _

structure Addition (answer : Answers σ) (settings : Settings) (listed : List Reservation) (service : Service) (identity : Identity)
    (calls : List (σ × Call)) (result : Except PassError (Option String)) (before? after? : Option Config) : Prop where
  asked : Asked answer settings listed service identity calls
  returned : Returned answer settings listed service identity calls result
  extended : Extended identity result before? after?

theorem addition_exact (answer : Answers σ) (settings : Settings) (listed : List Reservation) (config? : Option Config) {service : Service}
    (known : service.identity? = some identity) (state : σ) : ∃ result after? ending,
      (addInPlace settings listed service).outcome answer state config? = ((result, after?), ending) ∧
      effect answer state (Pass.addService settings listed config? service) = (handedOn (result, after?), ending) ∧
      Addition answer settings listed service identity (made answer state (Pass.addService settings listed config? service))
        result config? after? := by
  have course := addressOf_course answer settings listed identity service state
  rw [effect_addInPlace, made_addService known, outcome_addInPlace answer state config? known]
  generalize effect answer state (Pass.addressOf settings listed service identity) = found at course
  obtain ⟨error | cidr?, ending⟩ := found
  · exact ⟨_, _, _, rfl, rfl, course_asked course, course_returned course, extended_error identity error config?⟩
  · exact ⟨_, _, _, rfl, rfl, course_asked course, course_returned course, extended_mapped identity cidr? config?⟩

/-- A service that is stored, for which nothing is reserved and nothing is mapped. -/
def waiting : Site where
  services := [web]
  keys := keys_single web

theorem addition_exact_web : web.identity? = some ⟨"shop", "web"⟩ ∧ ∃ result after? ending,
    (addInPlace plain [] web).outcome (Site.answer counted) waiting (some {}) = ((result, after?), ending) ∧
    effect (Site.answer counted) waiting (Pass.addService plain [] (some {}) web) = (handedOn (result, after?), ending) ∧
    Addition (Site.answer counted) plain [] web ⟨"shop", "web"⟩
      (made (Site.answer counted) waiting (Pass.addService plain [] (some {}) web)) result (some {}) after? :=
  ⟨rfl, addition_exact (Site.answer counted) plain [] (some {}) rfl waiting⟩

end PeerPool.Proofs.Additions
