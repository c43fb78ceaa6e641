import PeerPool.Proofs.PassServices

/-! Which kinds of calls a pass makes, whatever world it runs in. What no call of these
kinds changes is the same after the pass as before. -/

namespace PeerPool.Proofs.PassCalls
open PassLogic PassServices Provider Cluster

inductive Kind where
  | load
  | patch
  | resolve
  | list
  | create
  | delete
  | get
  | update
deriving DecidableEq, Repr

def kind : Call → Kind
  | .loadDocument _ => .load
  | .patchDocument _ _ => .patch
  | .resolvePeers _ => .resolve
  | .listReservations _ => .list
  | .createReservation _ _ => .create
  | .deleteReservation _ => .delete
  | .getService _ _ => .get
  | .updateService _ => .update

variable {σ α β : Type} {kinds : List Kind}

/-- A program makes calls of these kinds only. -/
def Asks (kinds : List Kind) : Program Call.Answer α → Prop
  | .done _ => True
  | .say _ _ rest => Asks kinds rest
  | .ask call rest => kind call ∈ kinds ∧ ∀ reply, Asks kinds (rest reply)

theorem Asks.bind {program : Program Call.Answer α} {next : α → Program Call.Answer β} (first : Asks kinds program)
    (later : ∀ value, Asks kinds (next value)) : Asks kinds (program.bind next) := by
  induction program with
  | done value => exact later value
  | say level text rest ih => exact ih first
  | ask call rest ih =>
    obtain ⟨member, first⟩ := first
    exact ⟨member, fun reply => ih reply (first reply)⟩

def Makes (kinds : List Kind) (pass : Pass α) : Prop := Asks kinds pass.run

namespace Makes

theorem pure (value : α) : Makes kinds (Pure.pure value : Pass α) := trivial

theorem throw (error : PassError) : Makes kinds (MonadExcept.throw error : Pass α) := trivial

theorem say (level : Level) (text : String) : Makes kinds (Pass.say level text) := trivial

theorem ask {call : Call} (member : kind call ∈ kinds) : Makes kinds (Pass.ask call) := ⟨member, fun _ => trivial⟩

theorem check {ε : Type} (wrap : ε → PassError) (result : Except ε α) : Makes kinds (Pass.check wrap result) := by
  cases result with
  | ok value => exact pure value
  | error error => exact throw (wrap error)

theorem bind {pass : Pass α} {next : α → Pass β} (first : Makes kinds pass) (later : ∀ value, Makes kinds (next value)) :
    Makes kinds (pass >>= next) := by
  rw [Makes, PassLogic.run_bind]
  apply Asks.bind first
  intro reply
  cases reply with
  | ok value => exact later value
  | error error => trivial

theorem map (f : α → β) {pass : Pass α} (makes : Makes kinds pass) : Makes kinds (f <$> pass) := by
  rw [map_eq_pure_bind]
  exact makes.bind fun value => pure (f value)

end Makes

/-- What holds before the pass and is kept by calls of its kinds holds throughout. -/
theorem Asks.throughout {answer : Answers σ} (holds : σ → Prop) {program : Program Call.Answer α} (asks : Asks kinds program)
    (keeps : ∀ state call, kind call ∈ kinds → holds state → holds (answer state call).2) {state : σ} (start : holds state) :
    (∀ before call, (before, call) ∈ calls answer state program → kind call ∈ kinds ∧ holds before) ∧
      holds (program.trace answer state).state := by
  induction program generalizing state with
  | done value => exact ⟨fun _ _ member => absurd member List.not_mem_nil, start⟩
  | say level text rest ih => exact ih asks start
  | ask call rest ih =>
    obtain ⟨known, asks⟩ := asks
    obtain ⟨later, last⟩ := ih _ (asks _) (keeps state call known start)
    refine ⟨?_, last⟩
    intro before other member
    rcases List.mem_cons.mp member with first | member
    · cases first
      exact ⟨known, start⟩
    · exact later before other member

section

variable {answer : Answers σ} (holds : σ → Prop) {program : Program Call.Answer α} {state : σ}
  (keeps : ∀ before call, (before, call) ∈ calls answer state program → holds before → holds (answer before call).2)
include keeps

/-- What holds at first and is kept by each of the calls holds throughout. -/
theorem calls_throughout (start : holds state) :
    (∀ before call, (before, call) ∈ calls answer state program → holds before) ∧ holds (program.trace answer state).state := by
  induction program generalizing state with
  | done value => exact ⟨fun _ _ member => absurd member List.not_mem_nil, start⟩
  | say level text rest ih => exact ih keeps start
  | ask call rest ih =>
    have first := keeps state call (List.mem_cons_self ..) start
    obtain ⟨later, last⟩ := ih _ (fun before other member => keeps before other (List.mem_cons_of_mem _ member)) first
    refine ⟨?_, last⟩
    intro before other member
    rcases List.mem_cons.mp member with here | there
    · cases here
      exact start
    · exact later before other there

/-- What one of the calls brings about and the others keep holds in the end. -/
theorem calls_since {before : σ} {call : Call} (member : (before, call) ∈ calls answer state program)
    (brings : holds (answer before call).2) : holds (program.trace answer state).state := by
  induction program generalizing state with
  | done value => cases member
  | say level text rest ih => exact ih keeps member
  | ask other rest ih =>
    have keeps (before : σ) (call : Call) (member : (before, call) ∈ calls answer (answer state other).2 (rest (answer state other).1)) :=
      keeps before call (List.mem_cons_of_mem _ member)
    rcases List.mem_cons.mp member with first | later
    · cases first
      exact (calls_throughout holds keeps brings).2
    · exact ih _ keeps later

end

theorem Makes.only {pass : Pass α} (makes : Makes kinds pass) {answer : Answers σ} {state before : σ} {call : Call}
    (member : (before, call) ∈ made answer state pass) : kind call ∈ kinds :=
  ((Asks.throughout (fun _ => True) makes (fun _ _ _ _ => trivial) trivial).1 before call member).1

theorem Makes.quiet {pass : Pass α} (makes : Makes [] pass) (answer : Answers σ) (state : σ) : made answer state pass = [] :=
  List.eq_nil_iff_forall_not_mem.mpr fun _ member => absurd (makes.only member) List.not_mem_nil

section

variable {answer : Answers σ} {pass : Pass α} {next : α → Pass β} {state before : σ} {call : Call}

theorem made_bind_cases (member : (before, call) ∈ made answer state (pass >>= next)) : (before, call) ∈ made answer state pass ∨
    ∃ value after, effect answer state pass = (.ok value, after) ∧ (before, call) ∈ made answer after (next value) := by
  rw [made_bind] at member
  rcases List.mem_append.mp member with first | later
  · exact .inl first
  · generalize effect answer state pass = result at later ⊢
    obtain ⟨error | value, after⟩ := result
    · cases later
    · exact .inr ⟨value, after, rfl, later⟩

/-- A call of a kind that the first part does not make is made by the second. -/
theorem Makes.behind (makes : Makes kinds pass) (other : kind call ∉ kinds) (member : (before, call) ∈ made answer state (pass >>= next)) :
    ∃ value after, effect answer state pass = (.ok value, after) ∧ (before, call) ∈ made answer after (next value) := by
  rcases made_bind_cases member with first | later
  · exact absurd (makes.only first) other
  · exact later

/-- A call of a kind that the second part does not make is made by the first. -/
theorem Makes.ahead (makes : ∀ value, Makes kinds (next value)) (other : kind call ∉ kinds)
    (member : (before, call) ∈ made answer state (pass >>= next)) : (before, call) ∈ made answer state pass := by
  rcases made_bind_cases member with first | ⟨value, _, _, later⟩
  · exact first
  · exact absurd ((makes value).only later) other

end

/-- The calls of one kind, each with the state before it. -/
def ofKind (wanted : Kind) (calls : List (σ × Call)) : List (σ × Call) := calls.filter (kind ·.2 = wanted)

theorem ofKind_append (wanted : Kind) (first second : List (σ × Call)) :
    ofKind wanted (first ++ second) = ofKind wanted first ++ ofKind wanted second := List.filter_append ..

theorem Makes.spares {pass : Pass α} (makes : Makes kinds pass) {wanted : Kind} (other : wanted ∉ kinds) (answer : Answers σ)
    (state : σ) : ofKind wanted (made answer state pass) = [] := by
  apply List.filter_eq_nil_iff.mpr
  rintro ⟨before, call⟩ member same
  exact other (of_decide_eq_true same ▸ makes.only member)

/-- A pass whose first part makes no calls of a kind makes those of its second part. -/
theorem Makes.ofKind_bind {pass : Pass α} (makes : Makes kinds pass) {wanted : Kind} (other : wanted ∉ kinds) (answer : Answers σ)
    (state : σ) (next : α → Pass β) :
    ofKind wanted (made answer state (pass >>= next)) =
      match effect answer state pass with
      | (.ok value, after) => ofKind wanted (made answer after (next value))
      | (.error _, _) => [] := by
  rw [made_bind, ofKind_append, makes.spares other, List.nil_append]
  generalize effect answer state pass = result
  obtain ⟨error | value, after⟩ := result <;> rfl

/-- A pass whose second part makes no calls of a kind makes those of its first part. -/
theorem Makes.ofKind_bind_left {next : α → Pass β} (makes : ∀ value, Makes kinds (next value)) {wanted : Kind}
    (other : wanted ∉ kinds) (answer : Answers σ) (state : σ) (pass : Pass α) :
    ofKind wanted (made answer state (pass >>= next)) = ofKind wanted (made answer state pass) := by
  rw [made_bind, ofKind_append]
  generalize effect answer state pass = result
  obtain ⟨error | value, after⟩ := result
  · exact List.append_nil _
  · rw [(makes value).spares other, List.append_nil]

section

variable {answer : Answers σ} {pass : Pass α} {state after : σ} {result : Except PassError α}
  (ran : effect answer state pass = (result, after)) (makes : Makes kinds pass)
include ran makes

theorem Makes.preserves (holds : σ → Prop)
    (keeps : ∀ state call, kind call ∈ kinds → holds state → holds (answer state call).2) (start : holds state) :
    holds after := by
  obtain ⟨_, last⟩ := Asks.throughout holds makes keeps start
  change holds (effect answer state pass).2 at last
  rwa [ran] at last

theorem Makes.since (holds : σ → Prop) (keeps : ∀ state call, kind call ∈ kinds → holds state → holds (answer state call).2)
    {before : σ} {call : Call} (member : (before, call) ∈ made answer state pass) (brings : holds (answer before call).2) :
    holds after := by
  have last : holds (effect answer state pass).2 :=
    calls_since holds (fun between other asked => keeps between other (makes.only asked)) member brings
  rwa [ran] at last

/-- A part of the state that none of the calls changes. -/
theorem Makes.frame {τ : Type} (part : σ → τ)
    (keeps : ∀ state call, kind call ∈ kinds → part (answer state call).2 = part state) : part after = part state := by
  apply Makes.preserves ran makes (part · = part state) _ rfl
  intro between call known same
  exact (keeps between call known).trans same

/-- A part of the state that only calls of a kind which the pass does not make change. -/
theorem Makes.frame_except {τ : Type} (part : σ → τ) {wanted : Kind} (other : wanted ∉ kinds)
    (keeps : ∀ state call, kind call ≠ wanted → part (answer state call).2 = part state) : part after = part state := by
  apply Makes.frame ran makes part
  intro between call known
  apply keeps
  intro same
  exact other (same ▸ known)

end

section

variable (settings : Settings)

theorem makes_load (load : .load ∈ kinds) (name : String) : Makes kinds (Pass.load name) :=
  .bind (.say _ _) fun _ => .bind (.ask load) fun _ => .bind (.check _ _) fun _ => .check _ _

theorem makes_save (patch : .patch ∈ kinds) (name : String) (config : Config) : Makes kinds (Pass.save name config) :=
  .bind (.say _ _) fun _ => .bind (.say _ _) fun _ => .bind (.ask patch) fun _ => .check _ _

theorem makes_saveIfChanged (patch : .patch ∈ kinds) (loaded config : Option Config) :
    Makes kinds (Pass.saveIfChanged settings loaded config) := by
  unfold Pass.saveIfChanged
  split
  · split
    · exact .say _ _
    · exact makes_save patch _ _
  · exact .pure ()

theorem makes_listReservations (list : .list ∈ kinds) : Makes kinds (Pass.listReservations settings) :=
  .bind (.ask list) fun _ => .check _ _

theorem makes_identityOf (service : Service) : Makes kinds (Pass.identityOf service) := by
  unfold Pass.identityOf
  cases service.identity? with
  | none => exact .throw _
  | some identity => exact .pure identity

theorem makes_reserve (create : .create ∈ kinds) (identity : Identity) : Makes kinds (Pass.reserve settings identity) := by
  unfold Pass.reserve
  refine .bind (.say _ _) fun _ => .bind (.ask create) fun reply => ?_
  cases reply with
  | ok reservation => exact .bind (.say _ _) fun _ => .pure _
  | error error => exact .bind (.say _ _) fun _ => .pure _

theorem makes_assign (get : .get ∈ kinds) (update : .update ∈ kinds) (identity : Identity) (address : Address) :
    Makes kinds (Pass.assign identity address) :=
  .bind (.ask get) fun _ => .bind (.check _ _) fun _ => .bind (.ask update) fun _ => .bind (.check _ _) fun _ => .say _ _

theorem makes_tellAddress (get : .get ∈ kinds) (update : .update ∈ kinds) (identity : Identity) (reservation? : Option Reservation) :
    Makes kinds (tellAddress identity reservation?) := by
  cases reservation? with
  | none => exact .pure none
  | some reservation => exact .bind (makes_assign get update identity reservation.address) fun _ => .pure _

theorem makes_reservationFor (create : .create ∈ kinds) (listed : List Reservation) (identity : Identity) :
    Makes kinds (reservationFor settings listed identity) := by
  unfold reservationFor
  cases Pass.owned? settings identity listed with
  | none => exact makes_reserve settings create identity
  | some reservation => exact .bind (.say _ _) fun _ => .pure _

theorem makes_addressOf (create : .create ∈ kinds) (get : .get ∈ kinds) (update : .update ∈ kinds)
    (listed : List Reservation) (service : Service) (identity : Identity) :
    Makes kinds (Pass.addressOf settings listed service identity) := by
  rw [addressOf_eq]
  cases service.assignedAddress? with
  | some address => exact .bind (.say _ _) fun _ => .pure _
  | none => exact .bind (makes_reservationFor settings create listed identity) fun _ => makes_tellAddress get update identity _

theorem makes_mapAddress (identity : Identity) (cidr : String) (config : Config) :
    Makes kinds (Pass.mapAddress identity cidr config) := by
  unfold Pass.mapAddress
  simp only
  split
  · exact .bind (.say _ _) fun _ => .pure _
  · exact .bind (.say _ _) fun _ => .pure _

theorem makes_mapGiven (identity : Identity) (cidr? : Option String) (config : Option Config) :
    Makes kinds (mapGiven identity cidr? config) := by
  unfold mapGiven
  split
  · exact .bind (makes_mapAddress identity _ _) fun _ => .pure _
  · exact .pure _

theorem makes_addService (create : .create ∈ kinds) (get : .get ∈ kinds) (update : .update ∈ kinds)
    (listed : List Reservation) (config : Option Config) (service : Service) :
    Makes kinds (Pass.addService settings listed config service) := by
  rw [addService_eq]
  refine .bind (makes_identityOf service) fun identity => ?_
  exact .bind (makes_addressOf settings create get update listed service identity) fun _ => makes_mapGiven identity _ config

theorem makes_addServices (create : .create ∈ kinds) (get : .get ∈ kinds) (update : .update ∈ kinds)
    (listed : List Reservation) (config : Option Config) (services : List Service) :
    Makes kinds (Pass.addServices settings listed config services) := by
  induction services generalizing config with
  | nil => exact .pure _
  | cons service rest ih =>
    exact .bind (makes_addService settings create get update listed config service) fun added =>
      .bind (ih added.config) fun _ => .pure _

theorem makes_removeServices (delete : .delete ∈ kinds) (listed : List Reservation) (config : Option Config)
    (services : List Service) : Makes kinds (Pass.removeServices settings listed config services) := by
  induction services generalizing config with
  | nil => exact .pure config
  | cons service rest ih =>
    rw [Pass.removeServices]
    refine .bind (makes_identityOf service) fun identity => ?_
    split
    · exact .bind (.say _ _) fun _ => ih config
    · refine .bind (.ask delete) fun reply => ?_
      cases reply with
      | ok _ => exact .bind (.say _ _) fun _ => ih _
      | error error => exact .bind (.say _ _) fun _ => ih config

theorem makes_unmapStale (valid : List String) (config : Config) (addresses : List String) :
    Makes kinds (Pass.unmapStale valid config addresses) := by
  induction addresses generalizing config with
  | nil => exact .pure config
  | cons address rest ih =>
    rw [Pass.unmapStale]
    split
    · exact ih config
    · exact .bind (.say _ _) fun _ => ih _

theorem makes_withoutStale (valid : List String) (config : Option Config) : Makes kinds (withoutStale valid config) := by
  unfold withoutStale
  cases config with
  | none => exact .pure none
  | some config => exact .map some (makes_unmapStale valid config config.poolAddresses)

theorem makes_deleteOrphans (delete : .delete ∈ kinds) (orphans : List Reservation) :
    Makes kinds (Pass.deleteOrphans orphans) := by
  induction orphans with
  | nil => exact .pure ()
  | cons orphan rest ih =>
    rw [Pass.deleteOrphans]
    refine .bind (.ask delete) fun reply => ?_
    cases reply with
    | ok _ => exact .bind (.say _ _) fun _ => ih
    | error error => exact .bind (.say _ _) fun _ => ih

theorem makes_loadGiven (load : .load ∈ kinds) : Makes kinds (loadGiven settings) := by
  unfold loadGiven
  cases settings.location with
  | none => exact .pure none
  | some location => exact .map some (makes_load load location.name)

theorem makes_cleanUp (list : .list ∈ kinds) (patch : .patch ∈ kinds) (delete : .delete ∈ kinds) (loaded : Option Config)
    (services : List Service) (added : List String × Option Config) :
    Makes kinds (cleanUp settings loaded services added) := by
  refine .bind (makes_listReservations settings list) fun current => .bind (.say _ _) fun _ => .bind (.say _ _) fun _ => ?_
  refine .bind (makes_withoutStale _ _) fun config => ?_
  exact .bind (makes_saveIfChanged settings patch loaded config) fun _ => makes_deleteOrphans delete _

end

end PeerPool.Proofs.PassCalls
