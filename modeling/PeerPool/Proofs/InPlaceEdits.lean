import PeerPool.Proofs.PassPools

/-! Passes that edit a configuration in place. The passes over services hand theirs on, so there
is none to be had from one that gave up. To add a service in place does the same, and shows what
has become of the configuration by then. -/

namespace PeerPool.Proofs.InPlaceEdits
open PassLogic PassServices PassPools Provider Cluster

variable {σ α β : Type} {settings : Settings} {listed : List Reservation} {identity : Identity}

/-- A pass over a configuration that it edits in place. -/
abbrev Editing (α : Type) := ExceptT PassError (StateT (Option Config) (Program Call.Answer)) α

/-- A pass that leaves the configuration alone. -/
def Editing.apart (pass : Pass α) : Editing α := ExceptT.mk (StateT.lift pass.run)

def mapInPlace (identity : Identity) (cidr : String) : Editing Unit := do
  match ← get with
  | none => pure ()
  | some config => set (some (← Editing.apart (Pass.mapAddress identity cidr config)))

/-- Adds a service to a configuration in place, if there is one. -/
def addInPlace (settings : Settings) (listed : List Reservation) (service : Service) : Editing (Option String) := do
  let identity ← Editing.apart (Pass.identityOf service)
  match ← Editing.apart (Pass.addressOf settings listed service identity) with
  | none => return none
  | some cidr =>
    mapInPlace identity cidr
    return some cidr

/-- A configuration that was edited in place, handed on with the result. There is none to go with an error. -/
def handedOn : Except PassError (Option String) × Option Config → Except PassError Pass.Added
  | (.ok cidr?, config?) => .ok ⟨cidr?, config?⟩
  | (.error error, _) => .error error

theorem run_apart (pass : Pass α) (config? : Option Config) :
    (Editing.apart pass).run.run config? = (·, config?) <$> pass.run := by
  simp [Editing.apart, StateT.run_lift]

theorem run_mapInPlace (identity : Identity) (cidr : String) (config : Config) :
    (mapInPlace identity cidr).run.run (some config) = (Pass.mapAddress identity cidr config).run >>= fun
      | .ok final => pure (.ok (), some final)
      | .error error => pure (.error error, some config) := by
  change (Editing.apart (Pass.mapAddress identity cidr config) >>= fun final => set (some final)).run.run (some config) = _
  simp only [ExceptT.run_bind, StateT.run_bind, run_apart, bind_map_left]
  refine bind_congr fun final => ?_
  cases final <;> rfl

/-- To add a service to a configuration that is handed on is to add it in place: the two log, ask and
end in the same way. -/
theorem addService_inPlace (listed : List Reservation) (config? : Option Config) (service : Service) :
    (Pass.addService settings listed config? service).run = handedOn <$> (addInPlace settings listed service).run.run config? := by
  simp only [addService_eq, addInPlace, ExceptT.run_bind, StateT.run_bind, map_bind, run_apart, bind_map_left]
  refine bind_congr fun named => ?_
  cases named with
  | error error => rfl
  | ok identity =>
    simp only [StateT.run_bind, map_bind, run_apart, bind_map_left]
    refine bind_congr fun found => ?_
    obtain error | _ | cidr := found
    · rfl
    · rfl
    · cases config? with
      | none => rfl
      | some config =>
        simp only [mapGiven, ExceptT.run_bind, StateT.run_bind, map_bind, run_mapInPlace, bind_assoc]
        refine bind_congr fun final => ?_
        cases final <;> rfl

/-- What a program comes to, and the state in the end. -/
def ended (answer : Answers σ) (state : σ) (program : Program Call.Answer α) : α × σ :=
  ((program.trace answer state).value, (program.trace answer state).state)

/-- What comes back, with the configuration by then, and the state in the end. -/
def Editing.outcome (answer : Answers σ) (state : σ) (config? : Option Config) (pass : Editing α) :
    (Except PassError α × Option Config) × σ := ended answer state (pass.run.run config?)

section

variable (answer : Answers σ) (state : σ) (config? : Option Config)

theorem ended_bind (program : Program Call.Answer α) (next : α → Program Call.Answer β) : ended answer state (program >>= next) =
    ended answer (ended answer state program).2 (next (ended answer state program).1) := by
  obtain ⟨value, last⟩ := Program.trace_bind answer next program state
  exact Prod.ext value last

theorem outcome_bind (pass : Editing α) (next : α → Editing β) : (pass >>= next).outcome answer state config? =
    match pass.outcome answer state config? with
    | ((.ok value, between?), after) => (next value).outcome answer after between?
    | ((.error error, between?), after) => ((.error error, between?), after) := by
  have run : (pass >>= next).run.run config? = pass.run.run config? >>= fun
      | (.ok value, between?) => (next value).run.run between?
      | (.error error, between?) => pure (.error error, between?) := by
    rw [ExceptT.run_bind, StateT.run_bind]
    refine bind_congr fun reply => ?_
    obtain ⟨error | value, between?⟩ := reply <;> rfl
  rw [Editing.outcome, run, ended_bind, ← Editing.outcome]
  obtain ⟨⟨error | value, between?⟩, after⟩ := pass.outcome answer state config? <;> rfl

theorem outcome_apart (pass : Pass α) : (Editing.apart pass).outcome answer state config? =
    (((effect answer state pass).1, config?), (effect answer state pass).2) := by
  rw [Editing.outcome, run_apart, map_eq_pure_bind, ended_bind]
  rfl

theorem effect_addInPlace (settings : Settings) (listed : List Reservation) (service : Service) :
    effect answer state (Pass.addService settings listed config? service) =
      (handedOn ((addInPlace settings listed service).outcome answer state config?).1,
        ((addInPlace settings listed service).outcome answer state config?).2) := by
  change ended answer state (Pass.addService settings listed config? service).run = _
  rw [addService_inPlace, map_eq_pure_bind, ended_bind]
  rfl

theorem outcome_mapInPlace (identity : Identity) (cidr : String) : (mapInPlace identity cidr).outcome answer state config? =
    ((.ok (), mapped identity (some cidr) config?), state) := by
  cases config? with
  | none => rfl
  | some config =>
    have maps : ended answer state (Pass.mapAddress identity cidr config).run = _ := effect_mapAddress answer state identity cidr config
    rw [Editing.outcome, run_mapInPlace, ended_bind, maps]
    rfl

/-- A configuration that is edited in place has the address that comes back mapped, and is what it was if none does. -/
theorem outcome_addInPlace {service : Service} (known : service.identity? = some identity) :
    (addInPlace settings listed service).outcome answer state config? =
      match effect answer state (Pass.addressOf settings listed service identity) with
      | (.ok cidr?, after) => ((.ok cidr?, mapped identity cidr? config?), after)
      | (.error error, after) => ((.error error, config?), after) := by
  rw [addInPlace, outcome_bind, outcome_apart, identityOf_known known, effect_pure]
  simp only
  rw [outcome_bind, outcome_apart]
  generalize effect answer state (Pass.addressOf settings listed service identity) = found
  obtain ⟨error | _ | cidr, after⟩ := found
  · rfl
  · rfl
  · simp only
    rw [outcome_bind, outcome_mapInPlace]
    rfl

end

end PeerPool.Proofs.InPlaceEdits
