import Mathlib.Logic.Function.Basic
import PeerPool.Agent.Loops
import PeerPool.Proofs.PassCalls

/-! The loops of the agent side by side. At every moment any loop may go on that does not wait
for the lock while another holds it, and the world may change by itself. A loop makes calls only
while it holds the lock, so the calls of a pass have none of another pass among them: between
its first call and its last, a pass sees nothing but its own doing and what the world does. -/

namespace PeerPool.Proofs.Interleavings
open PassLogic Agent Cluster

inductive Party where
  | nodes
  | services
  | resync
deriving DecidableEq, Repr

def loopOf (settings : Settings) : Party → Loop
  | .nodes => nodeLoop settings
  | .services => serviceLoop settings
  | .resync => resyncLoop settings

theorem loops_eq (settings : Settings) : loops settings = [.nodes, .services, .resync].map (loopOf settings) := rfl

/-- What a loop is seen to do. -/
inductive Act where
  | heard (request : Agent.Request) (reply : Agent.Reply request)
  | called (call : Call)
  | acquired
  | released

/-- What a loop did, and the state of the world when it did it. -/
structure Deed (σ : Type) where
  who : Party
  state : σ
  act : Act

/-- The world, who holds the lock, and what each loop has still to do. -/
structure Machine (settings : Settings) (σ : Type) where
  state : σ
  holder : Option Party
  rest : (who : Party) → Program Agent.Reply (loopOf settings who).State

variable {σ : Type} {settings : Settings}

namespace Machine

def start (settings : Settings) (state : σ) : Machine settings σ := ⟨state, none, fun who => (loopOf settings who).start⟩

def goes (machine : Machine settings σ) (who : Party) (next : Program Agent.Reply (loopOf settings who).State) :
    Machine settings σ := { machine with rest := Function.update machine.rest who next }

variable (machine : Machine settings σ) (who : Party) (next : Program Agent.Reply (loopOf settings who).State)

@[simp] theorem goes_self : (machine.goes who next).rest who = next := Function.update_self ..

@[simp] theorem goes_other {other : Party} (differs : other ≠ who) : (machine.goes who next).rest other = machine.rest other :=
  Function.update_of_ne differs ..

end Machine

/-- What a loop waits for that is neither the answer to a call nor the lock. -/
def isNews : Agent.Request → Bool
  | .nodeEvent | .serviceEvent | .listNodes | .listServices | .tick | .sleep _ => true
  | .call _ | .acquire | .release => false

/-- A loop does what comes next for it, and this may be seen. -/
inductive Turn (answer : Answers σ) (who : Party) (machine : Machine settings σ) : Option (Deed σ) → Machine settings σ → Prop where
  | say {level : Level} {text : String} {next : Program Agent.Reply (loopOf settings who).State} :
      machine.rest who = .say level text next → Turn answer who machine none (machine.goes who next)
  | again {state : (loopOf settings who).State} :
      machine.rest who = .done state → Turn answer who machine none (machine.goes who ((loopOf settings who).round state))
  /-- News is as of now, however long it takes the loop to go on with it. -/
  | hear {request : Agent.Request} {next : Agent.Reply request → Program Agent.Reply (loopOf settings who).State}
      (reply : Agent.Reply request) :
      machine.rest who = .ask request next → isNews request = true →
      Turn answer who machine (some ⟨who, machine.state, .heard request reply⟩) (machine.goes who (next reply))
  | call {call : Call} {next : call.Answer → Program Agent.Reply (loopOf settings who).State} :
      machine.rest who = .ask (.call call) next →
      Turn answer who machine (some ⟨who, machine.state, .called call⟩)
        { machine.goes who (next (answer machine.state call).1) with state := (answer machine.state call).2 }
  | acquire {next : Unit → Program Agent.Reply (loopOf settings who).State} :
      machine.rest who = .ask .acquire next → machine.holder = none →
      Turn answer who machine (some ⟨who, machine.state, .acquired⟩) { machine.goes who (next ()) with holder := some who }
  | release {next : Unit → Program Agent.Reply (loopOf settings who).State} :
      machine.rest who = .ask .release next →
      Turn answer who machine (some ⟨who, machine.state, .released⟩) { machine.goes who (next ()) with holder := none }

/-- A loop takes its turn, or the world changes without the agent. -/
inductive Step (answer : Answers σ) (drifts : σ → σ → Prop) (machine : Machine settings σ) :
    Option (Deed σ) → Machine settings σ → Prop where
  | turn {who : Party} {deed? : Option (Deed σ)} {after : Machine settings σ} :
      Turn answer who machine deed? after → Step answer drifts machine deed? after
  | drift {state : σ} : drifts machine.state state → Step answer drifts machine none { machine with state := state }

inductive Steps (answer : Answers σ) (drifts : σ → σ → Prop) :
    Machine settings σ → List (Deed σ) → Machine settings σ → Prop where
  | refl (machine : Machine settings σ) : Steps answer drifts machine [] machine
  | silent {first second last : Machine settings σ} {trace : List (Deed σ)} :
      Step answer drifts first none second → Steps answer drifts second trace last → Steps answer drifts first trace last
  | seen {first second last : Machine settings σ} {deed : Deed σ} {trace : List (Deed σ)} :
      Step answer drifts first (some deed) second → Steps answer drifts second trace last →
      Steps answer drifts first (deed :: trace) last

variable {answer : Answers σ} {drifts : σ → σ → Prop}

namespace Steps

variable {first second last : Machine settings σ} {earlier later : List (Deed σ)}

theorem trans (before : Steps answer drifts first earlier second) (after : Steps answer drifts second later last) :
    Steps answer drifts first (earlier ++ later) last := by
  induction before with
  | refl => exact after
  | silent next _ ih => exact .silent next (ih after)
  | seen next _ ih => exact .seen next (ih after)

theorem split (steps : Steps answer drifts first (earlier ++ later) last) :
    ∃ between, Steps answer drifts first earlier between ∧ Steps answer drifts between later last := by
  generalize whole : earlier ++ later = trace at steps
  induction steps generalizing earlier with
  | refl machine =>
    obtain ⟨rfl, rfl⟩ := List.append_eq_nil_iff.mp whole
    exact ⟨machine, .refl machine, .refl machine⟩
  | silent next _ ih =>
    obtain ⟨between, before, after⟩ := ih whole
    exact ⟨between, .silent next before, after⟩
  | @seen first _ _ _ _ next steps ih =>
    cases earlier with
    | nil =>
      cases whole
      exact ⟨first, .refl first, .seen next steps⟩
    | cons deed earlier =>
      obtain ⟨same, remaining⟩ := List.cons.inj whole
      subst same
      obtain ⟨between, before, after⟩ := ih remaining
      exact ⟨between, .seen next before, after⟩

theorem first_seen {deed : Deed σ} (steps : Steps answer drifts first (deed :: later) last) :
    ∃ before after, Steps answer drifts first [] before ∧ Step answer drifts before (some deed) after ∧
      Steps answer drifts after later last := by
  generalize whole : deed :: later = trace at steps
  induction steps with
  | refl => cases whole
  | silent next _ ih =>
    obtain ⟨before, after, earlier, here, later⟩ := ih whole
    exact ⟨before, after, .silent next earlier, here, later⟩
  | @seen first second _ _ _ next steps _ =>
    cases whole
    exact ⟨first, second, .refl first, next, steps⟩

end Steps

/-- The pass that news calls for, if any. -/
def calledFor (settings : Settings) : (request : Agent.Request) → Agent.Reply request → Option (Pass Unit)
  | .nodeEvent, .applied node => some (Pass.nodes settings .add [node])
  | .nodeEvent, .deleted node => some (Pass.nodes settings .remove [node])
  | .nodeEvent, .restarted nodes => some (Pass.nodes settings .sync nodes)
  | .serviceEvent, .applied service => some (Pass.services settings .add [service])
  | .serviceEvent, .deleted service => some (Pass.services settings .remove [service])
  | .serviceEvent, .restarted services => some (Pass.services settings .sync services)
  | .listNodes, .ok nodes => some (Pass.nodes settings .sync nodes)
  | .listServices, .ok services => some (Pass.services settings .sync services)
  | _, _ => none

/-- A loop outside its passes. Of the latest news it may run the pass that is called for, once,
before it asks for more. -/
inductive Outside (settings : Settings) {α : Type} : Option (Pass Unit) → Program Agent.Reply α → Prop where
  | done {due : Option (Pass Unit)} (value : α) : Outside settings due (.done value)
  | say {due : Option (Pass Unit)} {level : Level} {text : String} {next : Program Agent.Reply α} :
      Outside settings due next → Outside settings due (.say level text next)
  | hear {due : Option (Pass Unit)} {request : Agent.Request} {next : Agent.Reply request → Program Agent.Reply α} :
      isNews request = true → (∀ reply, Outside settings (calledFor settings request reply) (next reply)) →
      Outside settings due (.ask request next)
  | runs {pass : Pass Unit} {program : Program Agent.Reply α} (failure : PassError → String) (next : Unit → Program Agent.Reply α) :
      program = runPass failure pass >>= next → Outside settings none (next ()) → Outside settings (some pass) program

theorem Outside.heard {due : Option (Pass Unit)} {α : Type} {request : Agent.Request} {next : Agent.Reply request → Program Agent.Reply α}
    (outside : Outside settings due (.ask request next)) (news : isNews request = true) (reply : Agent.Reply request) :
    Outside settings (calledFor settings request reply) (next reply) := by
  cases outside with
  | hear _ later => exact later reply
  | runs failure later same _ =>
    cases same
    cases news

theorem outside_nodes (peered : PeeredNodes) (due : Option (Pass Unit)) :
    Outside settings due ((nodeLoop settings).round peered) := by
  refine .hear rfl fun event => ?_
  cases event with
  | applied node =>
    change Outside settings _ (onNodeEvent settings peered (.applied node))
    simp only [onNodeEvent]
    split
    · exact .runs _ _ rfl (.done _)
    · exact .done _
  | deleted node => exact .runs _ _ rfl (.done _)
  | restarted nodes => exact .say (.runs _ _ rfl (.done _))
  | failed code => exact .say (.hear rfl fun _ => .done _)

theorem outside_services (due : Option (Pass Unit)) : Outside settings due ((serviceLoop settings).round ()) := by
  refine .hear rfl fun event => ?_
  cases event with
  | applied service => exact .runs _ .done (bind_pure _).symm (.done _)
  | deleted service => exact .runs _ .done (bind_pure _).symm (.done _)
  | restarted services => exact .say (.runs _ .done (bind_pure _).symm (.done _))
  | failed code => exact .say (.hear rfl fun _ => .done _)

/-- What a resync does once it is done with the nodes. -/
def resyncServices (settings : Settings) : Program Agent.Reply Unit := do
  match ← ask .listServices with
  | .ok services => runServices settings .sync services
  | .error code => Program.log .warn s!"Couldn't list services for resync! Status {code}"

theorem outside_resync (due : Option (Pass Unit)) : Outside settings due ((resyncLoop settings).round ()) := by
  have ticks : Outside settings none (ask .tick) := .hear rfl fun _ => .done _
  have services (due : Option (Pass Unit)) : Outside settings due (resyncServices settings >>= fun _ => ask .tick) := by
    refine .hear rfl fun listed => ?_
    cases listed with
    | ok services => exact .runs _ _ rfl ticks
    | error code => exact .say ticks
  refine .say (.hear rfl fun listed => ?_)
  cases listed with
  | ok nodes =>
    have order := bind_assoc (runNodes settings .sync nodes) (fun _ => resyncServices settings) fun _ => ask .tick
    exact .runs _ (fun _ => resyncServices settings >>= fun _ => ask .tick) order (services none)
  | error code => exact .say (services none)

theorem outside_round (who : Party) (state : (loopOf settings who).State) (due : Option (Pass Unit)) :
    Outside settings due ((loopOf settings who).round state) := by
  cases who with
  | nodes => exact outside_nodes state due
  | services => exact outside_services due
  | resync => exact outside_resync due

theorem outside_start (who : Party) : Outside settings none (loopOf settings who).start := by
  cases who with
  | nodes => exact .done _
  | services => exact .done _
  | resync => exact .hear rfl fun _ => .done _

theorem expand_bind {α β : Type} {Request Request' : Type} {Reply : Request → Type} {Reply' : Request' → Type}
    (handle : (request : Request) → Program Reply' (Reply request)) (next : α → Program Reply β) (program : Program Reply α) :
    (program.bind next).expand handle = (program.expand handle).bind fun value => (next value).expand handle := by
  induction program with
  | done value => rfl
  | say level text rest ih => exact congrArg (Program.say level text) ih
  | ask request rest ih =>
    simp only [Program.bind, Program.expand, ih, Program.bind_bind]

/-- What a pass that fails leaves in the log. -/
def complaint (failure : PassError → String) : Except PassError Unit → Program Call.Answer Unit
  | .ok _ => .done ()
  | .error error => .say .warn (failure error) (.done ())

def reported (failure : PassError → String) (pass : Pass Unit) : Program Call.Answer Unit := pass.run.bind (complaint failure)

/-- What a loop has to do while it holds the lock: the rest of its pass, and then to release it. -/
def holding {α : Type} (program : Program Call.Answer Unit) (next : Unit → Program Agent.Reply α) : Program Agent.Reply α :=
  (program.expand fun call => ask (.call call)).bind fun _ => .ask .release next

theorem runPass_eq {α : Type} (failure : PassError → String) (pass : Pass Unit) (next : Unit → Program Agent.Reply α) :
    runPass failure pass >>= next = .ask .acquire fun _ => holding (reported failure pass) next := by
  have body : runPass failure pass >>= next = .ask .acquire fun _ =>
      ((pass.run.expand fun call => ask (.call call)).bind fun
        | .ok _ => ask .release
        | .error error => .say .warn (failure error) (ask .release)).bind next := rfl
  rw [body]
  congr 1
  funext _
  rw [holding, reported, expand_bind, Program.bind_bind, Program.bind_bind]
  congr 1
  funext result
  cases result <;> rfl

section

variable {machine after : Machine settings σ} {who : Party} {deed? : Option (Deed σ)}

theorem Turn.others (turn : Turn answer who machine deed? after) {other : Party} (differs : other ≠ who) :
    after.rest other = machine.rest other := by
  cases turn <;> exact Machine.goes_other _ _ _ differs

theorem Turn.own (turn : Turn answer who machine deed? after) : ∀ deed ∈ deed?, deed.who = who := by
  cases turn <;> simp

/-- What a loop may do that is not in a pass: go on, hear some news, or begin the pass that is due. -/
theorem Outside.turn {due : Option (Pass Unit)} (outside : Outside settings due (machine.rest who))
    (turn : Turn answer who machine deed? after) :
    (deed? = none ∧ after.state = machine.state ∧ after.holder = machine.holder ∧ Outside settings due (after.rest who)) ∨
    (∃ request reply, deed? = some ⟨who, machine.state, .heard request reply⟩ ∧ after.state = machine.state ∧
      after.holder = machine.holder ∧ Outside settings (calledFor settings request reply) (after.rest who)) ∨
    ∃ failure pass next, deed? = some ⟨who, machine.state, .acquired⟩ ∧ due = some pass ∧ after.state = machine.state ∧
      machine.holder = none ∧ after.holder = some who ∧ after.rest who = holding (reported failure pass) next ∧
      Outside settings none (next ()) := by
  cases turn with
  | @say _ _ next found =>
    rw [found] at outside
    refine .inl ⟨rfl, rfl, rfl, ?_⟩
    rw [Machine.goes_self]
    cases outside with
    | say later => exact later
    | runs failure later same _ => cases same.trans (runPass_eq ..)
  | @again state found =>
    refine .inl ⟨rfl, rfl, rfl, ?_⟩
    rw [Machine.goes_self]
    exact outside_round who state due
  | @hear request next reply found news =>
    rw [found] at outside
    refine .inr (.inl ⟨request, reply, rfl, rfl, rfl, ?_⟩)
    rw [Machine.goes_self]
    exact outside.heard news reply
  | @call call next found =>
    rw [found] at outside
    cases outside with
    | hear news _ => cases news
    | runs failure later same _ => cases same.trans (runPass_eq ..)
  | @acquire next found free =>
    rw [found] at outside
    cases outside with
    | hear news _ => cases news
    | runs failure later same ends =>
      cases same.trans (runPass_eq ..)
      exact .inr (.inr ⟨failure, _, later, rfl, rfl, rfl, free, rfl, Machine.goes_self .., ends⟩)
  | @release next found =>
    rw [found] at outside
    cases outside with
    | hear news _ => cases news
    | runs failure later same _ => cases same.trans (runPass_eq ..)

/-- What a loop may do that holds the lock: go on with its pass, or release the lock if that is over. -/
theorem Turn.held {program : Program Call.Answer Unit} {next : Unit → Program Agent.Reply (loopOf settings who).State}
    (same : machine.rest who = holding program next) (turn : Turn answer who machine deed? after) :
    (∃ level text rest, program = .say level text rest ∧ deed? = none ∧ after.state = machine.state ∧
      after.holder = machine.holder ∧ after.rest who = holding rest next) ∨
    (∃ call rest, program = .ask call rest ∧ deed? = some ⟨who, machine.state, .called call⟩ ∧
      after.state = (answer machine.state call).2 ∧ after.holder = machine.holder ∧
      after.rest who = holding (rest (answer machine.state call).1) next) ∨
    program = .done () ∧ deed? = some ⟨who, machine.state, .released⟩ ∧ after.state = machine.state ∧
      after.holder = none ∧ after.rest who = next () := by
  cases program with
  | done value =>
    cases turn with
    | release found =>
      cases found.symm.trans same
      exact .inr (.inr ⟨rfl, rfl, rfl, rfl, Machine.goes_self ..⟩)
    | hear reply found news =>
      cases found.symm.trans same
      cases news
    | say found | again found | call found | acquire found => cases found.symm.trans same
  | say level text rest =>
    cases turn with
    | say found =>
      cases found.symm.trans same
      exact .inl ⟨level, text, rest, rfl, rfl, rfl, rfl, Machine.goes_self ..⟩
    | again found | hear _ found | call found | acquire found | release found => cases found.symm.trans same
  | ask call rest =>
    cases turn with
    | call found =>
      cases found.symm.trans same
      exact .inr (.inl ⟨call, rest, rfl, rfl, rfl, rfl, Machine.goes_self ..⟩)
    | hear reply found news =>
      cases found.symm.trans same
      cases news
    | say found | again found | acquire found | release found => cases found.symm.trans same

end

/-- A loop is in a pass if it holds the lock, and only then. -/
structure Placed (machine : Machine settings σ) (who : Party) : Prop where
  outside : machine.holder ≠ some who → ∃ due, Outside settings due (machine.rest who)
  inside : machine.holder = some who →
    ∃ program next, machine.rest who = holding program next ∧ Outside settings none (next ())

def Orderly (machine : Machine settings σ) : Prop := ∀ who, Placed machine who

theorem orderly_start (state : σ) : Orderly (Machine.start settings state) := fun who =>
  ⟨fun _ => ⟨none, outside_start who⟩, fun held => by cases held⟩

section

variable {machine after : Machine settings σ} {who : Party} {deed? : Option (Deed σ)}

theorem Placed.turn (placed : Placed machine who) (turn : Turn answer who machine deed? after) :
    Placed after who ∧ ∀ other, other ≠ who → (after.holder = some other ↔ machine.holder = some other) := by
  by_cases holds : machine.holder = some who
  · obtain ⟨program, next, same, ends⟩ := placed.inside holds
    have stays (rest : Program Call.Answer Unit) (keeps : after.holder = machine.holder) (goes : after.rest who = holding rest next) :
        Placed after who ∧ ∀ other, other ≠ who → (after.holder = some other ↔ machine.holder = some other) :=
      ⟨⟨fun free => absurd (keeps.trans holds) free, fun _ => ⟨rest, next, goes, ends⟩⟩, fun other _ => by rw [keeps]⟩
    obtain ⟨_, _, rest, _, _, _, keeps, goes⟩ | ⟨call, rest, _, _, _, keeps, goes⟩ | ⟨_, _, _, frees, goes⟩ := turn.held same
    · exact stays rest keeps goes
    · exact stays _ keeps goes
    · refine ⟨⟨fun _ => ⟨none, goes ▸ ends⟩, fun held => ?_⟩, fun other differs => ?_⟩
      · rw [frees] at held
        cases held
      · simp [frees, holds, Ne.symm differs]
  · obtain ⟨due, outside⟩ := placed.outside holds
    have stays (due : Option (Pass Unit)) (keeps : after.holder = machine.holder) (goes : Outside settings due (after.rest who)) :
        Placed after who ∧ ∀ other, other ≠ who → (after.holder = some other ↔ machine.holder = some other) :=
      ⟨⟨fun _ => ⟨due, goes⟩, fun held => absurd (keeps ▸ held) holds⟩, fun other _ => by rw [keeps]⟩
    obtain ⟨_, _, keeps, goes⟩ | ⟨request, reply, _, _, keeps, goes⟩ | ⟨failure, pass, next, _, _, _, free, holds, goes, ends⟩ :=
      outside.turn turn
    · exact stays due keeps goes
    · exact stays _ keeps goes
    · refine ⟨⟨fun free => absurd holds free, fun _ => ⟨_, next, goes, ends⟩⟩, fun other differs => ?_⟩
      simp [free, holds, Ne.symm differs]

theorem Orderly.turn (orderly : Orderly machine) (turn : Turn answer who machine deed? after) : Orderly after := by
  obtain ⟨own, others⟩ := (orderly who).turn turn
  intro other
  by_cases same : other = who
  · exact same ▸ own
  · have holder := others other same
    have rest := turn.others same
    constructor
    · intro free
      obtain ⟨due, outside⟩ := (orderly other).outside fun held => free (holder.mpr held)
      exact ⟨due, rest ▸ outside⟩
    · intro held
      obtain ⟨program, next, goes, ends⟩ := (orderly other).inside (holder.mp held)
      exact ⟨program, next, rest.trans goes, ends⟩

theorem Orderly.step (orderly : Orderly machine) (step : Step answer drifts machine deed? after) : Orderly after := by
  cases step with
  | turn turn => exact orderly.turn turn
  | drift _ => exact fun who => ⟨(orderly who).outside, (orderly who).inside⟩

theorem Orderly.steps {trace : List (Deed σ)} (orderly : Orderly machine) (steps : Steps answer drifts machine trace after) :
    Orderly after := by
  induction steps with
  | refl => exact orderly
  | silent next _ ih => exact ih (orderly.step next)
  | seen next _ ih => exact ih (orderly.step next)

end

def callsOf (trace : List (Deed σ)) : List (σ × Call) :=
  trace.filterMap fun deed =>
    match deed.act with
    | .called call => some (deed.state, call)
    | _ => none

/-- A program runs while nobody but the world interferes: the calls that it makes, what it comes to,
and the state it leaves. -/
inductive Comes (answer : Answers σ) (drifts : σ → σ → Prop) {α : Type} :
    σ → Program Call.Answer α → List (σ × Call) → α → σ → Prop where
  | done (state : σ) (value : α) : Comes answer drifts state (.done value) [] value state
  | say {state after : σ} {level : Level} {text : String} {rest : Program Call.Answer α} {calls : List (σ × Call)} {value : α} :
      Comes answer drifts state rest calls value after → Comes answer drifts state (.say level text rest) calls value after
  | ask {state after : σ} {call : Call} {rest : call.Answer → Program Call.Answer α} {calls : List (σ × Call)} {value : α} :
      Comes answer drifts (answer state call).2 (rest (answer state call).1) calls value after →
      Comes answer drifts state (.ask call rest) ((state, call) :: calls) value after
  | drift {state between after : σ} {program : Program Call.Answer α} {calls : List (σ × Call)} {value : α} :
      drifts state between → Comes answer drifts between program calls value after →
      Comes answer drifts state program calls value after

theorem callsOf_append (first second : List (Deed σ)) : callsOf (first ++ second) = callsOf first ++ callsOf second :=
  List.filterMap_append

section

variable {machine after last : Machine settings σ} {who : Party} {deed? : Option (Deed σ)} {trace : List (Deed σ)}

theorem Outside.idles {due : Option (Pass Unit)} (outside : Outside settings due (machine.rest who))
    (step : Step answer drifts machine deed? after) (orderly : Orderly machine) (free : machine.holder ≠ some who)
    (idle : ∀ deed ∈ deed?, deed.who ≠ who) : Outside settings due (after.rest who) ∧ after.holder ≠ some who := by
  cases step with
  | drift _ => exact ⟨outside, free⟩
  | @turn other _ _ turn =>
    by_cases same : other = who
    · subst same
      obtain ⟨_, _, keeps, goes⟩ | ⟨request, reply, seen, _⟩ | ⟨failure, pass, next, seen, _⟩ := outside.turn turn
      · exact ⟨goes, keeps ▸ free⟩
      · exact absurd rfl (idle _ seen)
      · exact absurd rfl (idle _ seen)
    · have differs := Ne.symm same
      rw [turn.others differs]
      exact ⟨outside, mt (((orderly other).turn turn).2 who differs).mp free⟩

theorem Outside.waits {due : Option (Pass Unit)} (steps : Steps answer drifts machine trace last) (orderly : Orderly machine)
    (outside : Outside settings due (machine.rest who)) (free : machine.holder ≠ some who)
    (idle : ∀ deed ∈ trace, deed.who ≠ who) : Outside settings due (last.rest who) ∧ last.holder ≠ some who := by
  induction steps with
  | refl => exact ⟨outside, free⟩
  | silent next _ ih =>
    obtain ⟨still, free⟩ := outside.idles next orderly free (by simp)
    exact ih (orderly.step next) still free idle
  | seen next _ ih =>
    obtain ⟨still, free⟩ := outside.idles next orderly free (by simpa using idle _ (List.mem_cons_self ..))
    exact ih (orderly.step next) still free fun deed member => idle deed (List.mem_cons_of_mem _ member)

/-- While a loop holds the lock, no calls are made but those of its pass. -/
theorem Orderly.advances {program : Program Call.Answer Unit} {next : Unit → Program Agent.Reply (loopOf settings who).State}
    (orderly : Orderly machine) (step : Step answer drifts machine deed? after) (holds : machine.holder = some who)
    (same : machine.rest who = holding program next) (busy : ∀ deed ∈ deed?, deed.who = who → deed.act ≠ .released) :
    ∃ rest, after.holder = some who ∧ after.rest who = holding rest next ∧
      ∀ calls value state, Comes answer drifts after.state rest calls value state →
        Comes answer drifts machine.state program (callsOf deed?.toList ++ calls) value state := by
  cases step with
  | drift drifted => exact ⟨program, holds, same, fun calls value state comes => .drift drifted comes⟩
  | @turn other _ _ turn =>
    by_cases own : other = who
    · subst own
      obtain ⟨level, text, rest, rfl, rfl, stays, keeps, goes⟩ | ⟨call, rest, rfl, rfl, answers, keeps, goes⟩ | ⟨_, released, _⟩ :=
        turn.held same
      · exact ⟨rest, keeps.trans holds, goes, fun calls value state comes => .say (stays ▸ comes)⟩
      · exact ⟨_, keeps.trans holds, goes, fun calls value state comes => .ask (answers ▸ comes)⟩
      · exact absurd rfl (busy _ released rfl)
    -- A loop that does not hold the lock makes no calls, so the world is where it was.
    · have free : machine.holder ≠ some other := by
        rw [holds]
        exact fun equal => own (Option.some.inj equal).symm
      have holder := ((orderly other).turn turn).2 who (Ne.symm own)
      have rest := turn.others (Ne.symm own)
      obtain ⟨due, outside⟩ := (orderly other).outside free
      obtain ⟨rfl, stays, _⟩ | ⟨request, reply, rfl, stays, _⟩ | ⟨_, _, _, _, _, _, unheld, _⟩ := outside.turn turn
      · exact ⟨program, holder.mpr holds, rest.trans same, fun calls value state comes => stays ▸ comes⟩
      · exact ⟨program, holder.mpr holds, rest.trans same, fun calls value state comes => stays ▸ comes⟩
      · cases unheld.symm.trans holds

/-- Until a loop releases the lock, whatever is left of its pass has the calls of the trace before its own. -/
theorem Orderly.advances_steps {program : Program Call.Answer Unit} {next : Unit → Program Agent.Reply (loopOf settings who).State}
    (orderly : Orderly machine) (steps : Steps answer drifts machine trace last) (holds : machine.holder = some who)
    (same : machine.rest who = holding program next) (busy : ∀ deed ∈ trace, deed.who = who → deed.act ≠ .released) :
    ∃ rest, last.holder = some who ∧ last.rest who = holding rest next ∧
      ∀ calls value state, Comes answer drifts last.state rest calls value state →
        Comes answer drifts machine.state program (callsOf trace ++ calls) value state := by
  induction steps generalizing program with
  | refl => exact ⟨program, holds, same, fun _ _ _ comes => comes⟩
  | silent step _ ih =>
    obtain ⟨between, held, goes, comes⟩ := orderly.advances step holds same (by simp)
    obtain ⟨rest, still, left, later⟩ := ih (orderly.step step) held goes busy
    exact ⟨rest, still, left, fun calls value state ends => comes _ _ _ (later calls value state ends)⟩
  | @seen _ _ _ deed trace step _ ih =>
    obtain ⟨between, held, goes, comes⟩ := orderly.advances step holds same (by simpa using busy _ (List.mem_cons_self ..))
    obtain ⟨rest, still, left, later⟩ := ih (orderly.step step) held goes fun deed member => busy deed (List.mem_cons_of_mem _ member)
    refine ⟨rest, still, left, fun calls value state ends => ?_⟩
    have whole : callsOf (deed :: trace) = callsOf (some deed).toList ++ callsOf trace := callsOf_append [deed] trace
    rw [whole, List.append_assoc]
    exact comes _ _ _ (later calls value state ends)

theorem comes_to_release {program : Program Call.Answer Unit} {next later : Unit → Program Agent.Reply (loopOf settings who).State}
    (steps : Steps answer drifts machine trace last) (orderly : Orderly machine) (holds : machine.holder = some who)
    (same : machine.rest who = holding program next) (busy : ∀ deed ∈ trace, deed.who = who → deed.act ≠ .released)
    (ends : last.rest who = .ask .release later) :
    Comes answer drifts machine.state program (callsOf trace) () last.state := by
  obtain ⟨rest, _, left, comes⟩ := orderly.advances_steps steps holds same busy
  cases rest with
  | done value => exact List.append_nil (callsOf trace) ▸ comes [] () last.state (.done _ _)
  | say level text rest => cases left.symm.trans ends
  | ask call rest => cases left.symm.trans ends

end

section

variable {machine after : Machine settings σ} {who : Party} {state : σ}

theorem Step.own {act : Act} (step : Step answer drifts machine (some ⟨who, state, act⟩) after) :
    Turn answer who machine (some ⟨who, state, act⟩) after := by
  cases step with
  | @turn other _ _ turn =>
    have own : who = other := turn.own _ rfl
    exact own ▸ turn

theorem Orderly.hears (orderly : Orderly machine) {request : Agent.Request} {reply : Agent.Reply request}
    (step : Step answer drifts machine (some ⟨who, state, .heard request reply⟩) after) :
    after.holder ≠ some who ∧ Outside settings (calledFor settings request reply) (after.rest who) := by
  by_cases holds : machine.holder = some who
  · obtain ⟨program, next, same, _⟩ := (orderly who).inside holds
    obtain ⟨_, _, _, _, seen, _⟩ | ⟨_, _, _, seen, _⟩ | ⟨_, seen, _⟩ := step.own.held same <;> cases seen
  · obtain ⟨due, outside⟩ := (orderly who).outside holds
    obtain ⟨seen, _⟩ | ⟨_, _, seen, _, keeps, goes⟩ | ⟨_, _, _, seen, _⟩ := outside.turn step.own
    · cases seen
    · cases seen
      exact ⟨keeps ▸ holds, goes⟩
    · cases seen

theorem Outside.begins {due : Option (Pass Unit)} (outside : Outside settings due (machine.rest who))
    (step : Step answer drifts machine (some ⟨who, state, .acquired⟩) after) :
    ∃ failure pass next, due = some pass ∧ after.state = state ∧ after.holder = some who ∧
      after.rest who = holding (reported failure pass) next := by
  obtain ⟨seen, _⟩ | ⟨_, _, seen, _⟩ | ⟨failure, pass, next, seen, called, stays, _, holds, goes, _⟩ := outside.turn step.own
  · cases seen
  · cases seen
  · cases seen
    exact ⟨failure, pass, next, called, stays, holds, goes⟩

theorem Step.ends (step : Step answer drifts machine (some ⟨who, state, .released⟩) after) :
    machine.state = state ∧ ∃ later, machine.rest who = .ask .release later := by
  cases step.own with
  | release found => exact ⟨rfl, _, found⟩

end

/-- A loop hears news, waits its turn, and runs a pass, and with that the trace ends. -/
inductive Performs (who : Party) (request : Agent.Request) (reply : Agent.Reply request) (begun : σ) (during : List (Deed σ))
    (ended : σ) : List (Deed σ) → Prop where
  | intro {heard : σ} (before waiting : List (Deed σ)) : (∀ deed ∈ waiting, deed.who ≠ who) →
      (∀ deed ∈ during, deed.who = who → deed.act ≠ .released) →
      Performs who request reply begun during ended (before ++ (⟨who, heard, .heard request reply⟩ :: (waiting ++
        (⟨who, begun, .acquired⟩ :: (during ++ [⟨who, ended, .released⟩])))))

/-- The pass that a loop runs is the one that its news calls for, and it runs undisturbed. -/
theorem Performs.comes {who : Party} {request : Agent.Request} {reply : Agent.Reply request} {begun ended first : σ}
    {during trace : List (Deed σ)} {last : Machine settings σ} (performs : Performs who request reply begun during ended trace)
    (steps : Steps answer drifts (Machine.start settings first) trace last) :
    ∃ failure pass, calledFor settings request reply = some pass ∧
      Comes answer drifts begun (reported failure pass) (callsOf during) () ended := by
  -- The trace is cut wherever the loop itself is seen, and between the cuts it stays where it is.
  obtain ⟨before, waiting, idle, busy⟩ := performs
  obtain ⟨opened, opening, steps⟩ := steps.split
  obtain ⟨listening, informed, silent, hears, steps⟩ := steps.first_seen
  obtain ⟨queued, waits, steps⟩ := steps.split
  obtain ⟨ready, running, settles, begins, steps⟩ := steps.first_seen
  obtain ⟨worked, works, steps⟩ := steps.split
  obtain ⟨finished, freed, rests, releases, _⟩ := steps.first_seen
  have listening : Orderly listening := ((orderly_start first).steps opening).steps silent
  obtain ⟨free, outside⟩ := listening.hears hears
  have orderly := listening.step hears
  obtain ⟨outside, free⟩ := outside.waits (waits.trans settles) orderly free (by simpa using idle)
  have orderly := orderly.steps (waits.trans settles)
  obtain ⟨failure, pass, next, called, rfl, holds, goes⟩ := outside.begins begins
  obtain ⟨rfl, later, ends⟩ := releases.ends
  have comes := comes_to_release (works.trans rests) (orderly.step begins) holds goes (by simpa using busy) ends
  rw [List.append_nil] at comes
  exact ⟨failure, pass, called, comes⟩

theorem trace_reported (answer : Answers σ) (failure : PassError → String) (pass : Pass Unit) (state : σ) :
    ((reported failure pass).trace answer state).state = (effect answer state pass).2 ∧
      calls answer state (reported failure pass) = made answer state pass := by
  obtain ⟨_, last⟩ := Program.trace_bind answer (complaint failure) pass.run state
  rw [reported, last, calls_bind]
  cases (pass.run.trace answer state).value <;> exact ⟨rfl, List.append_nil _⟩

end PeerPool.Proofs.Interleavings
