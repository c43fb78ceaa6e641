import PeerPool.Proofs.Interleavings

/-! What a loop does while nobody else does anything. A pass then comes to what it comes to by
itself, and a resync comes as far as its second pass. From runs of this kind a whole run is put
together in which loops overtake each other. -/

namespace PeerPool.Proofs.LoneRuns
open PassLogic Agent Cluster Interleavings

variable {σ : Type} {answer : Answers σ} {drifts : σ → σ → Prop} {settings : Settings} {machine : Machine settings σ} {who : Party}

def calling (who : Party) (entry : σ × Call) : Deed σ := ⟨who, entry.1, .called entry.2⟩

def passDeeds (answer : Answers σ) (who : Party) (state : σ) (pass : Pass Unit) : List (Deed σ) :=
  ⟨who, state, .acquired⟩ :: ((made answer state pass).map (calling who) ++ [⟨who, (effect answer state pass).2, .released⟩])

theorem performs_pass (answer : Answers σ) {who : Party} {waiting : List (Deed σ)} (idle : ∀ deed ∈ waiting, deed.who ≠ who)
    (request : Agent.Request) (reply : Agent.Reply request) (heard begun : σ) (before : List (Deed σ)) (pass : Pass Unit) :
    Performs who request reply begun ((made answer begun pass).map (calling who)) (effect answer begun pass).2
      (before ++ (⟨who, heard, .heard request reply⟩ :: (waiting ++ passDeeds answer who begun pass))) := by
  refine .intro before waiting idle ?_
  intro deed member _ released
  obtain ⟨entry, _, rfl⟩ := List.mem_map.mp member
  cases released

/-- One loop can go on to this by itself, and the lock is free when it is there. -/
def Reaches (answer : Answers σ) (drifts : σ → σ → Prop) (machine : Machine settings σ) (who : Party) (trace : List (Deed σ))
    (next : Program Agent.Reply (loopOf settings who).State) (state : σ) : Prop :=
  ∃ after, Steps answer drifts machine trace after ∧ after.rest who = next ∧
    (∀ other, other ≠ who → after.rest other = machine.rest other) ∧ after.state = state ∧ after.holder = none

namespace Reaches

variable {first second : List (Deed σ)} {next last : Program Agent.Reply (loopOf settings who).State} {state final : σ}

theorem trans (earlier : Reaches answer drifts machine who first next state)
    (later : ∀ between : Machine settings σ, between.rest who = next → between.state = state → between.holder = none →
      Reaches answer drifts between who second last final) : Reaches answer drifts machine who (first ++ second) last final := by
  obtain ⟨between, steps, own, others, here, free⟩ := earlier
  obtain ⟨after, more, goes, alone, ends, unheld⟩ := later between own here free
  exact ⟨after, steps.trans more, goes, fun other differs => (alone other differs).trans (others other differs), ends, unheld⟩

theorem of_turn {deed? : Option (Deed σ)} (turn : Turn answer who machine deed? (machine.goes who next)) (free : machine.holder = none) :
    Reaches answer drifts machine who deed?.toList next machine.state := by
  refine ⟨machine.goes who next, ?_, Machine.goes_self .., fun _ differs => Machine.goes_other _ _ _ differs, rfl, free⟩
  cases deed? with
  | none => exact .silent (.turn turn) (.refl _)
  | some deed => exact .seen (.turn turn) (.refl _)

end Reaches

variable (answer drifts) in
theorem held_runs {program : Program Call.Answer Unit} {next : Unit → Program Agent.Reply (loopOf settings who).State}
    (same : machine.rest who = holding program next) :
    ∃ after, Steps answer drifts machine ((calls answer machine.state program).map (calling who)) after ∧
      after.rest who = .ask .release next ∧ (∀ other, other ≠ who → after.rest other = machine.rest other) ∧
      after.state = (program.trace answer machine.state).state := by
  induction program generalizing machine with
  | done value => exact ⟨machine, .refl machine, same, fun _ _ => rfl, rfl⟩
  | say level text rest ih =>
    obtain ⟨after, steps, own, others, state⟩ := ih (Machine.goes_self machine who (holding rest next))
    refine ⟨after, .silent (.turn (.say same)) steps, own, ?_, state⟩
    exact fun other differs => (others other differs).trans (Machine.goes_other _ _ _ differs)
  | ask call rest ih =>
    have called : ({ machine.goes who (holding (rest (answer machine.state call).1) next) with
        state := (answer machine.state call).2 } : Machine settings σ).rest who = _ := Machine.goes_self ..
    obtain ⟨after, steps, own, others, state⟩ := ih _ called
    refine ⟨after, .seen (.turn (.call same)) steps, own, ?_, state⟩
    exact fun other differs => (others other differs).trans (Machine.goes_other _ _ _ differs)

variable (answer drifts) in
/-- A pass that finds the lock free comes to what it comes to by itself. -/
theorem pass_runs {failure : PassError → String} {pass : Pass Unit} {next : Unit → Program Agent.Reply (loopOf settings who).State}
    (same : machine.rest who = runPass failure pass >>= next) (free : machine.holder = none) :
    Reaches answer drifts machine who (passDeeds answer who machine.state pass) (next ()) (effect answer machine.state pass).2 := by
  have begins : ({ machine.goes who (holding (reported failure pass) next) with holder := some who } : Machine settings σ).rest who = _ :=
    Machine.goes_self ..
  obtain ⟨last, runs, own, others, state⟩ := held_runs answer drifts begins
  obtain ⟨leaves, asks⟩ := trace_reported answer failure pass machine.state
  replace state : last.state = (effect answer machine.state pass).2 := state.trans leaves
  have acquires := same.trans (runPass_eq failure pass next)
  have releases : Steps answer drifts last [⟨who, last.state, .released⟩] { last.goes who (next ()) with holder := none } :=
    .seen (.turn (.release own)) (.refl _)
  rw [state] at releases
  change Steps _ _ _ (List.map _ (calls answer machine.state (reported failure pass))) last at runs
  rw [asks] at runs
  refine ⟨_, .seen (.turn (.acquire acquires free)) (runs.trans releases), Machine.goes_self .., ?_, state, rfl⟩
  intro other differs
  exact (Machine.goes_other _ _ _ differs).trans ((others other differs).trans (Machine.goes_other _ _ _ differs))

theorem hears {request : Agent.Request} {next : Agent.Reply request → Program Agent.Reply (loopOf settings who).State}
    (same : machine.rest who = .ask request next) (news : isNews request = true) (reply : Agent.Reply request)
    (free : machine.holder = none) :
    Reaches answer drifts machine who [⟨who, machine.state, .heard request reply⟩] (next reply) machine.state :=
  .of_turn (.hear reply same news) free

theorem begins_again {state : (loopOf settings who).State} (same : machine.rest who = .done state) (free : machine.holder = none) :
    Reaches answer drifts machine who [] ((loopOf settings who).round state) machine.state := .of_turn (.again same) free

theorem logs {level : Level} {text : String} {next : Program Agent.Reply (loopOf settings who).State}
    (same : machine.rest who = .say level text next) (free : machine.holder = none) :
    Reaches answer drifts machine who [] next machine.state := .of_turn (.say same) free

variable (answer settings) in
/-- What is seen of a resync up to the listing of the services. -/
def listingDeeds (state : σ) (nodes : List Node) (services : List Service) : List (Deed σ) :=
  ⟨.resync, state, .heard .tick ()⟩ :: ⟨.resync, state, .heard .listNodes (.ok nodes)⟩ ::
    (passDeeds answer .resync state (Pass.nodes settings .sync nodes) ++
      [⟨.resync, (effect answer state (Pass.nodes settings .sync nodes)).2, .heard .listServices (.ok services)⟩])

variable (answer drifts settings) in
/-- Of a resync that is alone, the pass over the services is what remains once they are listed. -/
theorem resync_lists (state : σ) (nodes : List Node) (services : List Service) :
    Reaches answer drifts (Machine.start settings state) .resync (listingDeeds answer settings state nodes services)
      (runServices settings .sync services >>= fun _ => ask .tick) (effect answer state (Pass.nodes settings .sync nodes)).2 := by
  have ticks : (Machine.start settings state).rest .resync = .ask .tick .done := rfl
  refine (hears ticks rfl () rfl).trans fun ticked ends here free => ?_
  subst here
  refine (begins_again ends free).trans fun round goes same free => ?_
  rw [← same]
  refine (logs goes free).trans fun asking asks same free => ?_
  rw [← same]
  refine (hears asks rfl (.ok nodes) free).trans fun listed runs same free => ?_
  rw [← same]
  have order := bind_assoc (runNodes settings .sync nodes) (fun _ => resyncServices settings) fun _ => ask .tick
  refine (pass_runs answer drifts (runs.trans order) free).trans fun passed asks same free => ?_
  rw [← same]
  exact hears asks rfl (.ok services) free

variable (answer settings) in
def addingDeeds (state : σ) (service : Service) : List (Deed σ) :=
  ⟨.services, state, .heard .serviceEvent (.applied service)⟩ ::
    passDeeds answer .services state (Pass.services settings .add [service])

variable (answer drifts) in
theorem service_adds (same : machine.rest .services = .done ()) (free : machine.holder = none) (service : Service) :
    Reaches answer drifts machine .services (addingDeeds answer settings machine.state service) (.done ())
      (effect answer machine.state (Pass.services settings .add [service])).2 := by
  refine (begins_again same free).trans fun asking asks here free => ?_
  rw [← here]
  refine (hears asks rfl (.applied service) free).trans fun heard runs here free => ?_
  rw [← here]
  have ends := runs.trans (bind_pure (runServices settings .add [service])).symm
  exact pass_runs answer drifts ends free

/-- A service may be added between the listing of a resync and its pass, after the world has drifted. -/
theorem addition_overtakes (nodes : List Node) (batch : List Service) (service : Service) {state changed : σ}
    (drifted : drifts (effect answer state (Pass.nodes settings .sync nodes)).2 changed) :
    ∃ last, Steps answer drifts (Machine.start settings state)
      ((listingDeeds answer settings state nodes batch ++ addingDeeds answer settings changed service) ++
        passDeeds answer .resync (effect answer changed (Pass.services settings .add [service])).2
          (Pass.services settings .sync batch)) last := by
  obtain ⟨listed, lists, waits, others, same, free⟩ := resync_lists answer drifts settings state nodes batch
  let changes : Machine settings σ := { listed with state := changed }
  have drift : Step answer drifts listed none changes := .drift (same ▸ drifted)
  have idle : changes.rest .services = .done () := others .services (by decide)
  obtain ⟨added, adds, _, others, same, free⟩ := service_adds answer drifts idle free service
  obtain ⟨last, syncs, _⟩ := pass_runs answer drifts ((others .resync (by decide)).trans waits) free
  rw [same] at syncs
  exact ⟨last, (lists.trans (.silent drift adds)).trans syncs⟩

theorem adding_performs (answer : Answers σ) (settings : Settings) (before : List (Deed σ)) (state : σ) (service : Service) :
    Performs .services .serviceEvent (.applied service) state
      ((made answer state (Pass.services settings .add [service])).map (calling .services))
      (effect answer state (Pass.services settings .add [service])).2 (before ++ addingDeeds answer settings state service) :=
  performs_pass answer (List.forall_mem_nil _) .serviceEvent (.applied service) state state before _

theorem sync_performs (answer : Answers σ) (settings : Settings) (state begun : σ) (nodes : List Node) (services : List Service)
    {waiting : List (Deed σ)} (idle : ∀ deed ∈ waiting, deed.who ≠ .resync) :
    Performs .resync .listServices (.ok services) begun
      ((made answer begun (Pass.services settings .sync services)).map (calling .resync))
      (effect answer begun (Pass.services settings .sync services)).2
      ((listingDeeds answer settings state nodes services ++ waiting) ++
        passDeeds answer .resync begun (Pass.services settings .sync services)) := by
  have performs := performs_pass answer idle .listServices (.ok services) (effect answer state (Pass.nodes settings .sync nodes)).2 begun
    (⟨.resync, state, .heard .tick ()⟩ :: ⟨.resync, state, .heard .listNodes (.ok nodes)⟩ ::
      passDeeds answer .resync state (Pass.nodes settings .sync nodes)) (Pass.services settings .sync services)
  simpa only [listingDeeds, List.cons_append, List.append_assoc, List.nil_append] using performs

end PeerPool.Proofs.LoneRuns
