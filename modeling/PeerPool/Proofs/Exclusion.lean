import PeerPool.Proofs.DisturbedPasses

/-! The lock in what the loops are seen to do. It goes from hand to hand, and only its holder makes
calls; from the moment a loop has taken it, the calls are those of the pass that its latest news
has called for, as far as that pass has come. -/

namespace PeerPool.Proofs.Exclusion
open PassLogic Interleavings WrittenOnce DisturbedPasses

variable {σ : Type} {settings : Settings} {answer : Answers σ} {drifts : σ → σ → Prop}

section

variable {machine last : Machine settings σ} {earlier trace : List (Deed σ)}

/-- What each step carries on, along with what has been done so far, a whole run carries on. -/
theorem steps_carry {holds : List (Deed σ) → Machine settings σ → Prop}
    (keeps : ∀ {earlier machine deed? after}, Orderly machine → holds earlier machine → Step answer drifts machine deed? after →
      holds (earlier ++ deed?.toList) after)
    (orderly : Orderly machine) (start : holds earlier machine) (steps : Steps answer drifts machine trace last) :
    holds (earlier ++ trace) last := by
  induction steps generalizing earlier with
  | refl =>
    rw [List.append_nil]
    exact start
  | silent next _ ih =>
    have still := keeps orderly start next
    rw [Option.toList_none, List.append_nil] at still
    exact ih (orderly.step next) still
  | @seen _ _ _ deed trace next _ ih =>
    have later := ih (orderly.step next) (keeps orderly start next)
    rwa [Option.toList_some, List.append_assoc, List.singleton_append] at later

end

/-- Deeds that are done in turn, from one holder of the lock to another. -/
inductive InTurn : Option Party → List (Deed σ) → Option Party → Prop where
  | done (holder : Option Party) : InTurn holder [] holder
  | hears {holder last : Option Party} {who : Party} {state : σ} {request : Agent.Request} {reply : Agent.Reply request}
      {rest : List (Deed σ)} : InTurn holder rest last → InTurn holder (⟨who, state, .heard request reply⟩ :: rest) last
  | acquires {last : Option Party} {who : Party} {state : σ} {rest : List (Deed σ)} :
      InTurn (some who) rest last → InTurn none (⟨who, state, .acquired⟩ :: rest) last
  | calls {last : Option Party} {who : Party} {state : σ} {call : Call} {rest : List (Deed σ)} :
      InTurn (some who) rest last → InTurn (some who) (⟨who, state, .called call⟩ :: rest) last
  | releases {last : Option Party} {who : Party} {state : σ} {rest : List (Deed σ)} :
      InTurn none rest last → InTurn (some who) (⟨who, state, .released⟩ :: rest) last

/-- Nothing but the calls of one loop, and news for the others. -/
def Within (who : Party) (during : List (Deed σ)) : Prop :=
  ∀ deed ∈ during, (deed.who = who ∧ ∃ call, deed.act = .called call) ∨ ∃ request reply, deed.act = .heard request reply

section

variable {first last holder : Option Party} {earlier later trace : List (Deed σ)} {who : Party}

theorem InTurn.append (before : InTurn first earlier holder) (after : InTurn holder later last) : InTurn first (earlier ++ later) last := by
  induction before with
  | done => exact after
  | hears _ ih => exact .hears (ih after)
  | acquires _ ih => exact .acquires (ih after)
  | calls _ ih => exact .calls (ih after)
  | releases _ ih => exact .releases (ih after)

theorem InTurn.caller {state : σ} {call : Call} (turns : InTurn holder (⟨who, state, .called call⟩ :: later) last) : holder = some who := by
  cases turns with
  | calls _ => rfl

theorem Within.quiet {during : List (Deed σ)} (within : Within who during) : ∀ deed ∈ during, deed.who = who → deed.act ≠ .released := by
  intro deed member _ released
  obtain ⟨_, call, called⟩ | ⟨request, reply, heard⟩ := within deed member
  · cases called.symm.trans released
  · cases heard.symm.trans released

/-- Who holds the lock has taken it, and since then nobody else has made a call. -/
theorem InTurn.held (turns : InTurn first trace last) (ends : last = some who) :
    first = some who ∧ Within who trace ∨
      ∃ before begun during, trace = before ++ ⟨who, begun, .acquired⟩ :: during ∧ Within who during := by
  induction turns with
  | done holder => exact .inl ⟨ends, List.forall_mem_nil _⟩
  | @hears _ _ _ _ request reply _ _ ih =>
    obtain ⟨same, within⟩ | ⟨before, begun, during, rfl, within⟩ := ih ends
    · exact .inl ⟨same, List.forall_mem_cons.mpr ⟨.inr ⟨request, reply, rfl⟩, within⟩⟩
    · exact .inr ⟨_ :: before, begun, during, rfl, within⟩
  | @acquires _ _ state rest _ ih =>
    obtain ⟨same, within⟩ | ⟨before, begun, during, rfl, within⟩ := ih ends
    · cases same
      exact .inr ⟨[], state, rest, rfl, within⟩
    · exact .inr ⟨_ :: before, begun, during, rfl, within⟩
  | @calls _ _ _ call _ _ ih =>
    obtain ⟨same, within⟩ | ⟨before, begun, during, rfl, within⟩ := ih ends
    · cases same
      exact .inl ⟨rfl, List.forall_mem_cons.mpr ⟨.inl ⟨rfl, call, rfl⟩, within⟩⟩
    · exact .inr ⟨_ :: before, begun, during, rfl, within⟩
  | releases _ ih =>
    obtain ⟨same, _⟩ | ⟨before, begun, during, rfl, within⟩ := ih ends
    · cases same
    · exact .inr ⟨_ :: before, begun, during, rfl, within⟩

end

section

variable {machine after last : Machine settings σ} {deed? : Option (Deed σ)} {trace : List (Deed σ)}

theorem in_turn_step (orderly : Orderly machine) (step : Step answer drifts machine deed? after) :
    InTurn machine.holder deed?.toList after.holder := by
  cases step with
  | drift => exact .done _
  | @turn who _ _ turn =>
    by_cases holds : machine.holder = some who
    · obtain ⟨program, next, same, _⟩ := (orderly who).inside holds
      obtain ⟨_, _, _, _, rfl, _, keeps, _⟩ | ⟨call, _, _, rfl, _, keeps, _⟩ | ⟨_, rfl, _, frees, _⟩ := turn.held same
      · rw [keeps]
        exact .done _
      · rw [keeps, holds]
        exact .calls (.done _)
      · rw [holds, frees]
        exact .releases (.done _)
    · obtain ⟨due, outside⟩ := (orderly who).outside holds
      obtain ⟨rfl, _, keeps, _⟩ | ⟨request, reply, rfl, _, keeps, _⟩ | ⟨_, _, _, rfl, _, _, free, held, _⟩ := outside.turn turn
      · rw [keeps]
        exact .done _
      · rw [keeps]
        exact .hears (.done _)
      · rw [free, held]
        exact .acquires (.done _)

theorem in_turn (orderly : Orderly machine) (steps : Steps answer drifts machine trace last) : InTurn machine.holder trace last.holder := by
  induction steps with
  | refl => exact .done _
  | silent next _ ih => exact (in_turn_step orderly next).append (ih (orderly.step next))
  | seen next _ ih => exact (in_turn_step orderly next).append (ih (orderly.step next))

end

/-- The pass that the latest news of a loop calls for, unless it has been run since. -/
def due (settings : Settings) (who : Party) (trace : List (Deed σ)) : Option (Pass Unit) :=
  match (trace.filter (·.who = who)).getLast? with
  | some ⟨_, _, .heard request reply⟩ => calledFor settings request reply
  | _ => none

theorem calledFor_pass {request : Agent.Request} {reply : Agent.Reply request} {pass : Pass Unit}
    (called : calledFor settings request reply = some pass) : ∃ mode batch, pass = passOver settings mode batch := by
  unfold calledFor at called
  split at called <;> cases called
  · exact ⟨.add, .nodes _, rfl⟩
  · exact ⟨.remove, .nodes _, rfl⟩
  · exact ⟨.sync, .nodes _, rfl⟩
  · exact ⟨.add, .services _, rfl⟩
  · exact ⟨.remove, .services _, rfl⟩
  · exact ⟨.sync, .services _, rfl⟩
  · exact ⟨.sync, .nodes _, rfl⟩
  · exact ⟨.sync, .services _, rfl⟩

section

variable {who : Party} {trace : List (Deed σ)}

theorem due_pass {pass : Pass Unit} (called : due settings who trace = some pass) : ∃ mode batch, pass = passOver settings mode batch := by
  unfold due at called
  split at called
  · exact calledFor_pass called
  · cases called

theorem due_append (trace : List (Deed σ)) {deeds : List (Deed σ)} (others : ∀ deed ∈ deeds, deed.who ≠ who) :
    due settings who (trace ++ deeds) = due settings who trace := by
  have none : deeds.filter (·.who = who) = [] := List.filter_eq_nil_iff.mpr (by simpa using others)
  rw [due, List.filter_append, none, List.append_nil, due]

theorem due_concat (trace : List (Deed σ)) (state : σ) (act : Act) : due settings who (trace ++ [⟨who, state, act⟩]) =
    match act with
    | .heard request reply => calledFor settings request reply
    | _ => none := by
  have latest : ((trace ++ [Deed.mk who state act]).filter (·.who = who)).getLast? = some ⟨who, state, act⟩ := by
    simp
  rw [due, latest]
  cases act <;> rfl

end

section

variable {machine after last : Machine settings σ} {who : Party} {deed? : Option (Deed σ)} {earlier trace : List (Deed σ)}

/-- A loop that does not hold the lock may run what is due and nothing else. -/
def Dutiful (settings : Settings) (who : Party) (earlier : List (Deed σ)) (machine : Machine settings σ) : Prop :=
  machine.holder ≠ some who → Outside settings (due settings who earlier) (machine.rest who)

theorem dutiful_start (who : Party) (state : σ) : Dutiful settings who [] (Machine.start settings state) := fun _ => outside_start who

theorem Dutiful.turn (dutiful : Dutiful settings who earlier machine) (orderly : Orderly machine)
    (turn : Turn answer who machine deed? after) : Dutiful settings who (earlier ++ deed?.toList) after := by
  intro free
  by_cases holds : machine.holder = some who
  · obtain ⟨program, next, same, ends⟩ := (orderly who).inside holds
    obtain ⟨_, _, _, _, _, _, keeps, _⟩ | ⟨_, _, _, _, _, keeps, _⟩ | ⟨_, rfl, _, _, goes⟩ := turn.held same
    · exact absurd (keeps.trans holds) free
    · exact absurd (keeps.trans holds) free
    · rw [Option.toList_some, due_concat, goes]
      exact ends
  · obtain ⟨rfl, _, _, goes⟩ | ⟨request, reply, rfl, _, _, goes⟩ | ⟨_, _, _, _, _, _, _, held, _⟩ := (dutiful holds).turn turn
    · rw [Option.toList_none, List.append_nil]
      exact goes
    · rw [Option.toList_some, due_concat]
      exact goes
    · exact absurd held free

theorem Dutiful.step (dutiful : Dutiful settings who earlier machine) (orderly : Orderly machine)
    (step : Step answer drifts machine deed? after) : Dutiful settings who (earlier ++ deed?.toList) after := by
  cases step with
  | drift =>
    rw [Option.toList_none, List.append_nil]
    exact dutiful
  | @turn other _ _ turn =>
    by_cases own : other = who
    · subst own
      exact dutiful.turn orderly turn
    · intro free
      have others : ∀ deed ∈ deed?.toList, deed.who ≠ who := by
        intro deed member same
        exact own ((turn.own deed (Option.mem_toList.mp member)).symm.trans same)
      rw [due_append earlier others, turn.others (Ne.symm own)]
      exact dutiful (mt (((orderly other).turn turn).2 who (Ne.symm own)).mpr free)

theorem Dutiful.steps (dutiful : Dutiful settings who earlier machine) (orderly : Orderly machine)
    (steps : Steps answer drifts machine trace last) : Dutiful settings who (earlier ++ trace) last :=
  steps_carry (fun orderly dutiful next => dutiful.step orderly next) orderly dutiful steps

variable {before during : List (Deed σ)} {begun first : σ}

/-- What a loop has done since it took the lock is what a pass that was due has done so far. -/
theorem pass_underway (steps : Steps answer drifts (Machine.start settings first) (before ++ ⟨who, begun, .acquired⟩ :: during) last)
    (within : Within who during) :
    ∃ failure mode batch rest final, due settings who before = some (passOver settings mode batch) ∧
      Comes answer drifts begun (reported failure (passOver settings mode batch)) (callsOf during ++ rest) () final := by
  obtain ⟨ready, opens, steps⟩ := steps.split
  obtain ⟨taking, running, settles, begins, works⟩ := steps.first_seen
  have whole := opens.trans settles
  rw [List.append_nil] at whole
  have orderly := (orderly_start first).steps whole
  have free : taking.holder ≠ some who := by
    cases begins.own with
    | acquire _ unheld => simp [unheld]
  have outside := (dutiful_start who first).steps (orderly_start first) whole free
  obtain ⟨failure, pass, next, called, rfl, holds, goes⟩ := outside.begins begins
  obtain ⟨mode, batch, rfl⟩ := due_pass called
  obtain ⟨rest, _, _, comes⟩ := (orderly.step begins).advances_steps works holds goes within.quiet
  obtain ⟨calls, value, final, alone⟩ := comes_alone answer drifts last.state rest
  exact ⟨failure, mode, batch, calls, final, called, comes calls value final alone⟩

end

end PeerPool.Proofs.Exclusion
