import PeerPool.Proofs.PassLogic

/-! Passes without their logs. What a program says has no influence on what it does, so a pass may
be taken for another one that says something else, or nothing, at the same calls. -/

namespace PeerPool.Proofs.SilentPasses
open PassLogic

variable {σ α β : Type}

def silent : Program Call.Answer α → Program Call.Answer α
  | .done value => .done value
  | .say _ _ rest => silent rest
  | .ask call rest => .ask call fun reply => silent (rest reply)

theorem silent_bind (program : Program Call.Answer α) (next : α → Program Call.Answer β) :
    silent (program.bind next) = (silent program).bind fun value => silent (next value) := by
  induction program with
  | done value => rfl
  | say level text rest ih => exact ih
  | ask call rest ih => exact congrArg (Program.ask call) (funext ih)

theorem calls_silent (answer : Answers σ) (program : Program Call.Answer α) (state : σ) :
    calls answer state (silent program) = calls answer state program := by
  induction program generalizing state with
  | done value => rfl
  | say level text rest ih => exact ih state
  | ask call rest ih => exact congrArg ((state, call) :: ·) (ih _ _)

theorem trace_silent (answer : Answers σ) (program : Program Call.Answer α) (state : σ) :
    ((silent program).trace answer state).value = (program.trace answer state).value ∧
      ((silent program).trace answer state).state = (program.trace answer state).state := by
  induction program generalizing state with
  | done value => exact ⟨rfl, rfl⟩
  | say level text rest ih => exact ih state
  | ask call rest ih => exact ih _ _

/-- Nothing but their logs tells two passes apart. -/
def SameCalls (pass other : Pass α) : Prop := silent pass.run = silent other.run

namespace SameCalls

theorem refl (pass : Pass α) : SameCalls pass pass := rfl

theorem say {pass other : Pass α} (same : SameCalls pass other) (level : Level) (text : String) :
    SameCalls (Pass.say level text >>= fun _ => pass) other := same

theorem bind {pass other : Pass α} {next follow : α → Pass β} (first : SameCalls pass other)
    (later : ∀ value, SameCalls (next value) (follow value)) : SameCalls (pass >>= next) (other >>= follow) := by
  rw [SameCalls, run_bind, run_bind, silent_bind, silent_bind, first]
  congr 1
  funext result
  cases result with
  | ok value => exact later value
  | error error => rfl

variable {pass other : Pass α} (same : SameCalls pass other) (answer : Answers σ) (state : σ)
include same

theorem effect_eq : effect answer state pass = effect answer state other := by
  obtain ⟨value, last⟩ := trace_silent answer pass.run state
  obtain ⟨other_value, other_last⟩ := trace_silent answer other.run state
  rw [effect, effect, ← value, ← last, ← other_value, ← other_last, same]

theorem made_eq : made answer state pass = made answer state other := by
  rw [made, made, ← calls_silent, same, calls_silent]

end SameCalls

end PeerPool.Proofs.SilentPasses
