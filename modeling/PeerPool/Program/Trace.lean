import PeerPool.Program

/-! What a program is seen to do in a world that replies from a state of its own. -/

namespace PeerPool

inductive Event (Request : Type) where
  | said (level : Level) (text : String)
  | asked (request : Request)
deriving Repr

/-- A finished run: its result, the state it leaves, and what it did in order. -/
structure Run (Request σ α : Type) where
  value : α
  state : σ
  events : List (Event Request)

namespace Run

variable {Request σ α : Type}

def after (event : Event Request) (run : Run Request σ α) : Run Request σ α :=
  { run with events := event :: run.events }

/-- The requests of a run, without its log. -/
def requests (run : Run Request σ α) : List Request :=
  run.events.filterMap fun
    | .asked request => some request
    | .said _ _ => none

end Run

/-- Runs a program. A request is seen before it is replied to. -/
def Program.trace {Request : Type} {Reply : Request → Type} {σ α : Type}
    (answer : σ → (request : Request) → Reply request × σ) (state : σ) : Program Reply α → Run Request σ α
  | .done value => ⟨value, state, []⟩
  | .say level text rest => (trace answer state rest).after (.said level text)
  | .ask request rest =>
    let (reply, state) := answer state request
    (trace answer state (rest reply)).after (.asked request)

theorem Program.trace_bind {Request σ α β : Type} {Reply : Request → Type}
    (answer : σ → (request : Request) → Reply request × σ) (next : α → Program Reply β) (program : Program Reply α) (state : σ) :
    let first := program.trace answer state
    let last := (next first.value).trace answer first.state
    ((program.bind next).trace answer state).value = last.value ∧
    ((program.bind next).trace answer state).state = last.state := by
  induction program generalizing state with
  | done => exact ⟨rfl, rfl⟩
  | say level text rest ih => exact ih state
  | ask request rest ih => exact ih _ _

/-- A program in which other programs have taken the place of requests runs as it does in a world that replies by running them. -/
theorem Program.trace_expand {Request Request' σ α : Type} {Reply : Request → Type} {Reply' : Request' → Type}
    (answer : σ → (request : Request') → Reply' request × σ) (handle : (request : Request) → Program Reply' (Reply request))
    (program : Program Reply α) (state : σ) :
    let expanded := (program.expand handle).trace answer state
    let run := program.trace (fun state request =>
      let reply := (handle request).trace answer state
      (reply.value, reply.state)) state
    expanded.value = run.value ∧ expanded.state = run.state := by
  induction program generalizing state with
  | done => exact ⟨rfl, rfl⟩
  | say level text rest ih => exact ih state
  | ask request rest ih =>
    obtain ⟨value, last⟩ := trace_bind answer (fun reply => expand handle (rest reply)) (handle request) state
    obtain ⟨ends, leaves⟩ := ih ((handle request).trace answer state).value ((handle request).trace answer state).state
    exact ⟨value.trans ends, last.trans leaves⟩

end PeerPool
