/-! Programs that make requests. A program is a value: what it does next is a function of
the reply it gets, so it can be run against any world, stopped between two requests, and
taken apart. -/

namespace PeerPool

/-- How much a line of the log matters. -/
inductive Level where
  | error
  | warn
  | info
  | debug
  | trace
deriving DecidableEq, Repr

inductive Program {Request : Type} (Reply : Request → Type) (α : Type) where
  | done (value : α)
  | say (level : Level) (text : String) (next : Program Reply α)
  | ask (request : Request) (next : Reply request → Program Reply α)

namespace Program

variable {Request : Type} {Reply : Request → Type} {α β γ : Type}

def bind (next : α → Program Reply β) : Program Reply α → Program Reply β
  | .done value => next value
  | .say level text rest => .say level text (bind next rest)
  | .ask request rest => .ask request fun reply => bind next (rest reply)

instance : Monad (Program Reply) where
  pure := .done
  bind program next := bind next program

theorem bind_done (program : Program Reply α) : bind .done program = program := by
  induction program with
  | done => rfl
  | say level text rest ih => simp only [bind, ih]
  | ask request rest ih => simp only [bind, ih]

theorem bind_bind (program : Program Reply α) (first : α → Program Reply β) (second : β → Program Reply γ) :
    bind second (bind first program) = bind (fun value => bind second (first value)) program := by
  induction program with
  | done => rfl
  | say level text rest ih => simp only [bind, ih]
  | ask request rest ih => simp only [bind, ih]

instance : LawfulMonad (Program Reply) :=
  LawfulMonad.mk' (Program Reply) bind_done (fun _ _ => rfl) bind_bind

/-- A request of which the reply is the result. -/
def request (request : Request) : Program Reply (Reply request) := .ask request .done

def log (level : Level) (text : String) : Program Reply Unit := .say level text (.done ())

/-- Puts a program in the place of each request. -/
def expand {Request' : Type} {Reply' : Request' → Type}
    (handle : (request : Request) → Program Reply' (Reply request)) : Program Reply α → Program Reply' α
  | .done value => .done value
  | .say level text rest => .say level text (expand handle rest)
  | .ask request rest => bind (fun reply => expand handle (rest reply)) (handle request)

/-- A world to run programs in: where their logs go, and who replies to their requests. -/
structure World {Request : Type} (Reply : Request → Type) (m : Type → Type) where
  log : Level → String → m Unit
  answer : (request : Request) → m (Reply request)

def run {m : Type → Type} [Monad m] (world : World Reply m) : Program Reply α → m α
  | .done value => pure value
  | .say level text rest => do
    world.log level text
    run world rest
  | .ask request rest => do run world (rest (← world.answer request))

theorem run_bind {m : Type → Type} [Monad m] [LawfulMonad m] (world : World Reply m)
    (next : α → Program Reply β) (program : Program Reply α) :
    run world (bind next program) = run world program >>= fun value => run world (next value) := by
  induction program with
  | done => simp only [bind, run, pure_bind]
  | say level text rest ih => simp only [bind, run, ih, bind_assoc]
  | ask request rest ih => simp only [bind, run, ih, bind_assoc]

end Program

end PeerPool
