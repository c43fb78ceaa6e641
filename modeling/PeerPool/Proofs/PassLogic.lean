import PeerPool.Pass.Basic
import PeerPool.Program.Trace

/-! What a pass comes to in a world that answers its calls: its result with the state it
leaves, and the calls it makes, each with the state in which it is made. Both follow the
steps of the pass, so properties of passes are put together from those of their parts. -/

namespace PeerPool.Proofs.PassLogic

/-- A world that answers calls from a state of its own. -/
abbrev Answers (σ : Type) := σ → (call : Call) → call.Answer × σ

variable {σ α β : Type} (answer : Answers σ)

/-- The calls of a program, each with the state before it. -/
def calls (state : σ) : Program Call.Answer α → List (σ × Call)
  | .done _ => []
  | .say _ _ rest => calls state rest
  | .ask call rest => (state, call) :: calls (answer state call).2 (rest (answer state call).1)

theorem calls_requests (program : Program Call.Answer α) (state : σ) :
    (calls answer state program).map Prod.snd = (program.trace answer state).requests := by
  induction program generalizing state with
  | done => rfl
  | say level text rest ih => exact ih state
  | ask call rest ih => exact congrArg (call :: ·) (ih _ _)

theorem calls_bind (next : α → Program Call.Answer β) (program : Program Call.Answer α) (state : σ) :
    calls answer state (program.bind next) = calls answer state program ++
      calls answer (program.trace answer state).state (next (program.trace answer state).value) := by
  induction program generalizing state with
  | done => rfl
  | say level text rest ih => exact ih state
  | ask call rest ih => exact congrArg ((state, call) :: ·) (ih _ _)

/-- The result of a pass and the state that it leaves. -/
def effect (state : σ) (pass : Pass α) : Except PassError α × σ :=
  ((pass.run.trace answer state).value, (pass.run.trace answer state).state)

/-- The calls that a pass makes. -/
def made (state : σ) (pass : Pass α) : List (σ × Call) := calls answer state pass.run

theorem run_bind (pass : Pass α) (next : α → Pass β) :
    (pass >>= next).run = Program.bind (fun
      | .ok value => (next value).run
      | .error error => .done (.error error)) pass.run := by
  rw [ExceptT.run_bind]
  change Program.bind _ _ = _
  congr 1
  funext reply
  cases reply <;> rfl

theorem effect_bind (state : σ) (pass : Pass α) (next : α → Pass β) :
    effect answer state (pass >>= next) =
      match effect answer state pass with
      | (.ok value, after) => effect answer after (next value)
      | (.error error, after) => (.error error, after) := by
  obtain ⟨value, last⟩ := Program.trace_bind answer (fun
    | .ok value => (next value).run
    | .error error => .done (.error error)) pass.run state
  rw [effect, run_bind, value, last]
  simp only [effect]
  split <;> simp_all [Program.trace]

theorem effect_then {state between : σ} {pass : Pass α} {value : α} (first : effect answer state pass = (.ok value, between))
    (next : α → Pass β) : effect answer state (pass >>= next) = effect answer between (next value) := by
  rw [effect_bind, first]

theorem made_bind (state : σ) (pass : Pass α) (next : α → Pass β) :
    made answer state (pass >>= next) = made answer state pass ++
      match effect answer state pass with
      | (.ok value, after) => made answer after (next value)
      | (.error _, _) => [] := by
  rw [made, run_bind, calls_bind]
  simp only [effect, made]
  split <;> simp_all [calls]

section

variable (state : σ)

@[simp] theorem effect_pure (value : α) : effect answer state (pure value) = (.ok value, state) := rfl

@[simp] theorem effect_ask (call : Call) :
    effect answer state (Pass.ask call) = (.ok (answer state call).1, (answer state call).2) := rfl

@[simp] theorem effect_say (level : Level) (text : String) :
    effect answer state (Pass.say level text) = (.ok (), state) := rfl

theorem effect_ask_bind (call : Call) (next : call.Answer → Pass β) :
    effect answer state (Pass.ask call >>= next) = effect answer (answer state call).2 (next (answer state call).1) := rfl

@[simp] theorem effect_say_bind (level : Level) (text : String) (next : Unit → Pass β) :
    effect answer state (Pass.say level text >>= next) = effect answer state (next ()) := rfl

theorem made_ask_bind (call : Call) (next : call.Answer → Pass β) : made answer state (Pass.ask call >>= next) =
    (state, call) :: made answer (answer state call).2 (next (answer state call).1) := rfl

@[simp] theorem made_say_bind (level : Level) (text : String) (next : Unit → Pass β) :
    made answer state (Pass.say level text >>= next) = made answer state (next ()) := rfl

@[simp] theorem made_pure (value : α) : made answer state (pure value) = [] := rfl

@[simp] theorem made_throw (error : PassError) : made answer state (throw error : Pass α) = [] := rfl

@[simp] theorem made_ask (call : Call) : made answer state (Pass.ask call) = [(state, call)] := rfl

@[simp] theorem made_say (level : Level) (text : String) : made answer state (Pass.say level text) = [] := rfl

end

/-- A pass of two parts succeeds by way of the state between them. -/
theorem effect_bind_ok {state after : σ} {pass : Pass α} {next : α → Pass β} {result : β} :
    effect answer state (pass >>= next) = (.ok result, after) ↔
      ∃ value between, effect answer state pass = (.ok value, between) ∧
        effect answer between (next value) = (.ok result, after) := by
  rw [effect_bind]
  split
  next value between first =>
    constructor
    · exact fun second => ⟨value, between, first, second⟩
    · rintro ⟨_, _, same, second⟩
      cases first.symm.trans same
      exact second
  next error between first => simp [first]

theorem effect_ok_iff {state : σ} {pass : Pass α} {value : α} :
    (effect answer state pass).1 = .ok value ↔ ∃ after, effect answer state pass = (.ok value, after) := by
  constructor
  · exact fun ok => ⟨(effect answer state pass).2, Prod.ext ok rfl⟩
  · rintro ⟨_, ran⟩
    exact congrArg Prod.fst ran

/-- What follows a part depends on nothing but the result of the part and the state it leaves. -/
theorem effect_bind_congr {first second : σ} {pass other : Pass α}
    (same : effect answer first pass = effect answer second other) (next : α → Pass β) :
    effect answer first (pass >>= next) = effect answer second (other >>= next) := by
  rw [effect_bind, effect_bind, same]

/-- The calls of the first part are among those of the whole. -/
theorem made_first {state : σ} {pass : Pass α} {next : α → Pass β} :
    ∀ entry ∈ made answer state pass, entry ∈ made answer state (pass >>= next) := by
  intro entry member
  rw [made_bind]
  exact List.mem_append_left _ member

/-- The calls of the second part are among those of the whole. -/
theorem mem_made_bind {state between before : σ} {call : Call} {pass : Pass α} {value : α} {next : α → Pass β}
    (first : effect answer state pass = (.ok value, between)) (member : (before, call) ∈ made answer between (next value)) :
    (before, call) ∈ made answer state (pass >>= next) := by
  rw [made_bind, first]
  exact List.mem_append_right _ member

theorem mapError_ok {ε ε' : Type} {wrap : ε → ε'} {result : Except ε α} {value : α} :
    result.mapError wrap = .ok value ↔ result = .ok value := by
  constructor
  · intro same
    cases result <;> cases same
    rfl
  · rintro rfl
    rfl

theorem isOk_iff {ε : Type} {result : Except ε α} : result.isOk = true ↔ ∃ value, result = .ok value := by
  cases result <;> simp [Except.isOk, Except.toBool]

theorem effect_check {ε : Type} (state : σ) (wrap : ε → PassError) (result : Except ε α) :
    effect answer state (Pass.check wrap result) = (result.mapError wrap, state) := by
  cases result <;> rfl

theorem made_check {ε : Type} (state : σ) (wrap : ε → PassError) (result : Except ε α) :
    made answer state (Pass.check wrap result) = [] := by
  cases result <;> rfl

/-- The calls of a pass are allowed where they are made, and it comes to what is promised. -/
structure Meets (allowed : σ → Call → Prop) (state : σ) (pass : Pass α) (post : Except PassError α → σ → Prop) : Prop where
  calls : ∀ before call, (before, call) ∈ made answer state pass → allowed before call
  ends : post (effect answer state pass).1 (effect answer state pass).2

namespace Meets

variable {answer} {allowed : σ → Call → Prop} {state : σ}

theorem pure {value : α} {post : Except PassError α → σ → Prop} (holds : post (.ok value) state) :
    Meets answer allowed state (Pure.pure value) post := ⟨by simp, holds⟩

theorem throw {error : PassError} {post : Except PassError α → σ → Prop} (holds : post (.error error) state) :
    Meets answer allowed state (MonadExcept.throw error) post := ⟨by simp, holds⟩

theorem say {level : Level} {text : String} {post : Except PassError Unit → σ → Prop} (holds : post (.ok ()) state) :
    Meets answer allowed state (Pass.say level text) post := ⟨by simp, holds⟩

theorem ask {call : Call} {post : Except PassError call.Answer → σ → Prop} (may : allowed state call)
    (holds : post (.ok (answer state call).1) (answer state call).2) :
    Meets answer allowed state (Pass.ask call) post := by
  refine ⟨?_, holds⟩
  intro before made member
  cases List.mem_singleton.mp member
  exact may

theorem say_bind {level : Level} {text : String} {next : Unit → Pass β} {post : Except PassError β → σ → Prop}
    (later : Meets answer allowed state (next ()) post) : Meets answer allowed state (Pass.say level text >>= next) post :=
  ⟨later.calls, later.ends⟩

theorem ask_bind {call : Call} {next : call.Answer → Pass β} {post : Except PassError β → σ → Prop}
    (may : allowed state call)
    (later : Meets answer allowed (answer state call).2 (next (answer state call).1) post) :
    Meets answer allowed state (Pass.ask call >>= next) post := by
  refine ⟨?_, later.ends⟩
  intro before made member
  rcases List.mem_cons.mp member with first | member
  · cases first
    exact may
  · exact later.calls before made member

theorem check {ε : Type} {wrap : ε → PassError} {result : Except ε α} {post : Except PassError α → σ → Prop}
    (holds : post (result.mapError wrap) state) : Meets answer allowed state (Pass.check wrap result) post := by
  refine ⟨by simp [made_check], ?_⟩
  rw [effect_check]
  exact holds

theorem mono {pass : Pass α} {post weaker : Except PassError α → σ → Prop} (meets : Meets answer allowed state pass post)
    (implies : ∀ result after, post result after → weaker result after) : Meets answer allowed state pass weaker :=
  ⟨meets.calls, implies _ _ meets.ends⟩

theorem bind {pass : Pass α} {next : α → Pass β} {middle : Except PassError α → σ → Prop}
    {post : Except PassError β → σ → Prop} (first : Meets answer allowed state pass middle)
    (later : ∀ value after, middle (.ok value) after → Meets answer allowed after (next value) post)
    (fails : ∀ error after, middle (.error error) after → post (.error error) after) :
    Meets answer allowed state (pass >>= next) post := by
  obtain ⟨calls, ends⟩ := first
  constructor
  · intro before call member
    rw [made_bind] at member
    rcases List.mem_append.mp member with member | member
    · exact calls before call member
    · generalize found : effect answer state pass = result at member ends
      obtain ⟨value | error, after⟩ := result
      · cases member
      · exact (later _ after ends).calls before call member
  · rw [effect_bind]
    generalize effect answer state pass = result at ends
    obtain ⟨error | value, after⟩ := result
    · exact fails error after ends
    · exact (later value after ends).ends

end Meets

end PeerPool.Proofs.PassLogic
