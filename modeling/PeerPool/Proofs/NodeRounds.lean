import Mathlib.Data.List.Induction
import PeerPool.Proofs.Interleavings
import PeerPool.Proofs.NodeEdits

/-! What the loop that follows the nodes makes of the events that it hears, one round after
another. Each event calls for a pass over its nodes. The loop leaves out the passes that it takes
to be of no use, by the names that it keeps, and nothing else of a round depends on these names. -/

namespace PeerPool.Proofs.NodeRounds
open PassLogic PeersSynchronized Interleavings Simulation Agent Cluster

variable {σ α : Type}

/-- A world that replies to the loops of the agent from a state of its own. -/
abbrev Replies (σ : Type) := σ → (request : Agent.Request) → Agent.Reply request × σ

def onCalls (answer : Replies σ) : Answers σ := fun state call => answer state (.call call)

/-- The world in which this event is the next that is heard of the nodes. -/
def told (answer : Replies σ) (event : WatchEvent Node) : Replies σ
  | state, .nodeEvent => (event, (answer state .nodeEvent).2)
  | state, request => answer state request

/-- A round of a loop that hears an event. -/
def hears (answer : Replies σ) (loop : Loop) (position : loop.State × σ) (event : WatchEvent Node) : loop.State × σ :=
  let run := (loop.round position.1).trace (told answer event) position.2
  (run.value, run.state)

/-- Where a loop that starts in a state gets to by hearing events one after another. -/
def follows (answer : Replies σ) (loop : Loop) (start : σ) (events : List (WatchEvent Node)) : loop.State × σ :=
  let begun := loop.start.trace answer start
  events.foldl (hears answer loop) (begun.value, begun.state)

theorem follows_append (answer : Replies σ) (loop : Loop) (start : σ) (events : List (WatchEvent Node)) (event : WatchEvent Node) :
    follows answer loop start (events ++ [event]) = hears answer loop (follows answer loop start events) event :=
  List.foldl_append ..

def called : WatchEvent Node → Option (Mode × List Node)
  | .applied node => some (.add, [node])
  | .deleted node => some (.remove, [node])
  | .restarted nodes => some (.sync, nodes)
  | .failed _ => none

/-- The state in which a loop that has just heard of the nodes begins its pass. -/
def begins (answer : Replies σ) (state : σ) : σ := (answer (answer state .nodeEvent).2 .acquire).2

/-- What a pass comes to that a loop runs upon an event, and the state when it ends. -/
def runs (answer : Replies σ) (settings : Settings) (state : σ) (mode : Mode) (batch : List Node) : Except PassError Unit × σ :=
  effect (onCalls answer) (begins answer state) (Pass.nodes settings mode batch)

/-- The state after a round that does what the event calls for. -/
def attends (answer : Replies σ) (settings : Settings) (state : σ) (event : WatchEvent Node) : σ :=
  match called event with
  | some (mode, batch) => (answer (runs answer settings state mode batch).2 .release).2
  | none => (answer (answer state .nodeEvent).2 (.sleep retryDelay)).2

def tracks (peered : PeeredNodes) : WatchEvent Node → PeeredNodes
  | .applied node => (peered.applied node).2
  | .deleted node => peered.deleted node
  | .restarted nodes => .restarted nodes
  | .failed _ => peered

/-- The loop leaves out the pass that the event calls for. -/
def skips (peered : PeeredNodes) : WatchEvent Node → Bool
  | .applied node => !(peered.applied node).1
  | _ => false

section

variable (answer : Replies σ) (settings : Settings) (state : σ)

theorem trace_runPass (failure : PassError → String) (pass : Pass Unit) :
    ((runPass failure pass).trace answer state).state =
      (answer (effect (onCalls answer) (answer state .acquire).2 pass).2 .release).2 := by
  have body := runPass_eq failure pass (pure : Unit → Program Agent.Reply Unit)
  rw [bind_pure] at body
  rw [body]
  change (Program.trace answer (answer state .acquire).2 (holding (reported failure pass) pure)).state = _
  rw [holding, (Program.trace_bind ..).2, (Program.trace_expand ..).2, (trace_reported ..).1]
  rfl

theorem trace_runNodes (event : WatchEvent Node) (mode : Mode) (batch : List Node) :
    ((runNodes settings mode batch).trace (told answer event) (answer state .nodeEvent).2).state =
      (answer (runs answer settings state mode batch).2 .release).2 :=
  trace_runPass (told answer event) (answer state .nodeEvent).2 _ _

end

/-- The loop that attends to every event, whatever it has heard before. -/
def attend (settings : Settings) : WatchEvent Node → Program Agent.Reply Unit
  | .applied node => runNodes settings .add [node]
  | .deleted node => runNodes settings .remove [node]
  | .restarted nodes => do
    Program.log .debug s!"Node watch (re)started with {nodes.length} node(s)"
    runNodes settings .sync nodes
  | .failed code => do
    Program.log .warn s!"Node watch failed! Status {code}"
    ask (.sleep retryDelay)

def eagerLoop (settings : Settings) : Loop where
  State := Unit
  start := pure ()
  round _ := do attend settings (← ask .nodeEvent)

section

variable (answer : Replies σ) (settings : Settings) (state : σ)

theorem hears_eager (event : WatchEvent Node) :
    hears answer (eagerLoop settings) ((), state) event = ((), attends answer settings state event) := by
  cases event with
  | applied node => exact Prod.ext rfl (trace_runNodes answer settings state _ _ _)
  | deleted node => exact Prod.ext rfl (trace_runNodes answer settings state _ _ _)
  | restarted nodes => exact Prod.ext rfl (trace_runNodes answer settings state _ _ _)
  | failed code => rfl

theorem runNodes_tracks (event : WatchEvent Node) (mode : Mode) (batch : List Node) (later : PeeredNodes) :
    let run := (runNodes settings mode batch >>= fun _ => pure later).trace (told answer event) (answer state .nodeEvent).2
    (run.value, run.state) = (later, (answer (runs answer settings state mode batch).2 .release).2) := by
  obtain ⟨value, last⟩ := Program.trace_bind (told answer event) (fun _ => (pure later : Program Agent.Reply PeeredNodes))
    (runNodes settings mode batch) (answer state .nodeEvent).2
  rw [trace_runNodes] at last
  exact Prod.ext value last

theorem trace_onNodeEvent (peered : PeeredNodes) (event : WatchEvent Node) :
    let run := (onNodeEvent settings peered event).trace (told answer event) (answer state .nodeEvent).2
    (run.value, run.state) =
      (tracks peered event, if skips peered event then (answer state .nodeEvent).2 else attends answer settings state event) := by
  cases event with
  | applied node =>
    have split : onNodeEvent settings peered (.applied node) =
        if (peered.applied node).1 then runNodes settings .add [node] >>= fun _ => pure (peered.applied node).2
        else pure (peered.applied node).2 := rfl
    rw [split, skips, tracks]
    cases (peered.applied node).1 with
    | false => rfl
    | true => exact runNodes_tracks answer settings state _ _ _ _
  | deleted node => exact runNodes_tracks answer settings state _ _ _ _
  | restarted nodes => exact runNodes_tracks answer settings state _ _ _ _
  | failed code => rfl

theorem hears_nodes (peered : PeeredNodes) (event : WatchEvent Node) :
    hears answer (nodeLoop settings) (peered, state) event =
      (tracks peered event, if skips peered event then (answer state .nodeEvent).2 else attends answer settings state event) :=
  trace_onNodeEvent answer settings state peered event

end

section

variable (answer : Replies σ) (settings : Settings) (start : σ)

/-- Where the loop that leaves out passes gets to. -/
def watched (events : List (WatchEvent Node)) : PeeredNodes × σ := follows answer (nodeLoop settings) start events

/-- The state that the loop that leaves out none gets to. -/
def attended (events : List (WatchEvent Node)) : σ := (follows answer (eagerLoop settings) start events).2

theorem watched_append (events : List (WatchEvent Node)) (event : WatchEvent Node) :
    watched answer settings start (events ++ [event]) =
      let before := watched answer settings start events
      (tracks before.1 event, if skips before.1 event then (answer before.2 .nodeEvent).2 else attends answer settings before.2 event) :=
  (follows_append ..).trans (hears_nodes ..)

theorem attended_append (events : List (WatchEvent Node)) (event : WatchEvent Node) :
    attended answer settings start (events ++ [event]) = attends answer settings (attended answer settings start events) event :=
  congrArg Prod.snd ((follows_append ..).trans (hears_eager ..))

theorem watched_tracks (events : List (WatchEvent Node)) : (watched answer settings start events).1 = events.foldl tracks {} := by
  induction events using List.reverseRecOn with
  | nil => rfl
  | append_singleton events event ih =>
    rw [watched_append, List.foldl_append, ← ih]
    rfl

end

/-- A world that is the text of a configuration, with one router for every node. It grants
whatever a pass over nodes asks for. -/
def calmly : Replies String
  | text, .call (.loadDocument _) => (.ok text, text)
  | text, .call (.patchDocument _ patch) => (.ok (), (patchDocument (some text) patch).getD text)
  | text, .call (.resolvePeers _) => (.ok ["r1"], text)
  | text, .call (.listReservations _) => (.ok [], text)
  | text, .call (.createReservation _ _) => (.error (.refused 422 "no capacity"), text)
  | text, .call (.deleteReservation _) => (.ok (), text)
  | text, .call (.getService _ name) => (.error (.notFound name), text)
  | text, .call (.updateService _) => (.ok (), text)
  | text, .nodeEvent => (.failed 0, text)
  | text, .serviceEvent => (.failed 0, text)
  | text, .listNodes => (.ok [], text)
  | text, .listServices => (.ok [], text)
  | text, .tick => ((), text)
  | text, .sleep _ => ((), text)
  | text, .acquire => ((), text)
  | text, .release => ((), text)

def blank : String := ({} : Config).write

def worker : Node := named "n1" [("role", "worker")]

end PeerPool.Proofs.NodeRounds
