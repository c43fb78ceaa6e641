import PeerPool.Pass.Basic

/-! What the loops of the agent ask for: the calls of their passes, news of the cluster,
listings, time, and the right to run a pass. -/

namespace PeerPool.Agent

open Cluster (Node Service)

/-- What a watch reports. -/
inductive WatchEvent (α : Type) where
  /-- An object was added or updated. -/
  | applied (object : α)
  | deleted (object : α)
  /-- The watch starts over, with all objects that there are. -/
  | restarted (objects : List α)
  /-- The API server refused, with a status code. -/
  | failed (code : Nat)
deriving Repr

inductive Request where
  | call (call : Call)
  | nodeEvent
  | serviceEvent
  | listNodes
  | listServices
  /-- Waits for the next periodic resync. -/
  | tick
  | sleep (seconds : Nat)
  /-- Waits until no other pass is running. -/
  | acquire
  | release
deriving Repr

abbrev Reply : Request → Type
  | .call call => call.Answer
  | .nodeEvent => WatchEvent Node
  | .serviceEvent => WatchEvent Service
  | .listNodes => Except Nat (List Node)
  | .listServices => Except Nat (List Service)
  | .tick => Unit
  | .sleep _ => Unit
  | .acquire => Unit
  | .release => Unit

/-- A request of which the reply is the result. -/
def ask (request : Request) : Program Reply (Reply request) := .request request

/-- How long a loop waits after a failure of its watch. -/
def retryDelay : Nat := 5

/-- The time between two periodic resyncs. -/
def resyncPeriod : Nat := 300

/-- A loop that goes on for ever: what it does first, and each of its rounds. It waits for
time to pass at the end of a round only. -/
structure Loop where
  State : Type
  start : Program Reply State
  round : State → Program Reply State

/-- Runs a pass while no other one is running. If it fails, a later pass makes up for it. -/
def runPass (failure : PassError → String) (pass : Pass Unit) : Program Reply Unit := do
  ask .acquire
  match ← pass.run.expand fun call => ask (.call call) with
  | .ok _ => pure ()
  | .error error => Program.log .warn (failure error)
  ask .release

end PeerPool.Agent
