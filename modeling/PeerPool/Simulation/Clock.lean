import PeerPool.Agent.Loops
import PeerPool.Program.Trace
import PeerPool.Simulation.Feed
import PeerPool.Simulation.Memory

/-! The loops of the agent on a clock that nobody waits for. A round of a loop takes no
time save what it sleeps, so rounds never overlap and a pass never finds another one
running. Of the loops the one that wakes first goes on, and loops that wake together take
turns. -/

namespace PeerPool.Simulation

open Agent (Loop WatchEvent)
open Cluster (Node Service)

inductive Source where
  | nodes
  | services
deriving DecidableEq, Repr

/-- What is seen of a run. -/
inductive Sighting where
  | event (event : Event Call)
  /-- The API server has taken a step of its script, at a time in seconds. -/
  | delivered (source : Source) (step time : Nat)
deriving Repr

structure Scene where
  memory : Memory
  nodes : Feed Node
  services : Feed Service
  time : Nat := 0
  sightings : List Sighting := []
deriving Inhabited

/-- Why a loop does not go on. -/
inductive Halt where
  /-- It waits for something that never comes. -/
  | asleep
  /-- The script does not say how to answer it, which ends the whole run. -/
  | ended
deriving DecidableEq, Repr

abbrev Moment := ExceptT Halt (StateM Scene)

def see (sighting : Sighting) : Moment Unit :=
  modify fun scene => { scene with sightings := scene.sightings ++ [sighting] }

/-- Notes the steps that were taken from the one number on up to the other. -/
def deliver (source : Source) (before after : Nat) : Moment Unit := do
  let time := (← get).time
  (List.range' before (after - before)).forM fun step => see (.delivered source step time)

def next {α : Type} (source : Source) (before : Nat) (polled : Poll α × Feed α)
    (store : Feed α → Scene → Scene) : Moment (WatchEvent α) := do
  modify (store polled.2)
  deliver source before polled.2.taken
  match polled.1 with
  | .event event => return event
  | .silent => throw .asleep
  | .stuck => throw .ended

def list {α : Type} (source : Source) (feed : Feed α) (store : Feed α → Scene → Scene) :
    Moment (Except Nat (List α)) := do
  match feed.list? with
  | none => throw .ended
  | some (listed, later) =>
    modify (store later)
    deliver source feed.taken later.taken
    return listed

def storeNodes (feed : Feed Node) (scene : Scene) : Scene := { scene with nodes := feed }

def storeServices (feed : Feed Service) (scene : Scene) : Scene := { scene with services := feed }

def answer : (request : Agent.Request) → Moment (Agent.Reply request)
  | .call call => do
    see (.event (.asked call))
    let scene ← get
    let (reply, memory) := scene.memory.answer call
    set { scene with memory }
    return reply
  | .nodeEvent => do
    let feed := (← get).nodes
    next .nodes feed.taken feed.poll storeNodes
  | .serviceEvent => do
    let feed := (← get).services
    next .services feed.taken feed.poll storeServices
  | .listNodes => do list .nodes (← get).nodes storeNodes
  | .listServices => do list .services (← get).services storeServices
  | .tick => modify fun scene =>
    { scene with time := (scene.time / Agent.resyncPeriod + 1) * Agent.resyncPeriod }
  | .sleep seconds => modify fun scene => { scene with time := scene.time + seconds }
  | .acquire => pure ()
  | .release => pure ()

def world : Program.World Agent.Reply Moment where
  log level text := see (.event (.said level text))
  answer := answer

/-- A loop that is to go on at a time. -/
structure Waiting where
  loop : Loop
  state : loop.State
  time : Nat

/-- The waiting loop that wakes first, and the others. -/
def firstToWake : List Waiting → Option (Waiting × List Waiting)
  | [] => none
  | waiting :: rest =>
    match firstToWake rest with
    | none => some (waiting, [])
    | some (first, others) =>
      if first.time < waiting.time then some (first, waiting :: others) else some (waiting, rest)

/-- Runs what a loop does next at a time of its own. -/
def wake (loop : Loop) (program : Program Agent.Reply loop.State) (time : Nat) (scene : Scene) :
    Except Halt Waiting × Scene :=
  let (halted, scene) := (program.run world).run { scene with time } |>.run
  (halted.map fun state => ⟨loop, state, scene.time⟩, scene)

/-- Runs round after round, at most as many as there is fuel. -/
def rounds (fuel : Nat) (waiting : List Waiting) (scene : Scene) : Scene :=
  match fuel, firstToWake waiting with
  | fuel + 1, some (first, others) =>
    match wake first.loop (first.loop.round first.state) first.time scene with
    | (.ok later, scene) => rounds fuel (others ++ [later]) scene
    | (.error .asleep, scene) => rounds fuel others scene
    | (.error .ended, scene) => scene
  | _, _ => scene

/-- Starts loops, each at the beginning. -/
def started (scene : Scene) : List Loop → List Waiting × Scene
  | [] => ([], scene)
  | loop :: rest =>
    let (begun, scene) := wake loop loop.start 0 scene
    let (others, scene) := started scene rest
    (begun.toOption.toList ++ others, scene)

/-- Runs loops until the script ends. Each round takes a step of the script or halts its loop. -/
def Scene.run (loops : List Loop) (scene : Scene) : Scene :=
  let (waiting, begun) := started scene loops
  rounds (scene.nodes.script.length + scene.services.script.length + loops.length + 1) waiting begun

end PeerPool.Simulation
