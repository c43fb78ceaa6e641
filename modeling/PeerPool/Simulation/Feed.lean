import PeerPool.Agent.Basic

/-! An API server that tells of one kind of object by a script, and a watch that keeps up
with it. A watch lists first, then follows what changes. It lists again only if its listing
fails or what it follows is gone. -/

namespace PeerPool.Simulation

open Agent (WatchEvent)

/-- What the API server does next. -/
inductive Step (α : Type) where
  | list (objects : List α)
  | refuseList (code : Nat)
  | refuseWatch (code : Nat)
  | applied (object : α)
  | deleted (object : α)
  /-- An error in an open stream. -/
  | fail (code : Nat)
  /-- The end of an open stream. -/
  | close
deriving Repr

inductive Phase where
  | unlisted
  /-- Listed, and about to open a stream. -/
  | listed
  | watching
deriving DecidableEq, Repr, Inhabited

structure Feed (α : Type) where
  script : List (Step α) := []
  /-- How many steps were taken. -/
  taken : Nat := 0
  phase : Phase := .unlisted
deriving Inhabited

/-- What comes of asking for the next event. -/
inductive Poll (α : Type) where
  | event (event : WatchEvent α)
  /-- The stream is open, and nothing more will come. -/
  | silent
  /-- The script has no step for this. -/
  | stuck
deriving Repr

/-- The status code of a stream that lags too far behind. -/
def gone : Nat := 410

namespace Feed

variable {α : Type}

/-- The phase after an error in a stream. -/
def afterError (code : Nat) : Phase := if code = gone then .unlisted else .watching

/-- Takes steps until there is an event. A stream that ends is opened again without a word. -/
def pollFrom (phase : Phase) (taken : Nat) : List (Step α) → Poll α × Feed α
  | [] => (if phase = .unlisted then .stuck else .silent, ⟨[], taken, phase⟩)
  | step :: rest =>
    match phase, step with
    | .unlisted, .list objects => (.event (.restarted objects), ⟨rest, taken + 1, .listed⟩)
    | .unlisted, .refuseList code => (.event (.failed code), ⟨rest, taken + 1, .unlisted⟩)
    | .unlisted, _ => (.stuck, ⟨step :: rest, taken, .unlisted⟩)
    | .listed, .refuseWatch code => (.event (.failed code), ⟨rest, taken + 1, .listed⟩)
    | .watching, .refuseWatch _ => (.stuck, ⟨step :: rest, taken, .watching⟩)
    | _, .applied object => (.event (.applied object), ⟨rest, taken + 1, .watching⟩)
    | _, .deleted object => (.event (.deleted object), ⟨rest, taken + 1, .watching⟩)
    | _, .fail code => (.event (.failed code), ⟨rest, taken + 1, afterError code⟩)
    | _, .close => pollFrom .listed (taken + 1) rest
    | _, _ => (.silent, ⟨step :: rest, taken, .watching⟩)

def poll (feed : Feed α) : Poll α × Feed α := pollFrom feed.phase feed.taken feed.script

/-- A listing apart from the watch. -/
def list? (feed : Feed α) : Option (Except Nat (List α) × Feed α) :=
  match feed.script with
  | .list objects :: rest => some (.ok objects, { feed with script := rest, taken := feed.taken + 1 })
  | .refuseList code :: rest => some (.error code, { feed with script := rest, taken := feed.taken + 1 })
  | _ => none

end Feed

end PeerPool.Simulation
