import PeerPool.Text.Number

/-! Why the provider of the machines does not do what it is asked. -/

namespace PeerPool.Provider

inductive Error where
  /-- No answer came. -/
  | unreachable
  /-- The answer was a success, but not one that can be read. -/
  | unreadable
  | refused (status : Nat) (message : String)
  | invalidId (id : String)
  | invalidUrl (url : String)
deriving DecidableEq, Repr

def Error.message : Error → String
  | .unreachable => "Provider API request failed! Reason: no answer"
  | .unreadable => "Provider API request failed! Reason: the answer can't be read"
  | .refused status message => s!"Provider API returned {status}: {message}"
  | .invalidId id => s!"'{id}' isn't a valid provider ID!"
  | .invalidUrl url => s!"'{url}' isn't a valid provider API URL!"

end PeerPool.Provider
