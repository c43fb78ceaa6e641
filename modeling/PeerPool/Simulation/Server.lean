import PeerPool.Http.Backend

/-! An API server that answers from a script. The provider is out of reach. -/

namespace PeerPool.Simulation

open Http (Method Target Request Response)

/-- The answers to each request, by method and path. The last answer to a request stays. -/
structure Server where
  answers : List (String × List Response) := []
deriving DecidableEq, Repr, Inhabited

/-- The answer to a request that the script says nothing of. -/
def unknown : Response :=
  ⟨404, (Json.obj [("status", .str "Failure"), ("message", .str "not found"), ("reason", .str "NotFound"),
    ("code", .ofNat 404)]).write⟩

/-- What a script lists its answers under. -/
def Server.key (method : Method) (path : String) : String := s!"{method.write} {path}"

/-- The answer that is taken next, and those that are left. -/
def take : List Response → Option Response × List Response
  | [] => (none, [])
  | [last] => (some last, [last])
  | next :: rest => (some next, rest)

def takeUnder (key : String) : List (String × List Response) → Option Response × List (String × List Response)
  | [] => (none, [])
  | (other, answers) :: rest =>
    if other = key then
      let (answer, left) := take answers
      (answer, (other, left) :: rest)
    else
      let (answer, left) := takeUnder key rest
      (answer, (other, answers) :: left)

def Server.answer (server : Server) (request : Request) : Http.Reply request × Server :=
  match request.target with
  | .provider _ _ => (none, server)
  | .cluster path _ =>
    let (answer, left) := takeUnder (key request.method path) server.answers
    (some (answer.getD unknown), ⟨left⟩)

end PeerPool.Simulation
