import PeerPool.Json.Basic

/-! Merge patches. A patch that is an object changes the members it names: null removes
a member, an object is merged into it, anything else replaces it. A patch of another
kind replaces the whole value. -/

namespace PeerPool.Json

def erase (members : List (String × Json)) (name : String) : List (String × Json) :=
  members.filter (·.1 != name)

mutual

def mergePatch (target : Json) : Json → Json
  | .obj changes =>
    let members := match target with
      | .obj members => members
      | _ => []
    .obj (mergeMembers members changes)
  | patch => patch

def mergeMembers (members : List (String × Json)) : List (String × Json) → List (String × Json)
  | [] => members
  | (name, .null) :: rest => mergeMembers (erase members name) rest
  | (name, change) :: rest =>
    let merged := mergePatch ((member? members name).getD .null) change
    mergeMembers (erase members name ++ [(name, merged)]) rest

end

end PeerPool.Json
