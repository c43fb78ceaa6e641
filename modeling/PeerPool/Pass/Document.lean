import PeerPool.Json.Write
import PeerPool.Pass.Basic

/-! The configuration where the cluster stores it: one field of an object, written back as
a merge patch that touches nothing else. -/

namespace PeerPool

/-- The field that holds the configuration. -/
def configField : String := "config"

/-- The patch that replaces the configuration and nothing else. -/
def configPatch (text : String) : Json := .obj [("data", .obj [(configField, .str text)])]

namespace Pass

def load (name : String) : Pass Config := do
  debug s!"Loading load balancer configuration from '{name}'..."
  let text ← check .documentStore (← ask (.loadDocument name))
  check .invalidDocument (Config.read text)

def save (name : String) (config : Config) : Pass Unit := do
  let patch := configPatch config.write
  info s!"Patching load balancer configuration in '{name}'..."
  debug patch.write
  check .documentStore (← ask (.patchDocument name patch))

end Pass

end PeerPool
