import PeerPool.Selector.Read
import PeerPool.Settings.Basic
import PeerPool.Settings.File

/-! Settings from their sources: what the environment gives goes before what a file
gives, and that before the default. -/

namespace PeerPool

/-- Why there are no settings to run with. -/
inductive SettingsError where
  | missing (name : String)
  | invalidNumber (name : String) (error : Text.NumberError)
  | invalidSelector (error : SelectorError)
  /-- The file that the environment names cannot be read. -/
  | unreadableFile
  | invalidFile
deriving DecidableEq, Repr

def SettingsError.message : SettingsError → String
  | .missing name => s!"Required setting unavailable: {name}"
  | .invalidNumber name error => s!"{name} must be a number! {error.message}"
  | .invalidSelector error => s!"BGP node selector must be a valid Kubernetes selector! {error.message}"
  | .unreadableFile => "Couldn't read the config file!"
  | .invalidFile => "Couldn't parse the config file!"

namespace Settings

/-- The names of the variables that settings are taken from. -/
def apiKeyName : String := "METAL_API_KEY"
def projectIdName : String := "METAL_PROJECT_ID"
def baseUrlName : String := "METAL_BASE_URL"
def loadBalancerName : String := "METAL_LB"
def facilityName : String := "METAL_FACILITY_NAME"
def localAsnName : String := "METAL_LOCAL_ASN"
def peerAsnName : String := "METAL_PEER_ASN"
def bgpPasswordName : String := "METAL_BGP_PASS"
def nodeSelectorName : String := "METAL_BGP_NODE_SELECTOR"
def providerTagName : String := "METAL_PROVIDER_TAG"

/-- The variable that names the settings file. -/
def fileName : String := "METAL_CLOUD_CONFIG"

/-- All variables that count. -/
def variableNames : List String :=
  [fileName, apiKeyName, projectIdName, baseUrlName, loadBalancerName, facilityName, localAsnName, peerAsnName,
   bgpPasswordName, nodeSelectorName, providerTagName]

def required (name : String) (value : Option String) : Except SettingsError String :=
  match value with
  | some value => .ok value
  | none => .error (.missing name)

/-- A number that the environment may give. -/
def number (env : String → Option String) (name : String) : Except SettingsError (Option UInt32) :=
  match env name with
  | none => .ok none
  | some text =>
    match Text.word32 text with
    | .ok value => .ok (some value)
    | .error error => .error (.invalidNumber name error)

def selector (text : String) : Except SettingsError Selector :=
  match Selector.read text with
  | .ok selector => .ok selector
  | .error error => .error (.invalidSelector error)

/-- A text that names no place, unless it is empty, turns the management of the configuration off. -/
def locationOf (defaults : Settings) (text : Option String) : Option Location :=
  match text.filter (!·.isEmpty) with
  | some text => Location.read? text
  | none => defaults.location

/-- The settings from an environment and a file. Of several faults the first is told, in
the order selector, API key, project, local and remote ASN. -/
def ofSources (env : String → Option String) (file : FileSettings) : Except SettingsError Settings := do
  let defaults : Settings := { apiKey := "", projectId := "" }
  let nodeSelector ← selector (((env nodeSelectorName).or file.nodeSelector).getD "")
  let apiKey ← required apiKeyName ((env apiKeyName).or file.apiKey)
  let projectId ← required projectIdName ((env projectIdName).or file.projectId)
  let localAsn ← number env localAsnName
  let peerAsn ← number env peerAsnName
  return {
    apiKey := apiKey
    projectId := projectId
    baseUrl := ((env baseUrlName).or file.baseUrl).getD defaults.baseUrl
    location := locationOf defaults ((env loadBalancerName).or file.loadBalancer)
    facility := (env facilityName).or file.facility
    localAsn := (localAsn.or file.localAsn).getD defaults.localAsn
    peerAsn := (peerAsn.or file.peerAsn).getD defaults.peerAsn
    bgpPassword := (env bgpPasswordName).or file.bgpPassword
    nodeSelector := nodeSelector
    providerTag := ((env providerTagName).or file.providerTag).getD defaults.providerTag }

/-- The name of the settings file, which counts as given even if it is empty. -/
def file? (env : String → Option String) : Option String := env fileName

/-- The settings of a process. `contents` is what the file that the environment names
holds, if it can be read. An empty variable counts as not given. -/
def ofEnvironment (env : String → Option String) (contents : Option String) : Except SettingsError Settings := do
  let file ← match file? env, contents with
    | none, _ => .ok {}
    | some _, none => .error .unreadableFile
    | some _, some text =>
      match FileSettings.read? text with
      | some file => .ok file
      | none => .error .invalidFile
  ofSources (fun name => (env name).filter (!·.isEmpty)) file

end Settings

end PeerPool
