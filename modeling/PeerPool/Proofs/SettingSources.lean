import PeerPool.Proofs.BoundedNumbers
import PeerPool.Proofs.SelectorTerms
import PeerPool.Settings.Sources

/-! Where settings come from. Each is taken from the first of its sources that has it: the environment, the file, the default.
What cannot be taken is told by the first check that fails, in an order that is not that of the settings; and nothing in a
file counts that the environment has a word on. -/

namespace PeerPool.Proofs.SettingSources
open Text Settings BoundedNumbers TextPieces SelectorTerms

variable {env : String → Option String} {file : FileSettings}

/-- A value from the first source that has one: the environment, whose texts are read in some way, the file, or the default. -/
inductive Taken {α : Type} (reads : String → α → Prop) (given : Option String) (stored default : Option α) (value : α) : Prop where
  | given {text : String} : given = some text → reads text value → Taken reads given stored default value
  | stored : given = none → stored = some value → Taken reads given stored default value
  | default : given = none → stored = none → default = some value → Taken reads given stored default value

/-- The text of a setting that may be left out. -/
def IsText (text : String) (value : Option String) : Prop := value = some text

/-- The place that the text names: a namespace and a name, with the first colon between them. -/
def Names (text : String) (place : Location) : Prop :=
  place.ns ++ ":" ++ place.name = text ∧ ':' ∉ place.ns.toList ∧ place.ns ≠ "" ∧ place.name ≠ ""

/-- The text that names where the configuration is, if it is anywhere. No text at all stands for the usual place. -/
def Located (text : String) (location : Option Location) : Prop :=
  ∀ place, location = some place ↔ Names (if text = "" then "metallb-system:config" else text) place

/-- Each setting comes from where it should. -/
structure Drawn (env : String → Option String) (file : FileSettings) (settings : Settings) : Prop where
  apiKey : Taken Eq (env apiKeyName) file.apiKey none settings.apiKey
  projectId : Taken Eq (env projectIdName) file.projectId none settings.projectId
  baseUrl : Taken Eq (env baseUrlName) file.baseUrl (some "https://api.equinix.com/metal/v1/") settings.baseUrl
  location : ∃ text, Taken Eq (env loadBalancerName) file.loadBalancer (some "") text ∧ Located text settings.location
  facility : Taken IsText (env facilityName) (file.facility.map some) (some none) settings.facility
  localAsn : Taken Denotes (env localAsnName) file.localAsn (some 65000) settings.localAsn
  peerAsn : Taken Denotes (env peerAsnName) file.peerAsn (some 65530) settings.peerAsn
  bgpPassword : Taken IsText (env bgpPasswordName) (file.bgpPassword.map some) (some none) settings.bgpPassword
  nodeSelector : ∃ text, Taken Eq (env nodeSelectorName) file.nodeSelector (some "") text ∧
    Selector.read text = .ok settings.nodeSelector
  providerTag : Taken Eq (env providerTagName) file.providerTag (some "usage=cloud-provider-equinix-metal-auto")
    settings.providerTag

/-- What is to be there and to be readable. -/
inductive Check where
  | nodeSelector
  | apiKey
  | projectId
  | localAsn
  | peerAsn
deriving DecidableEq

/-- The order of the checks. -/
def order : List Check := [.nodeSelector, .apiKey, .projectId, .localAsn, .peerAsn]

/-- The variable is given, but not as a number of 32 bits. -/
def Unread (env : String → Option String) (name : String) : Prop := ∃ text, env name = some text ∧ ∀ word, ¬ Denotes text word

/-- The check finds a fault. -/
def Fails (env : String → Option String) (file : FileSettings) : Check → Prop
  | .nodeSelector => ∃ text, Taken Eq (env nodeSelectorName) file.nodeSelector (some "") text ∧
      ∀ selector, Selector.read text ≠ .ok selector
  | .apiKey => env apiKeyName = none ∧ file.apiKey = none
  | .projectId => env projectIdName = none ∧ file.projectId = none
  | .localAsn => Unread env localAsnName
  | .peerAsn => Unread env peerAsnName

/-- What is told of a number that the environment gives. -/
def TellsNumber (env : String → Option String) (name : String) (error : SettingsError) : Prop :=
  ∃ text cause, env name = some text ∧ Misread text cause ∧ error = .invalidNumber name cause

/-- What is told of the fault that the check finds. -/
def Tells (env : String → Option String) (file : FileSettings) : Check → SettingsError → Prop
  | .nodeSelector, error => ∃ text cause, Taken Eq (env nodeSelectorName) file.nodeSelector (some "") text ∧
      Selector.read text = .error cause ∧ error = .invalidSelector cause
  | .apiKey, error => error = .missing apiKeyName
  | .projectId, error => error = .missing projectIdName
  | .localAsn, error => TellsNumber env localAsnName error
  | .peerAsn, error => TellsNumber env peerAsnName error

/-- This is told of the first of the checks that fail. -/
def FirstTells (env : String → Option String) (file : FileSettings) (checks : List Check) (error : SettingsError) : Prop :=
  ∃ before check after, checks = before ++ check :: after ∧ (∀ earlier ∈ before, ¬ Fails env file earlier) ∧
    Fails env file check ∧ Tells env file check error

/-- The files agree on what the environment leaves open. -/
structure Agree (env : String → Option String) (file other : FileSettings) : Prop where
  apiKey : env apiKeyName = none → other.apiKey = file.apiKey
  projectId : env projectIdName = none → other.projectId = file.projectId
  baseUrl : env baseUrlName = none → other.baseUrl = file.baseUrl
  loadBalancer : env loadBalancerName = none → other.loadBalancer = file.loadBalancer
  facility : env facilityName = none → other.facility = file.facility
  localAsn : env localAsnName = none → other.localAsn = file.localAsn
  peerAsn : env peerAsnName = none → other.peerAsn = file.peerAsn
  bgpPassword : env bgpPasswordName = none → other.bgpPassword = file.bgpPassword
  nodeSelector : env nodeSelectorName = none → other.nodeSelector = file.nodeSelector
  providerTag : env providerTagName = none → other.providerTag = file.providerTag

section

variable {α : Type} {reads : String → α → Prop} {given : Option String} {stored default : Option α} {value : α}

theorem taken_given {text : String} : Taken reads (some text) stored default value ↔ reads text value := by
  constructor
  · rintro (⟨⟨⟩, read⟩ | ⟨⟨⟩, _⟩ | ⟨⟨⟩, _⟩)
    exact read
  · exact .given rfl

theorem taken_open : Taken reads none stored default value ↔ stored.or default = some value := by
  constructor
  · rintro (⟨⟨⟩, _⟩ | ⟨_, rfl⟩ | ⟨_, rfl, rfl⟩) <;> rfl
  · cases stored with
    | none => exact .default rfl rfl
    | some known => exact .stored rfl

theorem taken_text {stored default : Option String} {text : String} :
    Taken Eq given stored default text ↔ (given.or stored).or default = some text := by
  cases given with
  | none => exact taken_open
  | some known => rw [taken_given, Option.some_or, Option.some_or, Option.some.injEq]

theorem taken_default {stored : Option String} {default text : String} :
    Taken Eq given stored (some default) text ↔ text = (given.or stored).getD default := by
  rw [taken_text, eq_comm (a := text)]
  cases given.or stored <;> simp

theorem taken_optional {stored : Option String} {value : Option String} :
    Taken IsText given (stored.map some) (some none) value ↔ value = given.or stored := by
  cases given with
  | none =>
    rw [taken_open, Option.none_or]
    cases stored <;> simp [eq_comm]
  | some text => exact taken_given

/-- Where the environment gives a value, the file does not count. -/
theorem taken_congr {other : Option α} (agree : given = none → other = stored) :
    Taken reads given other default value ↔ Taken reads given stored default value := by
  cases given with
  | none => rw [agree rfl]
  | some text => rw [taken_given, taken_given]

end

theorem read?_iff {text : String} {place : Location} : Location.read? text = some place ↔ Names text place := by
  obtain ⟨ns, name⟩ := place
  have written : text = ns ++ ":" ++ name ↔ text.toList = ns.toList ++ ':' :: name.toList := by
    rw [← String.toList_inj, String.toList_append, String.toList_append, List.append_assoc]
    rfl
  unfold Location.read? Names
  simp only
  rw [eq_comm (b := text), written]
  split
  next before after found =>
    have halves : text.toList = ns.toList ++ ':' :: name.toList ∧ ':' ∉ ns.toList ↔ before = ns.toList ∧ after = name.toList := by
      rw [← splitOnce_iff, found, Option.some.injEq, Prod.mk.injEq]
    rw [← and_assoc, halves]
    split
    next empty =>
      refine ⟨nofun, ?_⟩
      rintro ⟨⟨rfl, rfl⟩, front, back⟩
      simp [front, back] at empty
    next filled =>
      rw [Option.some.injEq, Location.mk.injEq, ofList_eq_iff, ofList_eq_iff]
      refine ⟨?_, fun ⟨same, _⟩ => same⟩
      rintro ⟨rfl, rfl⟩
      refine ⟨⟨rfl, rfl⟩, ?_, ?_⟩
      · rintro rfl
        exact filled rfl
      · rintro rfl
        exact filled (Bool.or_true _)
  next absent =>
    refine ⟨nofun, ?_⟩
    rintro ⟨whole, new, _⟩
    rw [splitOnce_iff.mpr ⟨whole, new⟩] at absent
    cases absent

theorem located_iff {text : String} {location : Option Location} :
    Located text location ↔ location = Location.read? (if text = "" then "metallb-system:config" else text) := by
  constructor
  · intro located
    apply Option.ext
    intro place
    rw [located place, read?_iff]
  · rintro rfl place
    exact read?_iff

section

variable {checks : List Check} {check : Check} {error : SettingsError}

theorem firstTells_nil : ¬ FirstTells env file [] error := by
  rintro ⟨before, check, after, none, _⟩
  exact absurd none.symm (List.append_ne_nil_of_right_ne_nil _ (List.cons_ne_nil _ _))

theorem firstTells_cons : FirstTells env file (check :: checks) error ↔
    Fails env file check ∧ Tells env file check error ∨ ¬ Fails env file check ∧ FirstTells env file checks error := by
  constructor
  · rintro ⟨_ | ⟨first, before⟩, other, after, same, passed, fails, tells⟩
    · cases same
      exact .inl ⟨fails, tells⟩
    · cases same
      obtain ⟨sound, passed⟩ := List.forall_mem_cons.mp passed
      exact .inr ⟨sound, before, other, after, rfl, passed, fails, tells⟩
  · rintro (⟨fails, tells⟩ | ⟨sound, before, other, after, rfl, passed, fails, tells⟩)
    · exact ⟨[], check, checks, rfl, List.forall_mem_nil _, fails, tells⟩
    · exact ⟨check :: before, other, after, rfl, List.forall_mem_cons.mpr ⟨sound, passed⟩, fails, tells⟩

end

/-- The result is an error if one of the checks fails, as the first of these tells it, and otherwise what is promised. -/
structure Decides {α : Type} (env : String → Option String) (file : FileSettings) (checks : List Check)
    (result : Except SettingsError α) (post : α → Prop) : Prop where
  error : ∀ error, result = .error error ↔ FirstTells env file checks error
  ok : ∀ value, result = .ok value ↔ (∀ check ∈ checks, ¬ Fails env file check) ∧ post value

section

variable {α β : Type} {checks : List Check} {check : Check} {post : α → Prop}

/-- One more check in front of others. -/
theorem Decides.bind {result : Except SettingsError α} {next : α → Except SettingsError β} {last : β → Prop}
    (errors : ∀ error, result = .error error ↔ Fails env file check ∧ Tells env file check error)
    (oks : ∀ value, result = .ok value → ¬ Fails env file check ∧ post value)
    (later : ∀ value, post value → Decides env file checks (next value) last) :
    Decides env file (check :: checks) (result >>= next) last := by
  cases result with
  | error error =>
    obtain ⟨fails, _⟩ := (errors error).mp rfl
    constructor
    · intro other
      have same : (Except.error error : Except SettingsError β) = .error other ↔
          (Except.error error : Except SettingsError α) = .error other := by
        rw [Except.error.injEq, Except.error.injEq]
      rw [firstTells_cons, ← errors other, ← same]
      exact ⟨.inl, fun first => first.elim id fun ⟨sound, _⟩ => absurd fails sound⟩
    · exact fun value => ⟨nofun, fun ⟨sound, _⟩ => absurd fails (sound check (List.mem_cons_self ..))⟩
  | ok value =>
    obtain ⟨sound, holds⟩ := oks value rfl
    have decides := later value holds
    constructor
    · intro other
      rw [firstTells_cons, ← decides.error other]
      exact ⟨fun failed => .inr ⟨sound, failed⟩, fun first => first.elim (fun ⟨fails, _⟩ => absurd fails sound) And.right⟩
    · intro final
      rw [List.forall_mem_cons, and_iff_right sound]
      exact decides.ok final

end

section

variable {name : String} {error : SettingsError}

/-- What the environment gives for a number is read, and nothing where it gives none. -/
def Spelled (given : Option String) (number : Option UInt32) : Prop :=
  match given with
  | none => number = none
  | some text => ∃ word, Denotes text word ∧ number = some word

theorem unread_given {text : String} (given : env name = some text) : Unread env name ↔ ∀ word, word32 text ≠ .ok word := by
  simp only [Unread, given, Option.some.injEq, exists_eq_left', Ne, word32_ok_iff]

theorem tellsNumber_given {text : String} (given : env name = some text) :
    TellsNumber env name error ↔ ∃ cause, word32 text = .error cause ∧ error = .invalidNumber name cause := by
  simp only [TellsNumber, given, Option.some.injEq, exists_and_left, exists_eq_left', word32_error_iff]

theorem number_error : number env name = .error error ↔ Unread env name ∧ TellsNumber env name error := by
  cases given : env name with
  | none =>
    simp [number, Unread, given]
  | some text =>
    simp only [unread_given given, tellsNumber_given given, number, given]
    cases word32 text with
    | ok word => simp
    | error cause => simp [eq_comm]

theorem number_ok {read : Option UInt32} (ok : number env name = .ok read) : ¬ Unread env name ∧ Spelled (env name) read := by
  cases given : env name with
  | none =>
    rw [number, given] at ok
    cases ok
    refine ⟨?_, rfl⟩
    rintro ⟨text, known, _⟩
    cases given.symm.trans known
  | some text =>
    rw [number, given] at ok
    rw [unread_given given]
    cases known : word32 text with
    | ok word =>
      simp only [known] at ok
      cases ok
      exact ⟨fun unread => unread word rfl, word, word32_ok_iff.mp known, rfl⟩
    | error cause =>
      simp only [known] at ok
      cases ok

/-- The number that is taken is what was read, or else comes from the other sources. -/
theorem taken_spelled {given : Option String} {read stored : Option UInt32} (spelled : Spelled given read) (default word : UInt32) :
    Taken Denotes given stored (some default) word ↔ word = (read.or stored).getD default := by
  cases given with
  | none =>
    cases spelled
    rw [taken_open, Option.none_or]
    cases stored <;> simp [eq_comm]
  | some text =>
    obtain ⟨known, denotes, rfl⟩ := spelled
    rw [taken_given, Option.some_or, Option.getD_some, ← word32_ok_iff, word32_ok_iff.mpr denotes, Except.ok.injEq, eq_comm]

end

section

variable {name : String} {value : Option String} {error : SettingsError}

theorem required_error {stored : Option String} :
    required name (value.or stored) = .error error ↔ (value = none ∧ stored = none) ∧ error = .missing name := by
  rw [← Option.or_eq_none_iff]
  cases value.or stored <;> simp [required, eq_comm]

theorem required_ok {stored : Option String} {text : String} (ok : required name (value.or stored) = .ok text) :
    ¬ (value = none ∧ stored = none) ∧ value.or stored = some text := by
  rw [← Option.or_eq_none_iff]
  cases known : value.or stored with
  | none =>
    rw [known] at ok
    cases ok
  | some found =>
    rw [known] at ok
    cases ok
    exact ⟨nofun, rfl⟩

theorem selector_error {stored : Option String} : selector ((value.or stored).getD "") = .error error ↔
    (∃ text, Taken Eq value stored (some "") text ∧ ∀ selector, Selector.read text ≠ .ok selector) ∧
      ∃ text cause, Taken Eq value stored (some "") text ∧ Selector.read text = .error cause ∧ error = .invalidSelector cause := by
  simp only [taken_default, exists_eq_left, exists_and_left]
  unfold selector
  generalize (value.or stored).getD "" = text
  cases Selector.read text with
  | ok selector => simp
  | error cause => simp [eq_comm]

theorem selector_ok {stored : Option String} {read : Selector} (ok : selector ((value.or stored).getD "") = .ok read) :
    ¬ (∃ text, Taken Eq value stored (some "") text ∧ ∀ selector, Selector.read text ≠ .ok selector) ∧
      Selector.read ((value.or stored).getD "") = .ok read := by
  simp only [taken_default, exists_eq_left]
  unfold selector at ok
  generalize (value.or stored).getD "" = text at ok ⊢
  cases known : Selector.read text with
  | ok selector =>
    rw [known] at ok
    cases ok
    exact ⟨fun none => none _ rfl, rfl⟩
  | error cause =>
    rw [known] at ok
    cases ok

end

/-- What the checks let through. -/
structure Passed where
  nodeSelector : Selector
  apiKey : String
  projectId : String
  localAsn : Option UInt32
  peerAsn : Option UInt32

structure Passes (env : String → Option String) (file : FileSettings) (passed : Passed) : Prop where
  nodeSelector : Selector.read (((env nodeSelectorName).or file.nodeSelector).getD "") = .ok passed.nodeSelector
  apiKey : (env apiKeyName).or file.apiKey = some passed.apiKey
  projectId : (env projectIdName).or file.projectId = some passed.projectId
  localAsn : Spelled (env localAsnName) passed.localAsn
  peerAsn : Spelled (env peerAsnName) passed.peerAsn

/-- The settings with what the checks let through, and the others from their sources. -/
def assembled (env : String → Option String) (file : FileSettings) (passed : Passed) : Settings where
  apiKey := passed.apiKey
  projectId := passed.projectId
  baseUrl := ((env baseUrlName).or file.baseUrl).getD "https://api.equinix.com/metal/v1/"
  location := locationOf { apiKey := "", projectId := "" } ((env loadBalancerName).or file.loadBalancer)
  facility := (env facilityName).or file.facility
  localAsn := (passed.localAsn.or file.localAsn).getD 65000
  peerAsn := (passed.peerAsn.or file.peerAsn).getD 65530
  bgpPassword := (env bgpPasswordName).or file.bgpPassword
  nodeSelector := passed.nodeSelector
  providerTag := ((env providerTagName).or file.providerTag).getD "usage=cloud-provider-equinix-metal-auto"

theorem ofSources_eq (env : String → Option String) (file : FileSettings) : ofSources env file = (do
    let nodeSelector ← selector (((env nodeSelectorName).or file.nodeSelector).getD "")
    let apiKey ← required apiKeyName ((env apiKeyName).or file.apiKey)
    let projectId ← required projectIdName ((env projectIdName).or file.projectId)
    let localAsn ← number env localAsnName
    let peerAsn ← number env peerAsnName
    return assembled env file ⟨nodeSelector, apiKey, projectId, localAsn, peerAsn⟩) := rfl

theorem locationOf_eq (text : Option String) : locationOf { apiKey := "", projectId := "" } text =
    Location.read? (if text.getD "" = "" then "metallb-system:config" else text.getD "") := by
  have usual : Location.read? "metallb-system:config" = some ⟨"metallb-system", "config"⟩ := by decide
  unfold locationOf
  cases text with
  | none => exact usual.symm
  | some text =>
    by_cases empty : text = ""
    · subst empty
      exact usual.symm
    · simp [Option.filter, empty]

theorem drawn_iff {passed : Passed} (passes : Passes env file passed) {settings : Settings} :
    Drawn env file settings ↔ settings = assembled env file passed := by
  have keyed (key : String) : Taken Eq (env apiKeyName) file.apiKey none key ↔ key = passed.apiKey := by
    rw [taken_text, Option.or_none, passes.apiKey, Option.some.injEq, eq_comm]
  have owned (project : String) : Taken Eq (env projectIdName) file.projectId none project ↔ project = passed.projectId := by
    rw [taken_text, Option.or_none, passes.projectId, Option.some.injEq, eq_comm]
  have placed (location : Option Location) :
      (∃ text, Taken Eq (env loadBalancerName) file.loadBalancer (some "") text ∧ Located text location) ↔
        location = (assembled env file passed).location := by
    simp only [taken_default, exists_eq_left, located_iff, assembled, locationOf_eq]
  have selected (selector : Selector) :
      (∃ text, Taken Eq (env nodeSelectorName) file.nodeSelector (some "") text ∧ Selector.read text = .ok selector) ↔
        selector = passed.nodeSelector := by
    simp only [taken_default, exists_eq_left]
    rw [passes.nodeSelector, Except.ok.injEq, eq_comm]
  constructor
  · intro drawn
    cases settings
    rw [assembled, Settings.mk.injEq]
    exact ⟨(keyed _).mp drawn.apiKey, (owned _).mp drawn.projectId, taken_default.mp drawn.baseUrl, (placed _).mp drawn.location,
      taken_optional.mp drawn.facility, (taken_spelled passes.localAsn _ _).mp drawn.localAsn,
      (taken_spelled passes.peerAsn _ _).mp drawn.peerAsn, taken_optional.mp drawn.bgpPassword, (selected _).mp drawn.nodeSelector,
      taken_default.mp drawn.providerTag⟩
  · rintro rfl
    exact {
      apiKey := (keyed _).mpr rfl
      projectId := (owned _).mpr rfl
      baseUrl := taken_default.mpr rfl
      location := (placed _).mpr rfl
      facility := taken_optional.mpr rfl
      localAsn := (taken_spelled passes.localAsn _ _).mpr rfl
      peerAsn := (taken_spelled passes.peerAsn _ _).mpr rfl
      bgpPassword := taken_optional.mpr rfl
      nodeSelector := (selected _).mpr rfl
      providerTag := taken_default.mpr rfl }

theorem ofSources_decides (env : String → Option String) (file : FileSettings) :
    Decides env file order (ofSources env file) (Drawn env file) := by
  rw [ofSources_eq]
  refine Decides.bind (fun error => selector_error) (fun _ => selector_ok) fun nodeSelector selected => ?_
  refine Decides.bind (fun error => required_error) (fun _ => required_ok) fun apiKey keyed => ?_
  refine Decides.bind (fun error => required_error) (fun _ => required_ok) fun projectId owned => ?_
  refine Decides.bind (fun error => number_error) (fun _ => number_ok) fun localAsn here => ?_
  refine Decides.bind (fun error => number_error) (fun _ => number_ok) fun peerAsn there => ?_
  have passes : Passes env file ⟨nodeSelector, apiKey, projectId, localAsn, peerAsn⟩ := ⟨selected, keyed, owned, here, there⟩
  constructor
  · exact fun error => ⟨nofun, fun first => absurd first firstTells_nil⟩
  · intro settings
    rw [drawn_iff passes, and_iff_right (List.forall_mem_nil _), eq_comm (a := settings)]
    change Except.ok _ = Except.ok settings ↔ _
    rw [Except.ok.injEq]

theorem mem_order (check : Check) : check ∈ order := by
  cases check <;> decide

section

variable {other : FileSettings} {check : Check} {error : SettingsError} {settings : Settings} (agree : Agree env file other)
include agree

theorem fails_agree : Fails env other check ↔ Fails env file check := by
  cases check with
  | nodeSelector => simp only [Fails, taken_congr agree.nodeSelector]
  | apiKey => exact and_congr_right fun silent => by rw [agree.apiKey silent]
  | projectId => exact and_congr_right fun silent => by rw [agree.projectId silent]
  | localAsn => exact .rfl
  | peerAsn => exact .rfl

theorem tells_agree : Tells env other check error ↔ Tells env file check error := by
  cases check with
  | nodeSelector => simp only [Tells, taken_congr agree.nodeSelector]
  | _ => exact .rfl

theorem firstTells_agree (checks : List Check) : FirstTells env other checks error ↔ FirstTells env file checks error := by
  simp only [FirstTells, fails_agree agree, tells_agree agree]

theorem Drawn.carried (drawn : Drawn env file settings) : Drawn env other settings where
  apiKey := (taken_congr agree.apiKey).mpr drawn.apiKey
  projectId := (taken_congr agree.projectId).mpr drawn.projectId
  baseUrl := (taken_congr agree.baseUrl).mpr drawn.baseUrl
  location := by
    obtain ⟨text, taken, located⟩ := drawn.location
    exact ⟨text, (taken_congr agree.loadBalancer).mpr taken, located⟩
  facility := (taken_congr fun silent => congrArg _ (agree.facility silent)).mpr drawn.facility
  localAsn := (taken_congr agree.localAsn).mpr drawn.localAsn
  peerAsn := (taken_congr agree.peerAsn).mpr drawn.peerAsn
  bgpPassword := (taken_congr fun silent => congrArg _ (agree.bgpPassword silent)).mpr drawn.bgpPassword
  nodeSelector := by
    obtain ⟨text, taken, read⟩ := drawn.nodeSelector
    exact ⟨text, (taken_congr agree.nodeSelector).mpr taken, read⟩
  providerTag := (taken_congr agree.providerTag).mpr drawn.providerTag

end

/-- Settings fail on the first check that does, and otherwise each of them comes from the first of its sources that has it. What
the environment gives takes the place of what the file says, whatever that is. -/
theorem settings_drawn (env : String → Option String) (file : FileSettings) :
    ((∃ error, ofSources env file = .error error) ↔ ∃ check, Fails env file check) ∧
    (∀ error, ofSources env file = .error error ↔ FirstTells env file order error) ∧
    (∀ settings, ofSources env file = .ok settings ↔ (∀ check, ¬ Fails env file check) ∧ Drawn env file settings) ∧
    ∀ other, Agree env file other → ofSources env other = ofSources env file := by
  have decides := ofSources_decides env file
  have oks (settings : Settings) : ofSources env file = .ok settings ↔ (∀ check, ¬ Fails env file check) ∧ Drawn env file settings := by
    rw [decides.ok settings]
    exact and_congr_left' ⟨fun sound check => sound check (mem_order check), fun sound check _ => sound check⟩
  refine ⟨⟨?_, ?_⟩, decides.error, oks, ?_⟩
  · rintro ⟨error, failed⟩
    obtain ⟨_, check, _, _, _, fails, _⟩ := (decides.error error).mp failed
    exact ⟨check, fails⟩
  · rintro ⟨check, fails⟩
    cases result : ofSources env file with
    | error error => exact ⟨error, rfl⟩
    | ok settings => exact absurd fails (((oks settings).mp result).1 check)
  · intro other agree
    have others := ofSources_decides env other
    cases result : ofSources env file with
    | error error =>
      have first := (decides.error error).mp result
      exact (others.error error).mpr ((firstTells_agree agree order).mpr first)
    | ok settings =>
      obtain ⟨sound, drawn⟩ := (oks settings).mp result
      exact (others.ok settings).mpr ⟨fun check _ => mt (fails_agree agree).mp (sound check), drawn.carried agree⟩

section

/-- An environment that gives a key, a number with a sign and an empty place. -/
def given (name : String) : Option String :=
  [(apiKeyName, "key"), (localAsnName, "+64512"), (loadBalancerName, "")].lookup name

def older : FileSettings where
  apiKey := some "stale"
  projectId := some "project"
  loadBalancer := some "balancers:pools"
  localAsn := some 1
  facility := some "ny5"

def newer : FileSettings := { older with apiKey := none, loadBalancer := some "off", localAsn := none }

end

/-- Of two files that differ in what the environment gives anyway, neither counts for that. -/
theorem settings_drawn_given : Agree given older newer ∧ ofSources given newer = ofSources given older ∧
    ofSources given older = .ok { apiKey := "key", projectId := "project", facility := some "ny5", localAsn := 64512 } := by
  have agree : Agree given older newer := by
    constructor <;> decide
  exact ⟨agree, (settings_drawn given older).2.2.2 newer agree, by rfl⟩

end PeerPool.Proofs.SettingSources
