import PeerPool.Http.Backend
import PeerPool.Proofs.ConfigRoundTrip
import PeerPool.Proofs.JsonText
import PeerPool.Proofs.MergePatches
import PeerPool.Simulation.Server

/-! The configuration in an object that it shares with others. A patch goes down to its field and no further, so the rest of
the object is what it was, and the object stays one that the agent can read. Saved there over HTTP and loaded again, the
configuration is the one that was saved. -/

namespace PeerPool.Proofs.SharedConfigMaps
open Cluster MergePatches PassLogic PassDocument

/-- The last of the entries is in the map, whatever the others are. -/
theorem get?_ofList {α : Type} (entries : List (String × α)) (name : String) (value : α) :
    (Dict.ofList (entries ++ [(name, value)])).get? name = some value := by
  rw [Dict.ofList, List.foldl_append]
  exact Dict.get?_insert _ name value

/-! The object as the agent reads it. -/

section

variable {object saved : Json} {text : String}

theorem decode_iff {map : ConfigMap} : ConfigMap.decode? object = some map ↔
    object.members?.isSome ∧ isOfKind "ConfigMap" object = true ∧ (object.optional? "metadata" Metadata.decode?).isSome ∧
      object.optional? "data" Json.dict? = some map.data := by
  obtain ⟨data⟩ := map
  rw [ConfigMap.decode?]
  cases object.members? with
  | none => simp
  | some members =>
    cases isOfKind "ConfigMap" object with
    | false => simp
    | true =>
      cases object.optional? "metadata" Metadata.decode? with
      | none => simp
      | some metadata => cases object.optional? "data" Json.dict? <;> simp

/-- A field is read from the member of its name. -/
theorem optional_congr {α : Type} {name : String} (same : saved.get? name = object.get? name) (decode : Json → Option α) :
    saved.optional? name decode = object.optional? name decode := by
  rw [Json.optional?, Json.optional?, Json.field?, Json.field?, same]

/-- The entry of a map of texts, if the member is a text. -/
def textOf? (member : String × Json) : Option (String × String) := member.2.str?.map (member.1, ·)

theorem dict?_object (members : List (String × Json)) : Json.dict? (.obj members) = (members.mapM textOf?).map .ofList := by
  rw [Json.dict?, Json.members?, Option.bind_eq_bind, Option.bind_some]
  change (members.mapM textOf?).bind _ = _
  cases members.mapM textOf? <;> rfl

theorem mapM_texts (members : List (String × Json)) :
    (∃ entries, members.mapM textOf? = some entries) ↔ ∀ member ∈ members, ∃ text, member.2 = .str text := by
  induction members with
  | nil => simp
  | cons member members ih =>
    obtain ⟨name, value⟩ := member
    rw [List.forall_mem_cons, ← ih, List.mapM_cons]
    cases value <;> simp [textOf?, Json.str?, Option.bind_eq_some_iff]

/-- One text more, in the place of those of its name, leaves a map of texts. -/
theorem dict?_put {members : List (String × Json)} (texts : ∀ member ∈ members, ∃ text, member.2 = .str text) (name text : String) :
    ∃ dict, Json.dict? (.obj (Json.erase members name ++ [(name, .str text)])) = some dict ∧ dict.get? name = some text := by
  have others : ∀ member ∈ Json.erase members name, ∃ text, member.2 = .str text :=
    fun member kept => texts member (List.mem_filter.mp kept).1
  obtain ⟨entries, read⟩ := (mapM_texts _).mpr others
  refine ⟨.ofList (entries ++ [(name, text)]), ?_, get?_ofList entries name text⟩
  rw [dict?_object, List.mapM_append, read]
  rfl

theorem texts_of_known {map : ConfigMap} (known : ConfigMap.decode? object = some map) :
    ∀ member ∈ membersOf ((object.get? "data").getD .null), ∃ text, member.2 = .str text := by
  obtain ⟨-, -, -, data⟩ := decode_iff.mp known
  rw [Json.optional?, Json.field?] at data
  cases found : object.get? "data" with
  | none => exact List.forall_mem_nil _
  | some value =>
    rw [found] at data
    cases value with
    | obj members =>
      obtain ⟨dict, read, -⟩ := Option.map_eq_some_iff.mp data
      rw [dict?_object] at read
      obtain ⟨entries, each, -⟩ := Option.map_eq_some_iff.mp read
      exact (mapM_texts members).mp ⟨entries, each⟩
    | _ => exact List.forall_mem_nil _

theorem decode_saved {map : ConfigMap} (known : ConfigMap.decode? object = some map) (text : String) :
    ∃ dict, ConfigMap.decode? (Json.mergePatch object (configPatch text)) = some ⟨some dict⟩ ∧
      dict.get? configField = some text := by
  have patch : configPatch text = setting ["data", configField] text := rfl
  obtain ⟨dict, read, found⟩ := dict?_put (texts_of_known known) configField text
  refine ⟨dict, ?_, found⟩
  obtain ⟨-, kind, metadata, -⟩ := decode_iff.mp known
  have apart {name : String} (other : name ≠ "data") : (Json.mergePatch object (configPatch text)).get? name = object.get? name :=
    get?_mergePatch (by simpa using other)
  have within : (Json.mergePatch object (configPatch text)).get? "data" =
      some (.obj (Json.erase (membersOf ((object.get? "data").getD .null)) configField ++ [(configField, .str text)])) := by
    rw [patch, setting, get?_single _ _ (setting_some _ _), setting, mergePatch_single _ _ (setting_some _ _)]
    rfl
  refine decode_iff.mpr ⟨?_, ?_, ?_, ?_⟩
  · rw [patch, setting, mergePatch_object]
    rfl
  · rw [isOfKind, apart (by decide), apart (by decide)]
    exact kind
  · rw [optional_congr (apart (by decide))]
    exact metadata
  · rw [Json.optional?, Json.field?, within]
    simp [read]

end

/-! Saved and loaded over HTTP. -/

/-- A server that keeps one object at a path. It writes the object in a way of its own, and merges a patch into it. -/
def keeper (path : String) (write : Json → String) (object : Json) : (request : Http.Request) → Http.Reply request × Json
  | ⟨.get, .cluster asked _, none⟩ => if asked = path then (some ⟨200, write object⟩, object) else (some Simulation.unknown, object)
  | ⟨.patch, .cluster asked _, some ⟨mediaType, patch⟩⟩ =>
    if asked = path ∧ mediaType = "application/merge-patch+json" then
      (some ⟨200, write (Json.mergePatch object patch)⟩, Json.mergePatch object patch)
    else (some Simulation.unknown, object)
  | _ => (none, object)

/-- A request that can be sent is sent, and what comes of it is the outcome of its answer. -/
theorem send_eq {α : Type} (decode : Json → Option α) (method : Http.Method) {path : String} (query : List String)
    (body : Option Http.Body) (named : path.toList.all isPathChar = true) :
    send decode method path query body = .ask ⟨method, .cluster path query, body⟩ fun reply => .done (outcome decode reply) := by
  rw [send, if_pos named]
  rfl

theorem outcome_told {α : Type} {decode : Json → Option α} {text : String} {json : Json} {value : α}
    (told : Json.read? text = some json) (decoded : decode json = some value) : outcome decode (some ⟨200, text⟩) = .ok value := by
  have fine : isRefusal ⟨200, text⟩ = false := rfl
  simp [outcome, fine, told, decoded]

/-- What the calls of a pass come to where they are made over HTTP. -/
def served (backend : Http.Backend) (path : String) (write : Json → String) : Answers Json := fun object call =>
  let reply := (backend.answer call).trace (keeper path write) object
  (reply.value, reply.state)

theorem trace_served {α : Type} (backend : Http.Backend) (path : String) (write : Json → String) (pass : Pass α) (object : Json) :
    let run := (pass.run.expand backend.answer).trace (keeper path write) object
    (run.value, run.state) = effect (served backend path write) object pass := by
  obtain ⟨value, last⟩ := Program.trace_expand (keeper path write) backend.answer pass.run object
  exact Prod.ext value last

section

variable {backend : Http.Backend} {name : String} {write : Json → String} {object : Json} {map : ConfigMap}
  (named : (objectPath backend.ns "configmaps" name).toList.all isPathChar = true)
include named

theorem served_patch {patch : Json} (told : Json.read? (write (Json.mergePatch object patch)) = some (Json.mergePatch object patch))
    (fits : ConfigMap.decode? (Json.mergePatch object patch) = some map) :
    served backend (objectPath backend.ns "configmaps" name) write object (.patchDocument name patch) =
      (.ok (), Json.mergePatch object patch) := by
  simp only [served, Http.Backend.answer, patchConfigMap, send_eq _ _ _ _ named, bind, Program.bind, Program.trace, keeper, and_self,
    if_true, outcome_told told fits]
  rfl

theorem served_load {text : String} (told : Json.read? (write object) = some object) (fits : ConfigMap.decode? object = some map)
    (found : map.data.bind (·.get? configField) = some text) :
    served backend (objectPath backend.ns "configmaps" name) write object (.loadDocument name) = (.ok text, object) := by
  simp only [served, Http.Backend.answer, getConfigField, send_eq _ _ _ _ named, bind, Program.bind, Program.trace, keeper,
    if_true, outcome_told told fits]
  rw [found]
  rfl

end

/-- A configuration that is saved changes nothing of the object that holds it but its own field, whatever else is in the object
and whether the field was there, and it is what is read from the object then. So it is what is loaded from a server that merges
patches, however the server writes the object. -/
theorem saved_beside_others (object : Json) (config : Config) (known : (ConfigMap.decode? object).isSome) :
    let saved := Json.mergePatch object (configPatch config.write)
    (∀ path, ¬ path <+: ["data", configField] → ¬ ["data", configField] <+: path → at? path saved = at? path object) ∧
    (∃ map text, ConfigMap.decode? saved = some map ∧ map.data.bind (·.get? configField) = some text ∧
      Config.readBytes text.toUTF8 = .ok config) ∧
    ∀ (backend : Http.Backend) (name : String) (write : Json → String),
      let place := objectPath backend.ns "configmaps" name
      place.toList.all isPathChar = true → Json.read? (write saved) = some saved →
      let run := ((do Pass.save name config; Pass.load name : Pass Config).run.expand backend.answer).trace (keeper place write) object
      run.value = .ok config ∧ run.state = saved := by
  intro saved
  obtain ⟨map, known⟩ := Option.isSome_iff_exists.mp known
  obtain ⟨dict, fits, found⟩ := decode_saved known config.write
  refine ⟨?_, ?_, ?_⟩
  · intro path before behind
    exact at?_apart before behind object config.write
  · exact ⟨_, _, fits, found, ConfigRoundTrip.readBytes_write config⟩
  · intro backend name write place named told run
    have ran := trace_served backend place write (do Pass.save name config; Pass.load name : Pass Config) object
    have first : effect (served backend place write) object (Pass.save name config) = (.ok (), saved) := by
      rw [effect_save, served_patch named told fits]
      rfl
    have second : effect (served backend place write) saved (Pass.load name) = (.ok config, saved) :=
      effect_load_ok _ _ _ _ (served_load named told fits found) (ConfigRoundTrip.read_write config)
    exact Prod.mk.inj (ran.trans ((effect_then _ first _).trans second))

section

/-- An object with a configuration, and with notes that somebody else keeps in it. -/
def notebook : Json := .obj [
  ("apiVersion", .str "v1"),
  ("kind", .str "ConfigMap"),
  ("metadata", .obj [("labels", .obj [("app", .str "metallb")]), ("name", .str "config"), ("namespace", .str "metallb-system")]),
  ("data", .obj [("config", .str "peers: []\n"), ("notes", .str "config: ours")])]

def offered : Config where
  pools := [{ name := "shop/web", protocol := "bgp", addresses := ["147.75.100.1/32"], autoAssign := some false }]

def metallb : Http.Backend where
  provider := ⟨{ scheme := "https", authority := some { host := "api.equinix.com" }, path := .segments ["metal", "v1", ""] }, "token"⟩
  ns := "metallb-system"

theorem saved_beside_others_notebook :
    (ConfigMap.decode? notebook).isSome ∧
    let saved := Json.mergePatch notebook (configPatch offered.write)
    at? ["metadata"] saved = at? ["metadata"] notebook ∧ at? ["data", "notes"] saved = some (.str "config: ours") ∧
    let place := objectPath "metallb-system" "configmaps" "config"
    let run := ((do Pass.save "config" offered; Pass.load "config" : Pass Config).run.expand metallb.answer).trace
      (keeper place Json.write) notebook
    run.value = .ok offered ∧ run.state = saved := by
  have known : (ConfigMap.decode? notebook).isSome := by decide
  obtain ⟨apart, -, loads⟩ := saved_beside_others notebook offered known
  have told : Json.read? (Json.write (Json.mergePatch notebook (configPatch offered.write))) =
      some (Json.mergePatch notebook (configPatch offered.write)) := by
    apply JsonText.read_write
    generalize offered.write = text
    have saved : Json.mergePatch notebook (configPatch text) = .obj [
      ("apiVersion", .str "v1"),
      ("kind", .str "ConfigMap"),
      ("metadata", .obj [("labels", .obj [("app", .str "metallb")]), ("name", .str "config"), ("namespace", .str "metallb-system")]),
      ("data", .obj [("notes", .str "config: ours"), ("config", .str text)])] := rfl
    rw [saved]
    simp [JsonText.Readable, Json.depthLimit]
  refine ⟨known, apart _ (by decide) (by decide), ?_, loads metallb "config" Json.write (by decide) told⟩
  exact (apart _ (by decide) (by decide)).trans rfl

end

end PeerPool.Proofs.SharedConfigMaps
