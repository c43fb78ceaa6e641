import PeerPool.Pass.Document
import PeerPool.Proofs.PassLogic

/-! Loading and saving the configuration: one call each, and what its answer comes to. -/

namespace PeerPool.Proofs.PassDocument
open PassLogic

variable {σ : Type} (answer : Answers σ) (state : σ) (name : String) (config : Config)

theorem effect_save :
    effect answer state (Pass.save name config) =
      ((answer state (.patchDocument name (configPatch config.write))).1.mapError .documentStore,
        (answer state (.patchDocument name (configPatch config.write))).2) := by
  unfold Pass.save Pass.info Pass.debug
  rw [effect_say_bind, effect_say_bind, effect_ask_bind, effect_check]

theorem made_save :
    made answer state (Pass.save name config) = [(state, .patchDocument name (configPatch config.write))] := by
  unfold Pass.save Pass.info Pass.debug
  rw [made_say_bind, made_say_bind, made_ask_bind, made_check]

theorem effect_load :
    effect answer state (Pass.load name) =
      ((answer state (.loadDocument name)).1.mapError .documentStore >>= fun text =>
        (Config.read text).mapError .invalidDocument, (answer state (.loadDocument name)).2) := by
  unfold Pass.load Pass.debug
  rw [effect_say_bind, effect_ask_bind, effect_bind, effect_check]
  cases (answer state (.loadDocument name)).1 with
  | error error => rfl
  | ok text => exact effect_check ..

theorem effect_load_ok {after : σ} {text : String} (found : answer state (.loadDocument name) = (.ok text, after))
    (read : Config.read text = .ok config) : effect answer state (Pass.load name) = (.ok config, after) := by
  rw [effect_load, found]
  change ((Config.read text).mapError PassError.invalidDocument, after) = (.ok config, after)
  rw [read]
  rfl

theorem made_load : made answer state (Pass.load name) = [(state, .loadDocument name)] := by
  unfold Pass.load Pass.debug
  rw [made_say_bind, made_ask_bind, made_bind, effect_check, made_check]
  cases (answer state (.loadDocument name)).1 with
  | error error => rfl
  | ok text => exact congrArg _ (made_check ..)

end PeerPool.Proofs.PassDocument
