import Phrasebook.Command.Run
/-!
# Layers of settings

A configuration comes from layers. The options of a command line lie over the variables of the
environment, these over the members of a document, and these over the defaults; a setting is
taken from the first layer that has it. The document has to meet the conditions on a
configuration by itself, whatever lies over it, and so has the result.
-/

namespace Phrasebook

namespace Config

open Toml (Value Members)

/-! ## One layer -/

/-- What a layer has of the settings. -/
structure Settings where
  rootPath : Option Path := none
  folder : Option Path := none
  defaultLocale : Option String := none
  useSystemPlurals : Option Bool := none
  maxDepth : Option Nat := none

namespace Settings

/-- A layer put onto a configuration: what the layer has, and else what was there. -/
def onto (layer : Settings) (config : Config) : Config where
  rootPath := layer.rootPath.getD config.rootPath
  folder := layer.folder.getD config.folder
  defaultLocale := layer.defaultLocale.or config.defaultLocale
  useSystemPlurals := layer.useSystemPlurals.getD config.useSystemPlurals
  maxDepth := layer.maxDepth.getD config.maxDepth

/-- A layer covers itself. -/
theorem onto_onto (layer : Settings) (config : Config) :
    layer.onto (layer.onto config) = layer.onto config := by
  have hself {α : Type} (o : Option α) (a : α) : o.getD (o.getD a) = o.getD a := by
    cases o <;> rfl
  ext1
  · exact hself layer.rootPath config.rootPath
  · exact hself layer.folder config.folder
  · simp only [onto, ← Option.or_assoc, Option.or_self]
  · exact hself layer.useSystemPlurals config.useSystemPlurals
  · exact hself layer.maxDepth config.maxDepth

/-- A document has the members of a layer: the one of a setting is there just if the layer has
the setting, and then it is a value of the kind of the setting. -/
structure IsStated (layer : Settings) (members : Members) : Prop where
  rootPath : Assoc.get? "root_path" members = layer.rootPath.map fun path => .text path.text
  folder : Assoc.get? "folder" members = layer.folder.map fun path => .text path.text
  defaultLocale : Assoc.get? "default_locale" members = layer.defaultLocale.map .text
  useSystemPlurals : Assoc.get? "use_system_plurals" members = layer.useSystemPlurals.map .bool
  maxDepth : Assoc.get? "max_depth" members = layer.maxDepth.map fun n => .integer n

end Settings

/-! ## Documents -/

section Documents

variable {members : Members}

/-- A setting is read where its member is absent or is the written form of a value. -/
theorem setting_eq_ok_iff {α β : Type} {name : String} {fallback a : α} {f : Value → Option α}
    (write : β → Value) (g : β → α) (hf : ∀ v a, f v = some a ↔ ∃ b, v = write b ∧ g b = a) :
    setting members name fallback f = .ok a ↔
      ∃ made : Option β, Assoc.get? name members = made.map write ∧
        a = (made.map g).getD fallback := by
  constructor
  · intro h
    unfold setting at h
    split at h
    · next hget => exact ⟨none, hget, (Except.ok.inj h).symm⟩
    · next v hget =>
      split at h
      · next value hvalue =>
        obtain ⟨b, rfl, rfl⟩ := (hf v value).mp hvalue
        exact ⟨some b, hget, (Except.ok.inj h).symm⟩
      · cases h
  · rintro ⟨made, hget, rfl⟩
    cases made with
    | none => simp [setting, hget]
    | some b =>
      have hread : f (write b) = some (g b) := (hf _ _).mpr ⟨b, rfl, rfl⟩
      simp [setting, hget, hread]

theorem pathSetting_eq_ok_iff {name : String} {fallback path : Path} :
    setting members name fallback (fun v => v.text?.map Path.mk) = .ok path ↔
      ∃ made : Option Path, Assoc.get? name members = made.map (fun path => .text path.text) ∧
        path = made.getD fallback := by
  rw [setting_eq_ok_iff (fun path : Path => .text path.text) id]
  · simp only [Option.map_id_fun, id_eq]
  · intro v a
    simp only [Option.map_eq_some_iff, Value.text?_eq_some_iff, id_eq, exists_eq_right]
    constructor
    · rintro ⟨text, rfl, rfl⟩
      rfl
    · rintro rfl
      exact ⟨a.text, rfl, rfl⟩

theorem textSetting_eq_ok_iff {name : String} {fallback text : Option String} :
    setting members name fallback (fun v => v.text?.map some) = .ok text ↔
      ∃ made : Option String, Assoc.get? name members = made.map .text ∧
        text = made.or fallback := by
  rw [setting_eq_ok_iff Value.text some]
  · refine exists_congr fun made => and_congr_right fun _ => ?_
    cases made <;> rfl
  · intro v a
    simp only [Option.map_eq_some_iff, Value.text?_eq_some_iff]

theorem boolSetting_eq_ok_iff {name : String} {fallback b : Bool} :
    setting members name fallback Value.bool? = .ok b ↔
      ∃ made : Option Bool, Assoc.get? name members = made.map .bool ∧
        b = made.getD fallback := by
  rw [setting_eq_ok_iff Value.bool id]
  · simp only [Option.map_id_fun, id_eq]
  · intro v a
    simp only [Value.bool?_eq_some_iff, id_eq, exists_eq_right]

theorem natSetting_eq_ok_iff {name : String} {fallback n : Nat} :
    setting members name fallback Value.nat? = .ok n ↔
      ∃ made : Option Nat, Assoc.get? name members = made.map (fun n => .integer n) ∧
        n = made.getD fallback := by
  rw [setting_eq_ok_iff (fun n : Nat => .integer n) id]
  · simp only [Option.map_id_fun, id_eq]
  · intro v a
    simp only [Value.nat?_eq_some_iff, id_eq, exists_eq_right]

/-- A document is read where it has the members of some layer, which then lies over the
defaults. -/
theorem ofMembers_eq_ok_iff {config : Config} :
    ofMembers members = .ok config ↔
      ∃ layer : Settings, layer.IsStated members ∧ config = layer.onto {} := by
  simp only [ofMembers, bind_eq_ok_iff, pathSetting_eq_ok_iff, textSetting_eq_ok_iff,
    boolSetting_eq_ok_iff, natSetting_eq_ok_iff]
  constructor
  · rintro ⟨_, ⟨root, hroot, rfl⟩, _, ⟨folder, hfolder, rfl⟩, _, ⟨locale, hlocale, rfl⟩,
      _, ⟨plurals, hplurals, rfl⟩, _, ⟨depth, hdepth, rfl⟩, hconfig⟩
    exact ⟨⟨root, folder, locale, plurals, depth⟩,
      ⟨hroot, hfolder, hlocale, hplurals, hdepth⟩, (Except.ok.inj hconfig).symm⟩
  · rintro ⟨layer, h, rfl⟩
    exact ⟨_, ⟨_, h.rootPath, rfl⟩, _, ⟨_, h.folder, rfl⟩, _, ⟨_, h.defaultLocale, rfl⟩,
      _, ⟨_, h.useSystemPlurals, rfl⟩, _, ⟨_, h.maxDepth, rfl⟩, rfl⟩

/-- What a text with the members of a layer is parsed to hangs on the conditions. -/
theorem parse_of_isStated {source : String} {layer : Settings}
    (hread : Toml.read? source = some members) (h : layer.IsStated members) :
    parse source = (layer.onto {}).validate.map fun _ => layer.onto {} := by
  have hmembers : ofMembers members = .ok (layer.onto {}) :=
    ofMembers_eq_ok_iff.mpr ⟨layer, h, rfl⟩
  simp only [parse, hread, hmembers]
  change ((layer.onto {}).validate >>= fun _ => pure (layer.onto {})) = _
  cases (layer.onto {}).validate <;> rfl

theorem parse_eq_ok_iff {source : String} {config : Config} :
    parse source = .ok config ↔
      ∃ members, Toml.read? source = some members ∧
        ∃ layer : Settings, layer.IsStated members ∧
          config = layer.onto {} ∧ config.validate = .ok () := by
  constructor
  · intro h
    unfold parse at h
    split at h
    · cases h
    · next members hread =>
      obtain ⟨read, hmembers, h⟩ := bind_eq_ok_iff.mp h
      obtain ⟨_, hvalid, h⟩ := bind_eq_ok_iff.mp h
      obtain rfl : read = config := Except.ok.inj h
      obtain ⟨layer, hlayer, hread'⟩ := ofMembers_eq_ok_iff.mp hmembers
      exact ⟨members, hread, layer, hlayer, hread', hvalid⟩
  · rintro ⟨members, hread, layer, hlayer, rfl, hvalid⟩
    rw [parse_of_isStated hread hlayer, hvalid]
    rfl

end Documents

/-! ## Variables -/

/-- The value of a variable that is set and not blank. -/
def variableValue? (lookup : String → Option String) (name : String) : Option String :=
  (lookup name).filter fun value => !Text.isBlankText value

/-- What the variables of an environment have of the settings. -/
def Settings.ofVariables (lookup : String → Option String) : Settings where
  rootPath := (variableValue? lookup rootVariable).map Path.mk
  folder := (variableValue? lookup folderVariable).map Path.mk
  defaultLocale := variableValue? lookup localeVariable

theorem override_eq_onto (config : Config) (lookup : String → Option String) :
    config.override lookup = (Settings.ofVariables lookup).onto config := rfl

end Config

namespace Command

open Config (Settings variableValue? rootVariable folderVariable localeVariable)

/-- What the options of an invocation have of the settings. -/
def Invocation.settings (inv : Invocation) : Settings where
  rootPath := inv.root
  folder := inv.folder
  defaultLocale := inv.locale

/-- The layer below the variables: what the file of an invocation states, and nothing without a
file. -/
def FileStates (s : Surroundings) (inv : Invocation) (layer : Settings) : Prop :=
  match inv.config with
  | none => layer = {}
  | some path => ∃ text members, s.read path = .ok text ∧ Toml.read? text = some members ∧
      layer.IsStated members

variable {s : Surroundings} {inv : Invocation}

theorem readConfig_eq_ok_iff {path : Path} {config : Config} :
    readConfig s path = .ok config ↔
      ∃ text, s.read path = .ok text ∧ Config.parse text = .ok config := by
  unfold readConfig
  cases s.read path with
  | error fault => simp
  | ok text => simp [mapError_eq_ok_iff]

/-- An invocation starts from a layer over the defaults that meets the conditions. -/
theorem baseConfig_eq_ok_iff {base : Config} :
    baseConfig s inv = .ok base ↔
      ∃ layer : Settings, FileStates s inv layer ∧ base = layer.onto {} ∧
        base.validate = .ok () := by
  unfold baseConfig FileStates
  cases inv.config with
  | none =>
    constructor
    · intro h
      obtain rfl : {} = base := Except.ok.inj h
      exact ⟨{}, rfl, rfl, rfl⟩
    · rintro ⟨_, rfl, rfl, -⟩
      rfl
  | some path =>
    rw [mapError_eq_ok_iff, readConfig_eq_ok_iff]
    simp only [Config.parse_eq_ok_iff]
    constructor
    · rintro ⟨text, htext, members, hread, layer, hlayer, hbase⟩
      exact ⟨layer, ⟨text, members, htext, hread, hlayer⟩, hbase⟩
    · rintro ⟨layer, ⟨text, members, htext, hread, hlayer⟩, hbase⟩
      exact ⟨text, htext, members, hread, layer, hlayer, hbase⟩

/-- A configuration is made where the file meets the conditions before anything lies over it,
and the result of all layers does so too. -/
theorem loadConfig_eq_ok_iff {config : Config} :
    loadConfig s inv = .ok config ↔
      ∃ layer : Settings, FileStates s inv layer ∧ (layer.onto {}).validate = .ok () ∧
        config = inv.settings.onto ((Settings.ofVariables s.environment).onto (layer.onto {})) ∧
        config.validate = .ok () := by
  unfold loadConfig
  rw [bind_eq_ok_iff]
  simp only [bind_eq_ok_iff, baseConfig_eq_ok_iff, mapError_eq_ok_iff]
  constructor
  · rintro ⟨_, ⟨layer, hfile, rfl, hbase⟩, _, hvalid, h⟩
    obtain rfl := Except.ok.inj h
    exact ⟨layer, hfile, hbase, rfl, hvalid⟩
  · rintro ⟨layer, hfile, hbase, rfl, hvalid⟩
    exact ⟨_, ⟨layer, hfile, rfl, hbase⟩, (), hvalid, rfl⟩

/-- A file whose own settings miss a condition is the failure, whatever lies over it. -/
theorem loadConfig_eq_error {path : Path} {layer : Settings} {fault : ConfigFault}
    (hpath : inv.config = some path) (hfile : FileStates s inv layer)
    (hfault : (layer.onto {}).validate = .error fault) :
    loadConfig s inv = .error (.configuration path (.config fault)) := by
  rw [FileStates, hpath] at hfile
  obtain ⟨text, members, htext, hread, hlayer⟩ := hfile
  have hparse : Config.parse text = .error fault := by
    rw [Config.parse_of_isStated hread hlayer, hfault]
    rfl
  simp only [loadConfig, baseConfig, hpath, readConfig, htext, hparse]
  rfl

/-- The configuration of an invocation meets the conditions, and its settings come from the
first layer that has them: root, folder and locale from the options, the variables that are
not blank, the file and the defaults, the others from the file and the defaults. It is made
just if the file meets the conditions by itself and so does the result; else, the failure of
the file is the failure, whatever the options and the variables say. To apply variables twice
is to apply them once. -/
theorem loadConfig_layers (s : Surroundings) (inv : Invocation) :
    (∀ config, loadConfig s inv = .ok config ↔
      ∃ file : Settings, FileStates s inv file ∧ (file.onto {}).validate = .ok () ∧
        config.rootPath =
          inv.root.getD (((variableValue? s.environment rootVariable).map Path.mk).getD
            (file.rootPath.getD ⟨"."⟩)) ∧
        config.folder =
          inv.folder.getD (((variableValue? s.environment folderVariable).map Path.mk).getD
            (file.folder.getD ⟨"i18n/"⟩)) ∧
        config.defaultLocale =
          inv.locale.or ((variableValue? s.environment localeVariable).or file.defaultLocale) ∧
        config.useSystemPlurals = file.useSystemPlurals.getD true ∧
        config.maxDepth = file.maxDepth.getD 64 ∧
        config.validate = .ok ()) ∧
    (∀ path file fault, inv.config = some path → FileStates s inv file →
      (file.onto {}).validate = .error fault →
      loadConfig s inv = .error (.configuration path (.config fault))) ∧
    ∀ (config : Config) (lookup : String → Option String),
      (config.override lookup).override lookup = config.override lookup := by
  refine ⟨fun config => ?_, fun _ _ _ => loadConfig_eq_error, fun config lookup => ?_⟩
  · rw [loadConfig_eq_ok_iff]
    refine exists_congr fun file => and_congr_right fun _ => and_congr_right fun _ => ?_
    rw [Config.ext_iff]
    simp only [Settings.onto, Settings.ofVariables, Invocation.settings, Option.or_none,
      Option.getD_none, and_assoc]
  · simp only [Config.override_eq_onto, Settings.onto_onto]

/-- An option does not mend the folder of the file that it lies over. -/
example (storage : Path → Storage) :
    loadConfig ⟨fun _ => .ok "folder = \"/srv\"", storage, fun _ => none⟩
      ⟨some ⟨"app.toml"⟩, none, some ⟨"text"⟩, none, .languages⟩ =
      .error (.configuration ⟨"app.toml"⟩ (.config (.absoluteFolder ⟨"/srv"⟩))) := by
  cbv

end Command

end Phrasebook
