import Phrasebook.Config
import Phrasebook.Toml.Reader
/-!
# Configuration documents

A configuration is read from a TOML document. Absent settings take their
defaults, and unknown ones are passed over.
-/

namespace Phrasebook.Config

open Toml (Value Members)

/-- A setting, if it is present, read as `f` says. -/
def setting {α : Type} (members : Members) (name : String) (fallback : α)
    (f : Value → Option α) : Except ConfigFault α :=
  match Assoc.get? name members with
  | none => .ok fallback
  | some v =>
    match f v with
    | some a => .ok a
    | none => .error .unreadable

/-- The configuration of a document, before its conditions are checked. -/
def ofMembers (members : Members) : Except ConfigFault Config := do
  let defaults : Config := {}
  let rootPath ← setting members "root_path" defaults.rootPath fun v => v.text?.map Path.mk
  let folder ← setting members "folder" defaults.folder fun v => v.text?.map Path.mk
  let defaultLocale ← setting members "default_locale" defaults.defaultLocale
    fun v => v.text?.map some
  let useSystemPlurals ←
    setting members "use_system_plurals" defaults.useSystemPlurals Value.bool?
  let maxDepth ← setting members "max_depth" defaults.maxDepth Value.nat?
  return { rootPath, folder, defaultLocale, useSystemPlurals, maxDepth }

/-- Reads a configuration that meets its conditions. -/
def parse (source : String) : Except ConfigFault Config := do
  match Toml.read? source with
  | none => .error .unreadable
  | some members =>
    let config ← ofMembers members
    config.validate
    return config

end Phrasebook.Config
