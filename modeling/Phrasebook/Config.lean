import Phrasebook.Error
import Phrasebook.Text
/-!
# Configuration

The settings of a context, their defaults, the environment variables that
override them, and the conditions that they have to meet.
-/

namespace Phrasebook

/-- Settings for loading and resolving string tables. -/
@[ext]
structure Config where
  /-- The root of the storage. -/
  rootPath : Path := ⟨"."⟩
  /-- The folder of the string tables, relative to the root. -/
  folder : Path := ⟨"i18n/"⟩
  /-- The locale that replaces the one of the environment. -/
  defaultLocale : Option String := none
  /-- Whether CLDR rules serve languages without rules. -/
  useSystemPlurals : Bool := true
  /-- The number of nested containers that a traversal may enter. -/
  maxDepth : Nat := 64
deriving DecidableEq, Repr, Inhabited

namespace Config

/-- The variable that overrides the root. -/
def rootVariable : String := "LOCALE_STRINGS_ROOT"

/-- The variable that overrides the folder. -/
def folderVariable : String := "LOCALE_STRINGS_FOLDER"

/-- The variable that overrides the default locale. -/
def localeVariable : String := "LOCALE_STRINGS_LOCALE"

/-- The conditions on a configuration, the first that fails. -/
def validate (c : Config) : Except ConfigFault Unit :=
  if c.maxDepth = 0 then .error .zeroDepth
  else if c.folder.isAbsolute then .error (.absoluteFolder c.folder)
  else if c.defaultLocale.any Text.isBlankText then .error .blankLocale
  else .ok ()

/-- Applies the variables that are set and not blank. -/
def override (c : Config) (lookup : String → Option String) : Config :=
  let setting (name : String) : Option String :=
    (lookup name).filter fun value => !Text.isBlankText value
  { c with
    rootPath := ((setting rootVariable).map Path.mk).getD c.rootPath
    folder := ((setting folderVariable).map Path.mk).getD c.folder
    defaultLocale := (setting localeVariable).or c.defaultLocale }

end Config

end Phrasebook
