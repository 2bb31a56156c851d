import Phrasebook.Storage.Basic
import Phrasebook.Json.Value
/-!
# Errors

An error is its cause; the wording is in `Error.message`.
-/

namespace Phrasebook

/-- Why a configuration was refused. -/
inductive ConfigFault
  /-- The text is no TOML document, or a setting has another type. -/
  | unreadable
  /-- The greatest depth is zero. -/
  | zeroDepth
  /-- The folder starts at the top instead of the root. -/
  | absoluteFolder (folder : Path)
  /-- The default locale is blank. -/
  | blankLocale
  /-- Any other reason, in words. -/
  | stated (reason : String)
deriving DecidableEq, Repr

/-- The reason in words. -/
def ConfigFault.reason : ConfigFault → String
  | .unreadable => "not a valid configuration document"
  | .zeroDepth => "max_depth must be greater than 0"
  | .absoluteFolder folder => "folder must be relative to root_path, got " ++ folder.text
  | .blankLocale => "default_locale must not be empty"
  | .stated reason => reason

/-- The fault in words. -/
def Json.Fault.reason : Json.Fault → String
  | .truncated => "the text ends too soon"
  | .mismatched => "a value has the wrong type"
  | .malformed => "the text is malformed"

/-- Causes of failure. -/
inductive Error
  /-- No table is active. -/
  | notInitialized
  /-- A text is no JSON object of strings, or no JSON document. -/
  | parse (fault : Json.Fault)
  /-- A source exists and does not parse. -/
  | malformedSource (path : Path) (fault : Json.Fault)
  /-- A file exists and cannot be read. -/
  | unreadable (path : Path) (fault : ReadFault)
  /-- No table is installed under a name. -/
  | notLoaded (name : String)
  /-- A mandatory locale is no language tag. -/
  | badLocale (argument : String)
  /-- A text names no plural mode. -/
  | unknownMode (text : String)
  /-- A value has no JSON form, or a JSON form has no value. -/
  | conversion (fault : Json.Fault)
  /-- Containers nest deeper than allowed. -/
  | tooDeep (bound : Nat)
  /-- A configuration was refused. -/
  | config (fault : ConfigFault)
deriving DecidableEq, Repr

/-- The text shown for an error. -/
def Error.message : Error → String
  | .notInitialized => "i18n init() has not been called before using"
  | .parse fault => "Failed to parse string table: " ++ fault.reason
  | .malformedSource path fault =>
    "Unable to load string table at " ++ path.text ++ ": " ++ fault.reason
  | .unreadable path fault => "Failed to read " ++ path.text ++ ": " ++ fault.reason
  | .notLoaded name => "Locale \"" ++ name ++ "\" has not been loaded"
  | .badLocale argument => "Incorrect locale information provided: \"" ++ argument ++ "\""
  | .unknownMode text => "Unrecognized plural mode: \"" ++ text ++ "\""
  | .conversion fault => "Failed to convert value: " ++ fault.reason
  | .tooDeep bound => "Value nested deeper than " ++ toString bound ++ " levels"
  | .config fault => "Configuration error: " ++ fault.reason

end Phrasebook
