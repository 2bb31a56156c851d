import Phrasebook.StringTable
import Phrasebook.Locale.Code
/-!
# Locale tables

A locale table is the merged strings of one locale, under the name by which it
was requested. An identifier without an entry yields a default, or else a
placeholder that shows the identifier.
-/

namespace Phrasebook

/-- The placeholder of an identifier that has neither entry nor default. -/
def placeholder (id : String) : String := "%$$>" ++ id ++ "<$$%"

/-- What is worth reporting beside an answer. -/
inductive Warning
  /-- A missing string was looked up, and `value` was answered instead. -/
  | missingString (locale id value : String)
  /-- The first request for a language without plural rules. -/
  | noRules (language : String)
  /-- The active locale was to be cleared. -/
  | keptActive (locale : String)
deriving DecidableEq, Repr

/-- The wording of a warning, its fields apart. -/
def Warning.message : Warning → String
  | .missingString _ _ _ => ">> i18n default"
  | .noRules language => "No plural rules registered for language '" ++ language ++ "'"
  | .keptActive locale => "Refusing to clear active locale " ++ locale

/-- The strings of one locale. -/
structure LocaleTable where
  /-- The name under which the table was requested. -/
  name : String
  /-- The language and region that it was built for. -/
  code : LocaleCode
  strings : StringTable
deriving Inhabited

namespace LocaleTable

/-- The text of an identifier. -/
def get? (t : LocaleTable) (id : String) : Option String := t.strings.get? id

/-- Whether an identifier has an entry. -/
def contains (t : LocaleTable) (id : String) : Bool := t.strings.contains id

/-- What stands for an identifier that has no entry. -/
def substitute (id : String) (fallback : Option String) : String :=
  fallback.getD (placeholder id)

/-- The text of an identifier, else the default, else the placeholder. -/
def resolve (t : LocaleTable) (id : String) (fallback : Option String) : String :=
  (t.get? id).getD (substitute id fallback)

/-- What there is to report about looking up an identifier. -/
def missing (t : LocaleTable) (id : String) (fallback : Option String) : List Warning :=
  if t.contains id then [] else [.missingString t.name id (substitute id fallback)]

end LocaleTable

end Phrasebook
