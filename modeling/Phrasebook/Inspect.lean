import Phrasebook.Context
import Phrasebook.Json.Quoted
import Phrasebook.Text.Unprintable
/-!
# Inspection

One-line descriptions of registries, pluralizers and contexts, for logs. Texts
stand in quotes there, with escapes for quotes, backslashes and whatever leaves
no mark of its own.
-/

namespace Phrasebook.Inspect

/-- The hexadecimal digits of a number, without leading zeros. -/
def hexadecimal (n : Nat) : String := String.ofList (Nat.toDigits 16 n)

/-- The described form of one character. -/
def quoteChar (c : Char) : String :=
  if c = '"' then "\\\""
  else if c = '\\' then "\\\\"
  else if c = '\n' then "\\n"
  else if c = '\r' then "\\r"
  else if c = '\t' then "\\t"
  else if c = '\x00' then "\\0"
  else if Text.isUnprintable c then "\\u\x7b" ++ hexadecimal c.toNat ++ "\x7d"
  else c.toString

/-- A text in quotes. -/
def quote (s : String) : String :=
  "\"" ++ String.join (s.toList.map quoteChar) ++ "\""

/-- Texts in brackets. -/
def list (texts : List String) : String :=
  "[" ++ String.intercalate ", " (texts.map quote) ++ "]"

/-- A description that may be absent. -/
def optional : Option String → String
  | some text => "Some(" ++ text ++ ")"
  | none => "None"

/-- A record with named fields. -/
def record (name : String) (fields : List (String × String)) : String :=
  name ++ " \x7b " ++
    String.intercalate ", " (fields.map fun field => field.1 ++ ": " ++ field.2) ++ " \x7d"

/-- The description of a registry. -/
def registry (r : Plural.Registry) : String :=
  record "PluralRuleRegistry" [("languages", list r.languages)]

/-- The description of the CLDR service. -/
def cldr (s : Plural.Cldr.Service) : String :=
  record "IntlPluralService" [("cached", toString s.cached)]

/-- The description of a service. -/
def service : Plural.Service → String
  | .cldr s => cldr s
  | .given label _ => label

/-- The description of a pluralizer. -/
def pluralizer (p : Plural.Pluralizer) : String :=
  record "Pluralizer" [
    ("rules", registry p.registry), ("service", optional (p.service.map service))]

/-- The description of a context. -/
def context (ctx : Context) : String :=
  record "LocaleStrings" [
    ("folder", quote ctx.config.folder.text),
    ("installed", list ctx.installedNames),
    ("active", optional (ctx.activeName.map quote)),
    ("pluralizer", pluralizer ctx.pluralizer)]

end Phrasebook.Inspect
