import Phrasebook.Text
import Phrasebook.Locale.Code
/-!
# The system locale

The locale of a process is found in its environment, from the first of
`LC_ALL`, `LC_MESSAGES` and `LANG` that names one.
-/

namespace Phrasebook.SystemLocale

/-- The variables consulted, the most important first. -/
def variableNames : List String := ["LC_ALL", "LC_MESSAGES", "LANG"]

/-- The language where no variable names a locale. -/
def fallbackLanguage : String := "en"

/-- The region where a locale names none. -/
def fallbackRegion : String := "US"

/-- The part of a value before its codeset and modifier. -/
def base (value : String) : List Char :=
  Text.trimChars (value.toList.takeWhile fun c => c ≠ '.' && c ≠ '@')

/-- Whether a value stands for the absence of a locale. -/
def isNeutral (base : List Char) : Bool :=
  base.isEmpty || base.map Char.toLower == ['c'] ||
    base.map Char.toLower == ['p', 'o', 's', 'i', 'x']

/-- Reads a value such as `fr_CA.UTF-8@euro`: a language of two or three
letters in lower case, and a region of letters and digits in upper case. -/
def parse? (value : String) : Option (String × Option String) :=
  let cs := base value
  if isNeutral cs then none
  else
    let (language, subtags) := Text.split LocaleCode.isSeparator cs
    if (language.length == 2 || language.length == 3) && language.all Char.isAlpha then
      let region := subtags.head?.filter fun r => !r.isEmpty && r.all Char.isAlphanum
      some (String.ofList (language.map Char.toLower),
        region.map fun r => String.ofList (r.map Char.toUpper))
    else none

/-- The locale of the first variable that names one. -/
def detectFrom (lookup : String → Option String) : List String → String
  | [] => fallbackLanguage ++ "-" ++ fallbackRegion
  | name :: names =>
    match (lookup name).bind parse? with
    | some (language, region) => language ++ "-" ++ region.getD fallbackRegion
    | none => detectFrom lookup names

/-- The locale that an environment names, as a language and a region. -/
def detect (lookup : String → Option String) : String := detectFrom lookup variableNames

end Phrasebook.SystemLocale
