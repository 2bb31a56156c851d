import Phrasebook.Text
import Phrasebook.Locale.Code
/-!
# Language tags

Where a locale is a mandatory argument it has to be a language tag: a language,
then optionally a script, a region and variants, each only in its place.
-/

namespace Phrasebook

/-- A language tag in canonical case. -/
structure LanguageTag where
  /-- The language; none when it is written `und`. -/
  language : Option String
  script : Option String
  region : Option String
  /-- The variants, sorted and without repetition. -/
  variants : List String
deriving DecidableEq, Repr

namespace LanguageTag

/-- Whether a subtag is a language: two or three letters, or five to eight. -/
def isLanguage (s : List Char) : Bool :=
  2 ≤ s.length && s.length ≤ 8 && s.length != 4 && s.all Char.isAlpha

/-- Whether a subtag is a script. -/
def isScript (s : List Char) : Bool := s.length == 4 && s.all Char.isAlpha

/-- Whether a subtag is a region: two letters, or three digits. -/
def isRegion (s : List Char) : Bool :=
  (s.length == 2 && s.all Char.isAlpha) || (s.length == 3 && s.all Char.isDigit)

/-- Whether a character is ASCII and not NUL. -/
def isPlain (c : Char) : Bool := 0 < c.toNat && c.toNat < 128

/-- Whether a subtag is a variant: five to eight letters or digits, or four
ASCII characters of which the first is a digit or the others are letters or
digits. -/
def isVariant (s : List Char) : Bool :=
  s.all isPlain &&
    ((5 ≤ s.length && s.length ≤ 8 && s.all Char.isAlphanum) ||
      (s.length == 4 && ((s.take 1).all Char.isDigit || (s.drop 1).all Char.isAlphanum)))

/-- Lower case throughout. -/
def lower (s : List Char) : String := String.ofList (s.map Char.toLower)

/-- Upper case throughout. -/
def upper (s : List Char) : String := String.ofList (s.map Char.toUpper)

/-- Upper case first, then lower case. -/
def title (s : List Char) : String :=
  String.ofList ((s.take 1).map Char.toUpper ++ (s.drop 1).map Char.toLower)

/-- Takes the next subtag if it is of the wanted kind. -/
def optional (kind : List Char → Bool) :
    List (List Char) → Option (List Char) × List (List Char)
  | [] => (none, [])
  | s :: rest => if kind s then (some s, rest) else (none, s :: rest)

/-- Reads the subtags of a tag. -/
def ofSubtags? (first : List Char) (rest : List (List Char)) : Option LanguageTag :=
  if isLanguage first then
    let (script, rest) := optional isScript rest
    let (region, variants) := optional isRegion rest
    if variants.all isVariant then
      let language := lower first
      some {
        language := if language = "und" then none else some language
        script := script.map title
        region := region.map upper
        variants := ((variants.map lower).mergeSort fun a b => decide (a ≤ b)).eraseDups }
    else none
  else none

/-- Reads a tag, with `-` or `_` between its subtags. -/
def parse? (s : String) : Option LanguageTag :=
  let (first, rest) := Text.split LocaleCode.isSeparator s.toList
  ofSubtags? first rest

/-- The language, written `und` when there is none. -/
def languageText (t : LanguageTag) : String := t.language.getD "und"

/-- The canonical form, joined by `-`. -/
def text (t : LanguageTag) : String :=
  String.intercalate "-" (t.languageText :: (t.script.toList ++ t.region.toList ++ t.variants))

/-- The tag of a language alone. -/
def ofLanguage (t : LanguageTag) : LanguageTag := ⟨t.language, none, none, []⟩

/-- Reads a mandatory locale: a tag whose language is two or three letters
long, between blanks or not. -/
def ofArgument? (s : String) : Option LanguageTag :=
  match parse? (Text.trim s) with
  | some t =>
    match t.language with
    | some language => if language.length == 2 || language.length == 3 then some t else none
    | none => none
  | none => none

end LanguageTag

end Phrasebook
