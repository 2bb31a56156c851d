import Phrasebook.Error
import Phrasebook.Plural.Registry
import Phrasebook.Plural.Service
/-!
# The pluralizer

A category comes from the rules registered for a language, and where these are
absent or decline, from the service. With it, the form of an identifier is found
in a table or formed by the rules. Answers come with what happened on the way.
-/

namespace Phrasebook

/-- What happens beside an answer. -/
inductive Event
  | warning (warning : Warning)
  /-- The plural service was asked. -/
  | asked (tag : LanguageTag) (mode : Plural.Mode) (count : Plural.Count)
deriving DecidableEq, Repr

namespace Plural

/-- Reads the name of a mode, in any ASCII case and between blanks or not. -/
def Mode.parse (s : String) : Except Error Mode :=
  let name := (Text.trim s).toLower
  if name = Mode.cardinal.name then .ok .cardinal
  else if name = Mode.ordinal.name then .ok .ordinal
  else .error (.unknownMode s)

/-- Reads a mandatory locale. -/
def localeArgument (s : String) : Except Error LanguageTag :=
  match LanguageTag.ofArgument? s with
  | some tag => .ok tag
  | none => .error (.badLocale s)

/-- The answer where no source knows the language. -/
def noPluralsMarker (language : String) : String := "%$<NO PLURALS " ++ language ++ ">$%"

/-- Registered rules and perhaps a service. -/
structure Pluralizer where
  registry : Registry
  service : Option Service

/-- An answer, the events on the way to it in order, and the pluralizer after
them. -/
structure Reply (α : Type) where
  answer : α
  events : List Event
  pluralizer : Pluralizer

namespace Pluralizer

/-- The rules of English and the CLDR service. -/
def default : Pluralizer := ⟨Registry.default, some (.cldr Cldr.Service.empty)⟩

/-- The rules of a language. A language without rules is reported once. -/
def rulesFor (p : Pluralizer) (language : String) : Reply (Option Rules) :=
  let (rules, warnings, registry) := p.registry.resolve language
  ⟨rules, warnings.map .warning, { p with registry }⟩

/-- Asks the service. -/
def askService (p : Pluralizer) (tag : LanguageTag) (count : Count) (mode : Mode) :
    Reply (Option Category) :=
  match p.service with
  | none => ⟨none, [], p⟩
  | some service =>
    let (category, service) := service.select tag mode count
    ⟨category, [.asked tag mode count], { p with service := some service }⟩

/-- The category of a count: from the rules, else from the service. -/
def selectCategory (p : Pluralizer) (tag : LanguageTag) (rules : Option Rules)
    (count : Count) (mode : Mode) : Reply (Option Category) :=
  match rules.bind fun r => r.select count mode with
  | some category => ⟨some category, [], p⟩
  | none => p.askService tag count mode

/-- The form of a word by the rules; the word itself where they decline. -/
def wordForm (rules : Option Rules) (word : String) (count : Count) (mode : Mode) : String :=
  let formed := rules.bind fun r =>
    match mode with
    | .cardinal => r.pluralize word count
    | .ordinal => r.makeOrdinal word count
  formed.getD word

/-- The form of an identifier in a table, once the category is known, and
whether it was found missing. -/
def form (table : LocaleTable) (rules : Option Rules) (id : String) (count : Count)
    (mode : Mode) (category : Category) : String × List Warning :=
  match table.get? id with
  | none => ("", [])
  | some single =>
    match mode, category.suffix? with
    | .ordinal, _ => (wordForm rules single count .ordinal, [])
    | .cardinal, none => (single, [])
    | .cardinal, some suffix =>
      let pluralId := id ++ "." ++ suffix
      match table.get? pluralId with
      | some text => (text, [])
      | none =>
        match rules.bind fun r => r.pluralize single count with
        | some word => (word, [])
        | none => (table.resolve pluralId none, table.missing pluralId none)

/-- The form of the word under an identifier for a count. -/
def pluralizedString (p : Pluralizer) (table : LocaleTable) (locale id : String)
    (count : Count) (mode : Mode) : Reply (Except Error String) :=
  match localeArgument locale with
  | .error e => ⟨.error e, [], p⟩
  | .ok tag =>
    let found := p.rulesFor tag.languageText
    let selected := found.pluralizer.selectCategory tag found.answer count mode
    match selected.answer with
    | none =>
      ⟨.ok (noPluralsMarker tag.languageText), found.events ++ selected.events,
        selected.pluralizer⟩
    | some category =>
      let (text, warnings) := form table found.answer id count mode category
      ⟨.ok text, found.events ++ selected.events ++ warnings.map .warning,
        selected.pluralizer⟩

/-- The form of a literal word for a count. -/
def pluralize (p : Pluralizer) (locale word : String) (count : Count) (mode : Mode) :
    Reply (Except Error String) :=
  match localeArgument locale with
  | .error e => ⟨.error e, [], p⟩
  | .ok tag =>
    let found := p.rulesFor tag.languageText
    ⟨.ok (wordForm found.answer word count mode), found.events, found.pluralizer⟩

/-- The category of a count in a locale. -/
def category (p : Pluralizer) (locale : String) (count : Count) (mode : Mode) :
    Reply (Except Error (Option Category)) :=
  match localeArgument locale with
  | .error e => ⟨.error e, [], p⟩
  | .ok tag =>
    let found := p.rulesFor tag.languageText
    let selected := found.pluralizer.selectCategory tag found.answer count mode
    ⟨.ok selected.answer, found.events ++ selected.events, selected.pluralizer⟩

end Pluralizer

end Plural

end Phrasebook
