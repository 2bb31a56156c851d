import Phrasebook.Config
import Phrasebook.Availability
import Phrasebook.Document
import Phrasebook.Locale.System
import Phrasebook.Plural.Pluralizer
/-!
# Contexts

A context keeps the tables that it has loaded, the one that is active, and the
pluralizer. Loading takes a snapshot: a name that is installed is never read
again until it is cleared. Lookups see the active table only.
-/

namespace Phrasebook

/-- A loaded table and the statistics of its load. -/
structure Installed where
  table : LocaleTable
  stats : LoadStats

/-- The state of one application of string tables. -/
structure Context where
  config : Config
  /-- The locale that an empty request stands for. -/
  system : String
  /-- The loaded tables by the name of the request, oldest first. -/
  installed : OrderedMap String Installed
  /-- The table that lookups see. -/
  active : Option LocaleTable
  pluralizer : Plural.Pluralizer
  /-- What the folder held when availability was first asked for. -/
  available : Option Availability

/-- What an operation on a context comes to. -/
structure Outcome (α : Type) where
  result : α
  /-- The context after the operation. -/
  context : Context
  /-- What happened on the way, in order. -/
  events : List Event
  /-- What was asked of the storage, in order. -/
  accesses : List Access

namespace Context

/-- An operation that leaves the context as it is and reports nothing. -/
def still {α : Type} (ctx : Context) (result : α) : Outcome α := ⟨result, ctx, [], []⟩

/-- A context without tables. -/
def new (config : Config) (environment : String → Option String) : Context where
  config := config
  system := config.defaultLocale.getD (SystemLocale.detect environment)
  installed := OrderedMap.empty
  active := none
  pluralizer :=
    { Plural.Pluralizer.default with
      service := if config.useSystemPlurals then Plural.Pluralizer.default.service else none }
  available := none

/-- The folder of the string tables. -/
def folder (ctx : Context) : Folder := ⟨ctx.config.folder⟩

/-- The name under which a request is installed: itself, or the system locale
for a blank one. -/
def nameOf (ctx : Context) (locale : String) : String :=
  if Text.isBlankText locale then ctx.system else locale

/-- The installed table of a request, which is built if it is not there. -/
def install (ctx : Context) (storage : Storage) (locale : String) :
    Outcome (Except Error Installed) :=
  let name := ctx.nameOf locale
  match ctx.installed.get? name with
  | some entry => ctx.still (.ok entry)
  | none =>
    let built := ctx.folder.build storage name (LocaleCode.resolve name ctx.system)
    match built.outcome with
    | .error e => ⟨.error e, ctx, [], built.accesses⟩
    | .ok (table, stats) =>
      let entry : Installed := ⟨table, stats⟩
      ⟨.ok entry, { ctx with installed := ctx.installed.insert name entry }, [], built.accesses⟩

/-- Loads the table of a locale without making it active. -/
def load (ctx : Context) (storage : Storage) (locale : String) :
    Outcome (Except Error LoadStats) :=
  let out := ctx.install storage locale
  { out with result := out.result.map Installed.stats }

/-- The table of a locale, loaded if need be. -/
def tableFor (ctx : Context) (storage : Storage) (locale : String) :
    Outcome (Except Error LocaleTable) :=
  let out := ctx.install storage locale
  { out with result := out.result.map Installed.table }

/-- Makes the table of a locale the active one, loading it if need be. -/
def setLocale (ctx : Context) (storage : Storage) (locale : String) :
    Outcome (Except Error LoadStats) :=
  let out := ctx.install storage locale
  match out.result with
  | .error e => { out with result := .error e }
  | .ok loaded =>
    match out.context.installed.get? loaded.table.name with
    | none => { out with result := .error (.notLoaded loaded.table.name) }
    | some entry =>
      { out with
        result := .ok entry.stats
        context := { out.context with active := some entry.table } }

/-- Drops all tables, then loads the system locale and makes it active. -/
def init (ctx : Context) (storage : Storage) : Outcome (Except Error LoadStats) :=
  setLocale { ctx with installed := OrderedMap.empty, active := none } storage ""

/-- A context by its configuration, ready for lookups. -/
def ofConfig (config : Config) (environment : String → Option String) (storage : Storage) :
    Except Error Context := do
  config.validate.mapError .config
  let out := (new config environment).init storage
  match out.result with
  | .error e => .error e
  | .ok _ => return out.context

/-- Whether a name is installed. -/
def isLoaded (ctx : Context) (name : String) : Bool := ctx.installed.contains name

/-- The installed names, oldest first. -/
def installedNames (ctx : Context) : List String := ctx.installed.keys

/-- The statistics of the load of a name. -/
def loadStats (ctx : Context) (name : String) : Option LoadStats :=
  (ctx.installed.get? name).map Installed.stats

/-- The name of the active table. -/
def activeName (ctx : Context) : Option String := ctx.active.map LocaleTable.name

/-- Forgets an installed name; the active one is kept. -/
def clear (ctx : Context) (name : String) : Outcome Bool :=
  if ctx.activeName = some name then
    ⟨false, ctx, [.warning (.keptActive name)], []⟩
  else if ctx.isLoaded name then
    ⟨true, { ctx with installed := ctx.installed.erase name }, [], []⟩
  else ctx.still false

/-- The active table. -/
def activeTable (ctx : Context) : Except Error LocaleTable :=
  match ctx.active with
  | some table => .ok table
  | none => .error .notInitialized

/-- Whether the active table has an entry. -/
def has (ctx : Context) (id : String) : Except Error Bool :=
  ctx.activeTable.map fun table => table.contains id

/-- The text of an identifier in the active table, else the default, else the
placeholder. With `warn` set a miss is reported. -/
def get (ctx : Context) (id : String) (fallback : Option String) (warn : Bool) :
    Outcome (Except Error String) :=
  match ctx.activeTable with
  | .error e => ctx.still (.error e)
  | .ok table =>
    let warnings := if warn then table.missing id fallback else []
    ⟨.ok (table.resolve id fallback), ctx, warnings.map .warning, []⟩

/-- Expands a template. -/
def expand (ctx : Context) (input : String) : Except Error String :=
  ctx.activeTable.map fun table => Template.expand table input

/-- The traversal of documents by the active table. -/
def traversal (ctx : Context) (shallow : Bool) : Except Error Document.Traversal :=
  ctx.activeTable.map fun table => ⟨table, shallow, ctx.config.maxDepth⟩

/-- The expanded copy of a document. -/
def translate (ctx : Context) (document : Json.Value) (shallow : Bool) :
    Except Error Json.Value := do
  let run ← ctx.traversal shallow
  Document.translate run document

/-- Expands a value through its JSON form. -/
def translateVia {α : Type} [Document.Coded α] (ctx : Context) (a : α) (shallow : Bool) :
    Except Error α := do
  let run ← ctx.traversal shallow
  Document.translateVia run a

/-- Expands a document in place. -/
def populate (ctx : Context) (document : Json.Value) (shallow : Bool) :
    Json.Value × Except Error Unit :=
  match ctx.traversal shallow with
  | .error e => (document, .error e)
  | .ok run => Document.populate run document

/-- Takes over the pluralizer behind a reply. -/
def ofReply {α : Type} (ctx : Context) (reply : Plural.Reply α) : Outcome α :=
  ⟨reply.answer, { ctx with pluralizer := reply.pluralizer }, reply.events, []⟩

/-- The form of the word under an identifier of the active table. -/
def pluralized (ctx : Context) (locale id : String) (count : Plural.Count)
    (mode : Plural.Mode) : Outcome (Except Error String) :=
  match ctx.activeTable with
  | .error e => ctx.still (.error e)
  | .ok table => ctx.ofReply (ctx.pluralizer.pluralizedString table locale id count mode)

/-- The form of a literal word. -/
def pluralize (ctx : Context) (locale word : String) (count : Plural.Count)
    (mode : Plural.Mode) : Outcome (Except Error String) :=
  match ctx.activeTable with
  | .error e => ctx.still (.error e)
  | .ok _ => ctx.ofReply (ctx.pluralizer.pluralize locale word count mode)

/-- What the folder holds. It is listed once, at the first request. -/
def availability (ctx : Context) (storage : Storage) : Outcome Availability :=
  match ctx.available with
  | some available => ctx.still available
  | none =>
    let available := Availability.ofNames (ctx.folder.sourceNames storage)
    ⟨available, { ctx with available := some available }, [], [.walk ctx.folder.path]⟩

/-- The languages that sources name. -/
def languages (ctx : Context) (storage : Storage) : Outcome (List String) :=
  let out := ctx.availability storage
  { out with result := out.result.languages }

/-- The regions that sources name for a language or for all languages. -/
def regions (ctx : Context) (storage : Storage) (language : String) : Outcome (List String) :=
  let out := ctx.availability storage
  { out with result := out.result.regionsOf language }

end Context

end Phrasebook
