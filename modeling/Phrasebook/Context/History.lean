import Phrasebook.Context
/-!
# Histories

An operation names what is asked of a context, and a history is a list of
operations, each with the storage and the system locale as they are at that time.
-/

namespace Phrasebook

/-- What can be asked of a context. -/
inductive Operation
  | init
  | load (locale : String)
  | setLocale (locale : String)
  | table (locale : String)
  | activeTable
  | isLoaded (name : String)
  | loadStats (name : String)
  | clear (name : String)
  | has (id : String)
  | get (id : String) (fallback : Option String) (warn : Bool)
  | template (input : String)
  | translate (document : Json.Value) (shallow : Bool)
  /-- A translation through the JSON form of a value. -/
  | translateVia (document : Json.Value) (shallow : Bool)
  | populate (document : Json.Value) (shallow : Bool)
  | pluralized (locale id : String) (count : Plural.Count) (mode : Plural.Mode)
  | pluralize (locale word : String) (count : Plural.Count) (mode : Plural.Mode)
  | languages
  | regions (language : String)

/-- What an operation answers when it does not fail. -/
inductive Answer
  | stats (stats : LoadStats)
  | noStats
  | table (table : LocaleTable)
  | flag (value : Bool)
  | text (value : String)
  | texts (values : List String)
  | document (value : Json.Value)
  /-- The document left behind by expanding it in place, and whether all of it
  was expanded. -/
  | populated (document : Json.Value) (outcome : Except Error Unit)

namespace Outcome

variable {α β : Type}

/-- Rewrites the result. -/
def map (f : α → β) (out : Outcome α) : Outcome β :=
  ⟨f out.result, out.context, out.events, out.accesses⟩

end Outcome

namespace Context

/-- Performs one operation. -/
def perform (ctx : Context) (storage : Storage) :
    Operation → Outcome (Except Error Answer)
  | .init => (ctx.init storage).map (·.map .stats)
  | .load locale => (ctx.load storage locale).map (·.map .stats)
  | .setLocale locale => (ctx.setLocale storage locale).map (·.map .stats)
  | .table locale => (ctx.tableFor storage locale).map (·.map .table)
  | .activeTable => ctx.still (ctx.activeTable.map .table)
  | .isLoaded name => ctx.still (.ok (.flag (ctx.isLoaded name)))
  | .loadStats name => ctx.still (.ok (((ctx.loadStats name).map .stats).getD .noStats))
  | .clear name => (ctx.clear name).map fun removed => .ok (.flag removed)
  | .has id => ctx.still ((ctx.has id).map .flag)
  | .get id fallback warn => (ctx.get id fallback warn).map (·.map .text)
  | .template input => ctx.still ((ctx.expand input).map .text)
  | .translate document shallow => ctx.still ((ctx.translate document shallow).map .document)
  | .translateVia document shallow =>
    ctx.still ((ctx.translateVia document shallow).map .document)
  | .populate document shallow =>
    let (left, outcome) := ctx.populate document shallow
    ctx.still (.ok (.populated left outcome))
  | .pluralized locale id count mode => (ctx.pluralized locale id count mode).map (·.map .text)
  | .pluralize locale word count mode => (ctx.pluralize locale word count mode).map (·.map .text)
  | .languages => (ctx.languages storage).map fun names => .ok (.texts names)
  | .regions language => (ctx.regions storage language).map fun names => .ok (.texts names)

end Context

/-- An operation, with what it is performed on. -/
structure Step where
  storage : Storage
  /-- The locale that an empty request stands for at that time. -/
  system : String
  operation : Operation

/-- Performs the operation of a step. -/
def Context.take (ctx : Context) (step : Step) : Outcome (Except Error Answer) :=
  { ctx with system := step.system }.perform step.storage step.operation

/-- Operations in order. -/
abbrev History := List Step

namespace History

/-- The context after a history. -/
def after (ctx : Context) (h : History) : Context :=
  h.foldl (fun ctx step => (ctx.take step).context) ctx

/-- The outcomes along a history. -/
def outcomes (ctx : Context) : History → List (Outcome (Except Error Answer))
  | [] => []
  | step :: rest =>
    ctx.take step :: outcomes (ctx.take step).context rest

end History

end Phrasebook
