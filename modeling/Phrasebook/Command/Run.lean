import Phrasebook.Command.Help
import Phrasebook.Command.Running
import Phrasebook.Config.Document
import Phrasebook.Context
import Phrasebook.Json.Reader
import Phrasebook.Json.Writer
/-!
# Running commands

A command is run on a context made by the configuration. It writes only once
nothing can fail any more.
-/

namespace Phrasebook.Command

/-- What a command finds around it. -/
structure Surroundings where
  /-- Reads a file by its path from the working directory. -/
  read : Path → Except ReadFault String
  /-- The storage under a root. -/
  storage : Path → Storage
  /-- The variables that are set. -/
  environment : String → Option String

/-- Reads a configuration file. -/
def readConfig (s : Surroundings) (path : Path) : Except Error Config :=
  match s.read path with
  | .error fault => .error (.unreadable path fault)
  | .ok text => (Config.parse text).mapError .config

/-- What an invocation starts from: its file, or the defaults. -/
def baseConfig (s : Surroundings) (inv : Invocation) : Except Failure Config :=
  match inv.config with
  | some path => (readConfig s path).mapError (.configuration path)
  | none => .ok {}

/-- The configuration of an invocation: its file or the defaults, then the
environment, then its options. -/
def loadConfig (s : Surroundings) (inv : Invocation) : Except Failure Config := do
  let base ← baseConfig s inv
  let config := base.override s.environment
  let config := { config with
    rootPath := inv.root.getD config.rootPath
    folder := inv.folder.getD config.folder
    defaultLocale := inv.locale.or config.defaultLocale }
  config.validate.mapError fun fault => .error (.config fault)
  return config

/-- The statistics of a load as a document. -/
def report (stats : LoadStats) : Json.Value :=
  let number (n : Nat) : Json.Value := .number (.whole n)
  .object [
    ("locale", .text stats.locale),
    ("common_files", number stats.commonFiles),
    ("region_files", number stats.regionFiles),
    ("language_files", number stats.languageFiles),
    ("locale_files", number stats.localeFiles),
    ("total_strings", number stats.totalStrings),
    ("total_files", number stats.totalFiles)]

/-- Loads locales in order and collects their statistics. -/
def loadAll (storage : Storage) : Context → List String → Except Error (List LoadStats)
  | _, [] => .ok []
  | ctx, locale :: rest =>
    let out := ctx.load storage locale
    match out.result with
    | .error e => .error e
    | .ok stats => (loadAll storage out.context rest).map (stats :: ·)

/-- Performs a task on a context. -/
def perform (s : Surroundings) (storage : Storage) (ctx : Context) : Task → Running Unit
  | .lookup id fallback => do
    let text ← .ofResult (ctx.get id fallback true).result
    .printLine text
  | .render template => do
    let text ← .ofResult (ctx.expand template)
    .printLine text
  | .translate input shallow => do
    let text ← .ofExcept ((s.read input).mapError (.input input))
    let document ← .ofExcept ((Json.Value.read text).mapError (.document input))
    let document ← .ofResult (ctx.translate document shallow)
    .printLine (document.indented 0)
  | .plural id count mode word => do
    let mode ← .ofResult (Plural.Mode.parse mode)
    let locale := ctx.activeName.getD ""
    let out := if word then ctx.pluralize locale id count mode
      else ctx.pluralized locale id count mode
    let text ← .ofResult out.result
    .printLine text
  | .stats locales => do
    let locales := if locales.isEmpty then ctx.activeName.toList else locales
    let all ← .ofResult (loadAll storage ctx locales)
    .printLine ((Json.Value.array (all.map report)).indented 0)
  | .languages => .printLines (ctx.languages storage).result
  | .regions language => .printLines (ctx.regions storage language).result

/-- Runs an invocation. -/
def run (s : Surroundings) (inv : Invocation) : Running Unit := do
  let config ← .ofExcept (loadConfig s inv)
  let storage := s.storage config.rootPath
  let ctx ← .ofExcept ((Context.ofConfig config s.environment storage).mapError .tables)
  perform s storage ctx inv.task

/-- How the program ends. -/
structure Ending where
  /-- The exit code. -/
  code : Nat
  /-- What it wrote to its standard output. -/
  output : String
  /-- What it says about a failure. -/
  message : Option String
deriving DecidableEq, Repr

/-- The text that names the version. -/
def versionText : String := program.name ++ " 0.1.0\n"

/-- How a command line that leads to no task ends: help and version are
answered, all else is a usage error. -/
def Stop.ending : Stop → Ending
  | .usage => ⟨2, "", none⟩
  | .help command => ⟨0, helpText command, none⟩
  | .version => ⟨0, versionText, none⟩

/-- How a run ends. -/
def Running.ending {α : Type} (x : Running α) : Ending :=
  match x.outcome with
  | .ok _ => ⟨0, x.output, none⟩
  | .error failure => ⟨1, x.output, some failure.message⟩

/-- How the program ends on a command line. -/
def ending (s : Surroundings) (args : List String) : Ending :=
  match parse args with
  | .ok inv => (run s inv).ending
  | .error stop => stop.ending

end Phrasebook.Command
