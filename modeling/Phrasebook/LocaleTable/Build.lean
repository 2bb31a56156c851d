import Phrasebook.LocaleTable
import Phrasebook.Layer
import Phrasebook.Storage.Loading
/-!
# Building a locale table

A source is a file `<name>.json`, a directory `<name>/` of JSON files, or both;
the file is merged first. Files that are absent are passed over, and the first
file that cannot be read or parsed ends the build.
-/

namespace Phrasebook

/-- The extension of source files. -/
def sourceExtension : String := "json"

/-- Whether a path has the extension of source files, in any ASCII case. -/
def isSourceFile (path : Path) : Bool :=
  match path.extension? with
  | some extension => extension.toLower == sourceExtension
  | none => false

/-- Where string tables are stored. -/
structure Folder where
  /-- The folder, relative to the root of the storage. -/
  path : Path
deriving DecidableEq, Repr, Inhabited

namespace Folder

/-- The folder as the storage sees it. -/
def resolved (folder : Folder) (storage : Storage) : Path := storage.root.join folder.path.text

/-- The single file of a source. -/
def sourceFile (folder : Folder) (storage : Storage) (source : String) : Path :=
  (folder.resolved storage).join (source ++ "." ++ sourceExtension)

/-- The directory of a source, relative to the root. -/
def sourceDirectory (folder : Folder) (source : String) : Path := folder.path.join source

/-- Merges one file: the merged table, or nothing when the file is absent. -/
def mergeFile (storage : Storage) (path : Path) (table : StringTable) :
    Loading (Option StringTable) := do
  match ← Loading.read storage path with
  | .ok text =>
    match table.load text with
    | .ok table => return some table
    | .error fault => Loading.fail (.malformedSource path fault)
  | .error fault =>
    if fault.kind = .notFound then return none
    else Loading.fail (.unreadable path fault)

/-- Merges files in order and counts those that were present. -/
def mergeFiles (storage : Storage) :
    List Path → StringTable × Nat → Loading (StringTable × Nat)
  | [], merged => return merged
  | path :: rest, (table, count) => do
    match ← mergeFile storage path table with
    | some table => mergeFiles storage rest (table, count + 1)
    | none => mergeFiles storage rest (table, count)

/-- Merges a source and counts its files. -/
def mergeSource (folder : Folder) (storage : Storage) (source : String)
    (table : StringTable) : Loading (StringTable × Nat) := do
  let merged ← mergeFiles storage [folder.sourceFile storage source] (table, 0)
  let paths ← Loading.walk storage (folder.sourceDirectory source)
  mergeFiles storage (paths.filter isSourceFile) merged

/-- Merges layers in order and notes the files of each. -/
def mergeLayers (folder : Folder) (storage : Storage) (code : LocaleCode) :
    List Layer → StringTable × LoadStats → Loading (StringTable × LoadStats)
  | [], merged => return merged
  | layer :: rest, (table, stats) => do
    match layer.source? code with
    | none => mergeLayers folder storage code rest (table, stats)
    | some source =>
      let (table, files) ← mergeSource folder storage source table
      mergeLayers folder storage code rest (table, stats.record layer files)

/-- Builds the table of a locale under a name. -/
def build (folder : Folder) (storage : Storage) (name : String) (code : LocaleCode) :
    Loading (LocaleTable × LoadStats) := do
  let (strings, stats) ←
    mergeLayers folder storage code Layer.all (StringTable.empty, LoadStats.empty name)
  return (⟨name, code, strings⟩, { stats with totalStrings := strings.size })

end Folder

end Phrasebook
