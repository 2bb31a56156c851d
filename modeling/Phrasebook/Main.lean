import Phrasebook.Command.Run
import Phrasebook.Storage.Disk
/-!
# The program

What a command may look at is taken from the file system and the environment
first; the command itself then runs on that.
-/

namespace Phrasebook

open Command

/-- The content of a file, or why it has none. -/
def contentOf (path : Path) : IO (Except ReadFault.Kind String) := do
  try
    return Disk.textOfBytes (← IO.FS.readBinFile path.text)
  catch
    | .permissionDenied _ _ _ => return .error .permissionDenied
    | _ => return .error .other

/-- Adds the file or directory at a path, if there is one. -/
def takeFile (disk : Disk) (path : Path) : IO Disk := do
  try
    let place ← IO.FS.realPath path.text
    if !(← place.pathExists) then return disk
    else if ← place.isDir then return disk.makeDirectory path
    else return disk.write path (← contentOf path)
  catch _ => return disk

/-- Adds the files below a directory. -/
partial def takeDirectory (disk : Disk) (path : Path) : IO Disk := do
  try
    let entries ← (← IO.FS.realPath path.text).readDir
    entries.foldlM (fun disk entry => do
      let inner := path.join entry.fileName
      match (← entry.path.symlinkMetadata).type with
      | .dir => takeDirectory disk inner
      | _ => takeFile disk inner) (disk.makeDirectory path)
  catch _ => return disk

/-- Takes what an invocation may look at. -/
def takeFor (inv : Invocation) (environment : String → Option String) : IO Disk := do
  let here : Path := ⟨(← IO.currentDir).toString⟩
  let disk := (Disk.empty here.steps).makeDirectory here
  let disk ← (inv.config.toList).foldlM takeFile disk
  let disk ← match inv.task with
    | .translate input _ => takeFile disk input
    | _ => pure disk
  match loadConfig ⟨disk.read, disk.storage, environment⟩ inv with
  | .error _ => return disk
  | .ok config => takeDirectory disk (config.rootPath.join config.folder.text)

/-- The variables that commands look at. -/
def takeEnvironment : IO (String → Option String) := do
  let names := SystemLocale.variableNames ++
    [Config.rootVariable, Config.folderVariable, Config.localeVariable]
  let values ← names.mapM fun name => return (name, ← IO.getEnv name)
  return fun name => (Assoc.get? name values).join

/-- Ends the program as told. -/
def Command.Ending.report (e : Ending) : IO UInt32 := do
  IO.print e.output
  match e.message with
  | some message => IO.eprintln ("Error: " ++ message)
  | none => if e.code ≠ 0 then IO.eprint programHelp
  return e.code.toUInt32

end Phrasebook

/-- Reads the command line, looks around and answers. -/
def main (args : List String) : IO UInt32 := do
  let environment ← Phrasebook.takeEnvironment
  let disk ← match Phrasebook.Command.parse args with
    | .ok inv => Phrasebook.takeFor inv environment
    | .error _ => pure (Phrasebook.Disk.empty [])
  (Phrasebook.Command.ending ⟨disk.read, disk.storage, environment⟩ args).report
