import Phrasebook.Storage.Basic
import Phrasebook.OrderedMap
/-!
# Storage on a disk

A disk is a tree of directories and files. Paths are followed step by step from
the working directory, where `..` leads up and every step but the last has to be
a directory.
-/

namespace Phrasebook

/-- What stands at a place of a disk. -/
inductive Disk.Entry
  | directory
  | file (text : String)
  /-- A file whose text cannot be had. -/
  | sealed (kind : ReadFault.Kind)
deriving DecidableEq, Repr

/-- A file with its text, or the reason why it has none. -/
def Disk.Entry.ofContent : Except ReadFault.Kind String → Disk.Entry
  | .ok text => .file text
  | .error kind => .sealed kind


/-- The entries of a disk by their place, and the working directory. The top is
always a directory. -/
structure Disk where
  entries : OrderedMap (List String) Disk.Entry
  working : List String

namespace Disk

/-- A disk without entries. -/
def empty (working : List String) : Disk := ⟨OrderedMap.empty, working⟩

/-- The text of bytes, if they are UTF-8. -/
def textOfBytes (bytes : ByteArray) : Except ReadFault.Kind String :=
  match String.fromUTF8? bytes with
  | some text => .ok text
  | none => .error .notText

/-- What stands at a place. -/
def entry? (d : Disk) (place : List String) : Option Entry :=
  if place.isEmpty then some .directory else d.entries.get? place

/-- Whether a directory stands at a place. -/
def isDirectory (d : Disk) (place : List String) : Bool := d.entry? place == some .directory

/-- The greatest length of a name in bytes. -/
def longestName : Nat := 255

/-- The greatest length of a path in bytes. -/
def longestPath : Nat := 4095

/-- Follows the pieces of a path from a place. -/
def follow (d : Disk) : List String → List String → Except ReadFault.Kind (List String)
  | place, [] => .ok place
  | place, piece :: rest =>
    if !d.isDirectory place then .error .notDirectory
    else if piece = "" ∨ piece = "." then d.follow place rest
    else if piece = ".." then d.follow place.dropLast rest
    else if longestName < piece.utf8ByteSize then .error .nameTooLong
    else if (d.entry? (place ++ [piece])).isNone then .error .notFound
    else d.follow (place ++ [piece]) rest

/-- Where a path starts. -/
def start (d : Disk) (path : Path) : List String := if path.isAbsolute then [] else d.working

/-- The place that a path leads to. -/
def locate (d : Disk) (path : Path) : Except ReadFault.Kind (List String) :=
  if path.text.toList.contains '\x00' then .error .invalidPath
  else if path.text.isEmpty then .error .notFound
  else if longestPath < path.text.utf8ByteSize then .error .nameTooLong
  else
    d.follow (d.start path)
      ((Text.pieces Path.isSlash path.text.toList).map String.ofList)

/-- A fault of a disk in words. -/
def reason : ReadFault.Kind → String
  | .notFound => "No such file or directory"
  | .permissionDenied => "Permission denied"
  | .isDirectory => "Is a directory"
  | .notDirectory => "Not a directory"
  | .notText => "stream did not contain valid UTF-8"
  | .invalidPath => "file name contained an unexpected NUL byte"
  | .nameTooLong => "File name too long"
  | .other => "Input/output error"

/-- Reads the text of a file. -/
def read (d : Disk) (path : Path) : Except ReadFault String :=
  let fault (kind : ReadFault.Kind) : Except ReadFault String := .error ⟨kind, reason kind⟩
  match d.locate path with
  | .error kind => fault kind
  | .ok place =>
    match d.entry? place with
    | some (.file text) => .ok text
    | some (.sealed kind) => fault kind
    | some .directory => fault .isDirectory
    | none => fault .notFound

/-- The order of a walk: by the names along the way, byte by byte. -/
def before : List String → List String → Bool
  | [], _ => true
  | _ :: _, [] => false
  | a :: as, b :: bs => if a = b then before as bs else decide (a < b)

/-- The files below a directory, by their steps from it, in the order of a
walk. -/
def filesBelow (d : Disk) (place : List String) : List (List String) :=
  let below := d.entries.entries.filterMap fun (steps, entry) =>
    if entry ≠ .directory && place <+: steps then some (steps.drop place.length) else none
  below.mergeSort before

/-- The paths of the files below a directory; none if there is no directory. -/
def enumerate (d : Disk) (directory : Path) : List Path :=
  match d.locate directory with
  | .error _ => []
  | .ok place =>
    if d.isDirectory place then
      (d.filesBelow place).map fun steps => steps.foldl Path.join directory
    else []

/-- The disk as a storage under a root. -/
def storage (d : Disk) (root : Path) : Storage where
  root := root
  read := d.read
  enumerate := fun directory => d.enumerate (root.join directory.text)

/-- Takes steps from a place and makes the directories that are missing on the
way: the disk then, and the place where the steps end. No way leads through a
file. -/
def pave? (d : Disk) : List String → List String → Option (Disk × List String)
  | place, [] => some (d, place)
  | place, ".." :: rest => d.pave? place.dropLast rest
  | place, name :: rest =>
    let place := place ++ [name]
    match d.entry? place with
    | some .directory => d.pave? place rest
    | some _ => none
    | none => pave? { d with entries := d.entries.insert place .directory } place rest

/-- Makes a directory and those on the way to it, unless a file is in the way. -/
def makeDirectory (d : Disk) (path : Path) : Disk :=
  ((d.pave? (d.start path) path.steps).map Prod.fst).getD d

/-- Writes a file and makes the directories on the way to it, unless a file is
in the way or the path names a directory. -/
def write (d : Disk) (path : Path) (content : Except ReadFault.Kind String) : Disk :=
  match path.fileName?, d.pave? (d.start path) path.steps.dropLast with
  | some name, some (d, place) =>
    if d.isDirectory (place ++ [name]) then d
    else { d with entries := d.entries.insert (place ++ [name]) (.ofContent content) }
  | _, _ => d

/-- Removes a file. -/
def remove (d : Disk) (path : Path) : Disk :=
  match d.locate path with
  | .ok place =>
    if d.isDirectory place then d else { d with entries := d.entries.erase place }
  | .error _ => d

end Disk

end Phrasebook
