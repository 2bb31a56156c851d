import Phrasebook.Storage.Path
/-!
# Storage

A storage answers two questions: what a file holds, and which files lie below a
directory. What it answers may change between two operations of a context, so
an operation takes the storage as it is at that time.
-/

namespace Phrasebook

/-- Kinds of failure of a read. -/
inductive ReadFault.Kind
  | notFound
  | permissionDenied
  | isDirectory
  | notDirectory
  | notText
  | invalidPath
  | nameTooLong
  | other
deriving DecidableEq, Repr

/-- Why a file could not be read. -/
structure ReadFault where
  kind : ReadFault.Kind
  /-- The reason in words. -/
  reason : String
deriving DecidableEq, Repr

/-- What a context asks of the files it works on. -/
structure Storage where
  /-- Relative locations are resolved against this path. -/
  root : Path
  /-- The text of a file. -/
  read : Path → Except ReadFault String
  /-- The files below a directory given relative to the root, at any depth. -/
  enumerate : Path → List Path

/-- One question put to a storage. -/
inductive Access
  | read (path : Path)
  | walk (directory : Path)
deriving DecidableEq, Repr

end Phrasebook
