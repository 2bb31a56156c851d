import Phrasebook.Storage.Basic
import Phrasebook.OrderedMap
/-!
# Storage in memory

Files are listed in the order in which they were first written. Paths that take
the same steps name the same file; `..` is a name like any other here.
-/

namespace Phrasebook

/-- Files by the steps of their paths. -/
structure Memory where
  root : Path
  /-- The path as first written, and what a read answers. -/
  files : OrderedMap (List String) (Path × Except ReadFault String)

namespace Memory

/-- A memory without files. -/
def empty (root : Path) : Memory := ⟨root, OrderedMap.empty⟩

/-- Writes a file, given relative to the root; a file written again keeps its place. -/
def write (m : Memory) (name : String) (content : Except ReadFault String) : Memory :=
  let path := m.root.join name
  let shown := ((m.files.get? path.steps).map Prod.fst).getD path
  { m with files := m.files.insert path.steps (shown, content) }

@[simp]
theorem root_write (m : Memory) (name : String) (content : Except ReadFault String) :
    (m.write name content).root = m.root :=
  rfl

/-- Removes a file. -/
def remove (m : Memory) (name : String) : Memory :=
  { m with files := m.files.erase (m.root.join name).steps }

/-- The answer to a read. -/
def read (m : Memory) (path : Path) : Except ReadFault String :=
  match m.files.get? path.steps with
  | some (_, content) => content
  | none => .error ⟨.notFound, "no such file"⟩

/-- The files strictly below a directory, oldest first. -/
def enumerate (m : Memory) (directory : Path) : List Path :=
  let base := (m.root.join directory.text).steps
  (m.files.entries.filter fun (steps, _) => base <+: steps && base ≠ steps).map fun (_, p, _) => p

/-- The memory as a storage. -/
def storage (m : Memory) : Storage := ⟨m.root, m.read, m.enumerate⟩

end Memory

end Phrasebook
