import Phrasebook.Template
import Phrasebook.Error
/-!
# Translating documents

Every string leaf of a JSON document is a template. A document is expanded
either into a copy or in place; both enter containers down to a bound on their
nesting, and a shallow run leaves all containers but the outermost as they are.
Expanding in place keeps what was expanded before a container proved too deep.
-/

namespace Phrasebook.Document

open Json (Value)

/-- The settings of one traversal. -/
structure Traversal where
  /-- The table that expands the leaves. -/
  table : LocaleTable
  /-- Whether inner containers are left as they are. -/
  shallow : Bool
  /-- The number of nested containers that may be entered. -/
  bound : Nat

/-- Whether a container `depth` levels deep is left as it is. -/
def Traversal.skips (run : Traversal) (depth : Nat) : Bool := run.shallow && 0 < depth

mutual

/-- The expanded copy of a value that stands `depth` containers deep. -/
def translateAt (run : Traversal) (depth : Nat) : Value → Except Error Value
  | .text s => .ok (.text (Template.expand run.table s))
  | .array items =>
    if run.skips depth then .ok (.array items)
    else if run.bound ≤ depth then .error (.tooDeep run.bound)
    else (translateItems run (depth + 1) items).map .array
  | .object members =>
    if run.skips depth then .ok (.object members)
    else if run.bound ≤ depth then .error (.tooDeep run.bound)
    else (translateMembers run (depth + 1) members).map .object
  | v => .ok v

/-- The expanded copy of each item. -/
def translateItems (run : Traversal) (depth : Nat) : List Value → Except Error (List Value)
  | [] => .ok []
  | v :: rest =>
    match translateAt run depth v with
    | .error e => .error e
    | .ok v => (translateItems run depth rest).map (v :: ·)

/-- The expanded copy of each member; names are kept. -/
def translateMembers (run : Traversal) (depth : Nat) :
    List (String × Value) → Except Error (List (String × Value))
  | [] => .ok []
  | (name, v) :: rest =>
    match translateAt run depth v with
    | .error e => .error e
    | .ok v => (translateMembers run depth rest).map ((name, v) :: ·)

end

mutual

/-- Expands a value that stands `depth` containers deep in place: the value that
is left behind, and whether all of it was expanded. -/
def populateAt (run : Traversal) (depth : Nat) : Value → Value × Except Error Unit
  | .text s => (.text (Template.expand run.table s), .ok ())
  | .array items =>
    if run.skips depth then (.array items, .ok ())
    else if run.bound ≤ depth then (.array items, .error (.tooDeep run.bound))
    else
      let (items, result) := populateItems run (depth + 1) items
      (.array items, result)
  | .object members =>
    if run.skips depth then (.object members, .ok ())
    else if run.bound ≤ depth then (.object members, .error (.tooDeep run.bound))
    else
      let (members, result) := populateMembers run (depth + 1) members
      (.object members, result)
  | v => (v, .ok ())

/-- Expands items in place, up to the first failure. -/
def populateItems (run : Traversal) (depth : Nat) :
    List Value → List Value × Except Error Unit
  | [] => ([], .ok ())
  | v :: rest =>
    match populateAt run depth v with
    | (v, .error e) => (v :: rest, .error e)
    | (v, .ok ()) =>
      let (rest, result) := populateItems run depth rest
      (v :: rest, result)

/-- Expands members in place, up to the first failure. -/
def populateMembers (run : Traversal) (depth : Nat) :
    List (String × Value) → List (String × Value) × Except Error Unit
  | [] => ([], .ok ())
  | (name, v) :: rest =>
    match populateAt run depth v with
    | (v, .error e) => ((name, v) :: rest, .error e)
    | (v, .ok ()) =>
      let (rest, result) := populateMembers run depth rest
      ((name, v) :: rest, result)

end

/-- The expanded copy of a document. -/
def translate (run : Traversal) (v : Value) : Except Error Value := translateAt run 0 v

/-- Expands a document in place. -/
def populate (run : Traversal) (v : Value) : Value × Except Error Unit := populateAt run 0 v

/-- Values that have a JSON form. -/
class Coded (α : Type) where
  /-- The JSON form of a value. -/
  encode : α → Except Json.Fault Value
  /-- The value of a JSON form. -/
  decode : Value → Except Json.Fault α

/-- A document is its own JSON form. -/
instance : Coded Value := ⟨.ok, .ok⟩

/-- Expands a value through its JSON form. -/
def translateVia {α : Type} [Coded α] (run : Traversal) (a : α) : Except Error α := do
  let v ← (Coded.encode a).mapError .conversion
  let v ← translate run v
  (Coded.decode v).mapError .conversion

end Phrasebook.Document
