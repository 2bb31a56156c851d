import Phrasebook.OrderedMap
/-!
# TOML documents

A document is a table. Tables come about in four ways, which decide whether a
later line may still add to them.
-/

namespace Phrasebook.Toml

/-- How a table came about. -/
inductive TableKind
  /-- Under its own header, or as the document. -/
  | defined
  /-- As a step on the way of another header. -/
  | implied
  /-- By a dotted key. -/
  | dotted
  /-- In braces; nothing can be added. -/
  | inline
deriving DecidableEq, Repr

/-- A value of a document. -/
inductive Value
  | text (value : String)
  | integer (value : Int)
  | bool (value : Bool)
  /-- A float, as it is written. -/
  | real (literal : String)
  /-- A date, a time or both, as it is written. -/
  | moment (literal : String)
  | array (items : List Value)
  | table (kind : TableKind) (members : List (String × Value))
  /-- An array of tables, latest first. -/
  | tables (all : List (List (String × Value)))
deriving Repr, Inhabited

namespace Value

/-- The text that a value is. -/
def text? : Value → Option String
  | .text s => some s
  | _ => none

/-- The truth value that a value is. -/
def bool? : Value → Option Bool
  | .bool b => some b
  | _ => none

/-- The number that a value is, if that is whole and not negative. -/
def nat? : Value → Option Nat
  | .integer n => if 0 ≤ n then some n.toNat else none
  | _ => none

theorem text?_eq_some_iff {v : Value} {s : String} : v.text? = some s ↔ v = .text s := by
  cases v <;> simp [text?]

theorem bool?_eq_some_iff {v : Value} {b : Bool} : v.bool? = some b ↔ v = .bool b := by
  cases v <;> simp [bool?]

theorem nat?_eq_some_iff {v : Value} {n : Nat} : v.nat? = some n ↔ v = .integer n := by
  cases v with
  | integer i =>
    simp only [nat?, Option.ite_none_right_eq_some, Option.some.injEq, integer.injEq]
    omega
  | _ => simp [nat?]

end Value

/-- The members of a table. -/
abbrev Members := List (String × Value)

/-- Changes the table at a path, if it may be entered. Steps that do not exist
come about as tables of the kind `missing`; a dotted path enters only tables
that have no header of their own. -/
def change (missing : TableKind) (f : TableKind → Members → Option (TableKind × Members)) :
    List String → TableKind → Members → Option (TableKind × Members)
  | [], kind, members => f kind members
  | name :: path, kind, members =>
    match Assoc.get? name members with
    | none => do
      let (inner, sub) ← change missing f path missing []
      return (kind, Assoc.put name (.table inner sub) members)
    | some (.table .inline _) => none
    | some (.table inner sub) =>
      if missing = .dotted ∧ inner = .defined then none
      else do
        let (inner, sub) ← change missing f path inner sub
        return (kind, Assoc.put name (.table inner sub) members)
    | some (.tables (last :: earlier)) => do
      let (_, sub) ← change missing f path .defined last
      return (kind, Assoc.put name (.tables (sub :: earlier)) members)
    | some _ => none

/-- Adds a member under a dotted key. A name is written once, and a dotted key
adds only to tables that dotted keys made. -/
def assign (path : List String) (name : String) (v : Value) (kind : TableKind)
    (members : Members) : Option (TableKind × Members) :=
  change .dotted (fun kind members =>
    if (kind = .dotted) = (path = []) then none
    else if (Assoc.get? name members).isSome then none
    else some (kind, Assoc.put name v members)) path kind members

/-- Opens the table of a header. -/
def openTable (name : String) (kind : TableKind) (members : Members) :
    Option (TableKind × Members) :=
  match Assoc.get? name members with
  | none => some (kind, Assoc.put name (.table .defined []) members)
  | some (.table .implied sub) => some (kind, Assoc.put name (.table .defined sub) members)
  | some _ => none

/-- Opens a further table of an array of tables. -/
def openElement (name : String) (kind : TableKind) (members : Members) :
    Option (TableKind × Members) :=
  match Assoc.get? name members with
  | none => some (kind, Assoc.put name (.tables [[]]) members)
  | some (.tables all) => some (kind, Assoc.put name (.tables ([] :: all)) members)
  | some _ => none

end Phrasebook.Toml
