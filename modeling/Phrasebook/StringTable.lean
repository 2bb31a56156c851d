import Phrasebook.OrderedMap
import Phrasebook.Json.StringObject
/-!
# String tables

A table maps identifiers to texts. It is filled from JSON objects of strings; a
later load overwrites the identifiers that it shares with an earlier one, and a
load that fails changes nothing.
-/

namespace Phrasebook

/-- Texts by identifier, in the order in which the identifiers were first
written. -/
structure StringTable where
  strings : OrderedMap String String

namespace StringTable

/-- The table without entries. -/
def empty : StringTable := ⟨OrderedMap.empty⟩

instance : Inhabited StringTable := ⟨empty⟩

/-- The text of an identifier. -/
def get? (t : StringTable) (id : String) : Option String := t.strings.get? id

/-- Whether an identifier has an entry. -/
def contains (t : StringTable) (id : String) : Bool := t.strings.contains id

/-- Sets the text of one identifier. -/
def set (t : StringTable) (id text : String) : StringTable := ⟨t.strings.insert id text⟩

/-- Sets the text of each identifier in turn. -/
def setAll (t : StringTable) (pairs : List (String × String)) : StringTable :=
  ⟨t.strings.insertAll pairs⟩

/-- Merges a JSON object of strings, which is read as a whole first. -/
def load (t : StringTable) (source : String) : Except Json.Fault StringTable :=
  (Json.StringObject.read source).map fun members => t.setAll (OrderedMap.ofList members).entries

/-- The number of identifiers. -/
def size (t : StringTable) : Nat := t.strings.size

/-- Whether the table has no entries. -/
def isEmpty (t : StringTable) : Bool := t.size == 0

/-- Whether two tables have the same entries, in whatever order. -/
def sameEntries (a b : StringTable) : Bool := a.strings.sameEntries b.strings

/-- The identifiers and texts, in order. -/
def entries (t : StringTable) : List (String × String) := t.strings.entries

theorem setAll_append (t : StringTable) (a b : List (String × String)) :
    t.setAll (a ++ b) = (t.setAll a).setAll b := by
  rw [setAll, OrderedMap.insertAll_append]
  rfl

/-- What an object says twice is the same as if it were set twice. -/
theorem load_eq (t : StringTable) (source : String) :
    t.load source = (Json.StringObject.read source).map t.setAll := by
  rw [load]
  congr 1
  funext members
  rw [setAll, OrderedMap.insertAll_entries_ofList]
  rfl

end StringTable

end Phrasebook
