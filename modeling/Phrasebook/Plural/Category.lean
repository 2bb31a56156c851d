/-!
# Plural categories and modes

A count of things, or a position, falls into one of six grammatical categories.
The form of a word for a category is stored under the identifier of the word
with a suffix.
-/

namespace Phrasebook.Plural

/-- The grammatical categories. -/
inductive Category
  | zero
  | one
  | two
  | few
  | many
  | other
deriving DecidableEq, Repr

namespace Category

/-- The categories. -/
def all : List Category := [.zero, .one, .two, .few, .many, .other]

/-- The name of a category. -/
def name : Category → String
  | .zero => "zero"
  | .one => "one"
  | .two => "two"
  | .few => "few"
  | .many => "many"
  | .other => "other"

/-- The category with a name. -/
def ofName? (s : String) : Option Category := all.find? fun c => c.name == s

/-- The suffix under which the form for a category is stored: none for `one`,
whose form is the word itself, and `plural` for `other`. -/
def suffix? : Category → Option String
  | .one => none
  | .other => some "plural"
  | c => some c.name

end Category

/-- What a number counts. -/
inductive Mode
  /-- Quantities: "1 cow", "12 cows". -/
  | cardinal
  /-- Positions: "first item", "21st item". -/
  | ordinal
deriving DecidableEq, Repr, Inhabited

namespace Mode

/-- The name of a mode. -/
def name : Mode → String
  | .cardinal => "cardinal"
  | .ordinal => "ordinal"

end Mode

/-- Counts have 64 bits, with a sign. -/
abbrev Count := Int64

end Phrasebook.Plural
