import Phrasebook.Plural.Category
/-!
# Plural rules of a language

Rules may select a category, form a plural and form an ordinal phrase; each part
may decline. The rules of English come with the library.
-/

namespace Phrasebook.Plural

/-- The rules of one language. -/
structure Rules where
  /-- The category of a count. -/
  select : Count → Mode → Option Category
  /-- The form of a word for a count of things. -/
  pluralize : String → Count → Option String
  /-- The phrase for a word at a position. -/
  makeOrdinal : String → Count → Option String

/-- Rules that decline everything. -/
def Rules.none : Rules := ⟨fun _ _ => .none, fun _ _ => .none, fun _ _ => .none⟩

namespace English

/-- The ordinals that are written as words, from zero on. -/
def ordinalWords : List String := [
  "zeroth", "first", "second", "third", "fourth", "fifth", "sixth", "seventh", "eighth", "ninth",
  "tenth", "eleventh", "twelfth", "thirteenth", "fourteenth", "fifteenth", "sixteenth",
  "seventeenth", "eighteenth", "nineteenth"]

/-- The magnitude of a count. It has no sign, so that the least count has one of 64 bits too. -/
def magnitude (count : Count) : UInt64 :=
  if count < 0 then (-count).toUInt64 else count.toUInt64

/-- The ending of an ordinal in digits, by its magnitude. -/
def ordinalSuffix (magnitude : UInt64) : String :=
  if 11 ≤ magnitude % 100 ∧ magnitude % 100 ≤ 13 then "th"
  else
    match magnitude % 10 with
    | 1 => "st"
    | 2 => "nd"
    | 3 => "rd"
    | _ => "th"

/-- The ordinal of a count: a word from zero to nineteen, else digits. -/
def ordinalNumber (count : Count) : String :=
  let digits := toString count.toInt ++ ordinalSuffix (magnitude count)
  if 0 ≤ count.toInt then (ordinalWords[count.toInt.toNat]?).getD digits else digits

/-- `one` for exactly one, `other` for all else. -/
def select (count : Count) (_ : Mode) : Category := if count = 1 then .one else .other

/-- Appends `es` after `o`, `x` and `s`, and `s` after all else. -/
def pluralize (singular : String) (count : Count) : String :=
  if count = 1 then singular
  else if singular.toList.getLast?.any fun c => c == 'o' || c == 'x' || c == 's' then
    singular ++ "es"
  else singular ++ "s"

/-- Puts the ordinal before the word. -/
def makeOrdinal (word : String) (count : Count) : String := ordinalNumber count ++ " " ++ word

/-- The rules of English, which never decline. -/
def rules : Rules where
  select count mode := some (select count mode)
  pluralize word count := some (pluralize word count)
  makeOrdinal word count := some (makeOrdinal word count)

end English

end Phrasebook.Plural
