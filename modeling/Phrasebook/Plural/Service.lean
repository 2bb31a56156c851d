import Phrasebook.OrderedMap
import Phrasebook.Locale.Tag
import Phrasebook.Plural.Cldr.Cardinal
import Phrasebook.Plural.Cldr.Ordinal
/-!
# Plural services

A service selects a category for a language tag. Rules are found in a book of rules: those of
the whole tag first and those of its bare language then. The CLDR service looks them up in its
book and keeps what it found, failures included.
-/

namespace Phrasebook.Plural

/-- A book of plural rules: the rules it lists for tags as they are written, and the category
that rules give to a count. -/
structure RuleBook (ρ : Type) where
  listed? : LanguageTag → Mode → Option ρ
  select? : ρ → Count → Option Category

/-- The rules of a tag, else those of its language. -/
def RuleBook.rules? {ρ : Type} (book : RuleBook ρ) (tag : LanguageTag) (mode : Mode) : Option ρ :=
  (book.listed? tag mode).or (book.listed? tag.ofLanguage mode)

/-- What was looked up in a book, by the text of the tag and the mode. -/
structure Lookups (ρ : Type) where
  /-- The rules found, or that there are none. -/
  cache : OrderedMap (String × Mode) (Option ρ)

namespace Lookups

variable {ρ : Type}

/-- The memory before any request. -/
def empty : Lookups ρ := ⟨OrderedMap.empty⟩

/-- The number of lookups remembered. -/
def cached (l : Lookups ρ) : Nat := l.cache.size

/-- The rules of a tag, from memory if they were looked up before. -/
def lookup (l : Lookups ρ) (book : RuleBook ρ) (tag : LanguageTag) (mode : Mode) :
    Option ρ × Lookups ρ :=
  match l.cache.get? (tag.text, mode) with
  | some found => (found, l)
  | none =>
    let found := book.rules? tag mode
    (found, ⟨l.cache.insert (tag.text, mode) found⟩)

/-- The category of a count, if the book has rules for the tag. -/
def select (l : Lookups ρ) (book : RuleBook ρ) (tag : LanguageTag) (mode : Mode) (count : Count) :
    Option Category × Lookups ρ :=
  let (found, l) := l.lookup book tag mode
  (found.bind fun rules => book.select? rules count, l)

/-- The rules that are found for a tag, be they remembered or not. -/
def found (l : Lookups ρ) (book : RuleBook ρ) (tag : LanguageTag) (mode : Mode) : Option ρ :=
  (l.cache.get? (tag.text, mode)).getD (book.rules? tag mode)

theorem found_empty (book : RuleBook ρ) (tag : LanguageTag) (mode : Mode) :
    empty.found book tag mode = book.rules? tag mode := rfl

theorem answer_lookup (l : Lookups ρ) (book : RuleBook ρ) (tag : LanguageTag) (mode : Mode) :
    (l.lookup book tag mode).1 = l.found book tag mode := by
  unfold lookup found
  cases l.cache.get? (tag.text, mode) <;> rfl

/-- What is remembered was found before. So a lookup does not change what is found for a tag,
unless a tag with the same text has other rules. -/
theorem found_lookup (l : Lookups ρ) {book : RuleBook ρ} {asked tag : LanguageTag}
    {askedMode mode : Mode}
    (h : asked.text = tag.text → book.rules? asked mode = book.rules? tag mode) :
    (l.lookup book asked askedMode).2.found book tag mode = l.found book tag mode := by
  cases hcache : l.cache.get? (asked.text, askedMode) with
  | some rules => simp only [lookup, hcache]
  | none =>
    simp only [lookup, hcache, found, OrderedMap.get?_insert]
    split
    · rename_i hkey
      obtain ⟨htext, rfl⟩ := Prod.mk.inj hkey
      rw [← htext, hcache]
      exact h htext
    · rfl

/-- A lookup is remembered, whatever it finds. -/
theorem mem_keys_lookup (l : Lookups ρ) (book : RuleBook ρ) (tag : LanguageTag) (mode : Mode)
    {key : String × Mode} :
    key ∈ (l.lookup book tag mode).2.cache.keys ↔ key ∈ l.cache.keys ∨ (tag.text, mode) = key := by
  cases hcache : l.cache.get? (tag.text, mode) with
  | some rules =>
    have hkey : (tag.text, mode) ∈ l.cache.keys :=
      OrderedMap.contains_iff_mem_keys.mp (by rw [OrderedMap.contains, hcache, Option.isSome_some])
    simp only [lookup, hcache]
    rw [or_iff_left_of_imp]
    rintro rfl
    exact hkey
  | none =>
    simp only [lookup, hcache]
    exact l.cache.mem_keys_insert _

end Lookups

namespace Cldr

/-- The groups of a mode. -/
def groups : Mode → List RuleGroup
  | .cardinal => cardinal
  | .ordinal => ordinal

/-- The rules listed for a tag as it is written. -/
def listed? (mode : Mode) (text : String) : Option RuleSet :=
  ((groups mode).find? fun g => g.languages.contains text).map RuleGroup.rules

/-- The book of the CLDR rules. -/
def book : RuleBook RuleSet where
  listed? tag mode := listed? mode tag.text
  select? := RuleSet.select

/-- A service that remembers the rules it looked up. -/
abbrev Service := Lookups RuleSet

namespace Service

/-- The service before any request. -/
def empty : Service := Lookups.empty

/-- The category of a count, if the service knows the language. -/
def select (s : Service) (tag : LanguageTag) (mode : Mode) (count : Count) :
    Option Category × Service :=
  Lookups.select s book tag mode count

end Service

end Cldr

/-- A source of categories beside the rules of a language. -/
inductive Service
  /-- The CLDR rules. -/
  | cldr (service : Cldr.Service)
  /-- Any function of the request, under a label for inspection. -/
  | given (label : String) (select : LanguageTag → Mode → Count → Option Category)

namespace Service

/-- Asks for the category of a count. -/
def select (s : Service) (tag : LanguageTag) (mode : Mode) (count : Count) :
    Option Category × Service :=
  match s with
  | .cldr service =>
    let (category, service) := service.select tag mode count
    (category, .cldr service)
  | .given label f => (f tag mode count, .given label f)

end Service

end Phrasebook.Plural
