import Phrasebook.Text
/-!
# Locale codes

A code names a language and perhaps a region. Reading one is lenient: anything
is a code, `-` and `_` separate alike, four-letter script subtags are skipped,
and what follows the region is ignored.
-/

namespace Phrasebook

/-- A language in lower case, and a region in upper case that is not empty. -/
structure LocaleCode where
  language : String
  region : Option String
deriving DecidableEq, Repr, Inhabited

namespace LocaleCode

/-- Whether a character separates subtags. -/
def isSeparator (c : Char) : Bool := c == '-' || c == '_'

/-- Whether a subtag is four ASCII letters long, as script subtags are. -/
def isScript (subtag : List Char) : Bool :=
  subtag.length == 4 && subtag.all Char.isAlpha

/-- The language and region of a trimmed code, in the case they have there. The
region is the first subtag behind the language that is no script, if that is not
empty. -/
def splitChars (cs : List Char) : List Char × Option (List Char) :=
  let (language, subtags) := Text.split isSeparator cs
  (language, (subtags.find? fun s => !isScript s).filter fun s => !s.isEmpty)

/-- The language and region of a code, in the case they have there. -/
def split (code : String) : String × Option String :=
  let (language, region) := splitChars (Text.trimChars code.toList)
  (String.ofList language, region.map String.ofList)

/-- Builds a code from its parts, of any ASCII case; an empty region is none. -/
def ofParts (language : String) (region : Option String) : LocaleCode :=
  ⟨language.toLower, (region.filter fun r => !r.isEmpty).map String.toUpper⟩

/-- Reads a code without filling in what it lacks. -/
def parse (code : String) : LocaleCode :=
  let (language, region) := split code
  ofParts language region

/-- Fills what a code lacks from another one. -/
def orElse (requested system : LocaleCode) : LocaleCode where
  language := if requested.language.isEmpty then system.language else requested.language
  region := requested.region.or system.region

@[simp]
theorem language_orElse (requested system : LocaleCode) :
    (requested.orElse system).language =
      if requested.language.isEmpty then system.language else requested.language :=
  rfl

@[simp]
theorem region_orElse (requested system : LocaleCode) :
    (requested.orElse system).region = requested.region.or system.region :=
  rfl

/-- Reads a code and takes what it lacks from the code `system`. -/
def resolve (code system : String) : LocaleCode :=
  (parse code).orElse (parse system)

/-- All characters of a language but letters stand in the code. -/
theorem mem_of_mem_language {code : String} {c : Char} (hc : c.isAlpha = false)
    (h : c ∈ (parse code).language.toList) : c ∈ code.toList := by
  change c ∈ (String.map Char.toLower (String.ofList
    (Text.split isSeparator (Text.trimChars code.toList)).1)).toList at h
  rw [String.toList_map, String.toList_ofList, List.mem_map] at h
  obtain ⟨d, hd, hlower⟩ := h
  obtain rfl := Text.eq_of_toLower_eq hc hlower
  exact Text.mem_of_mem_trimChars (Text.of_mem_pieces List.mem_cons_self hd).1

/-- All characters of a region but letters stand in the code. -/
theorem mem_of_mem_region {code region : String} {c : Char} (hc : c.isAlpha = false)
    (hregion : (parse code).region = some region) (h : c ∈ region.toList) : c ∈ code.toList := by
  change Option.map String.toUpper (Option.filter (fun r => !r.isEmpty)
    (Option.map String.ofList (Option.filter (fun s => !s.isEmpty)
      ((Text.split isSeparator (Text.trimChars code.toList)).2.find? fun s => !isScript s)))) =
    some region at hregion
  simp only [Option.map_eq_some_iff, Option.filter_eq_some_iff] at hregion
  obtain ⟨_, ⟨⟨subtag, ⟨hfind, -⟩, rfl⟩, -⟩, rfl⟩ := hregion
  rw [Text.toList_toUpper, String.toList_ofList, List.mem_map] at h
  obtain ⟨d, hd, hupper⟩ := h
  obtain rfl := Text.eq_of_toUpper_eq hc hupper
  have hpiece : subtag ∈ Text.pieces isSeparator (Text.trimChars code.toList) :=
    List.mem_cons_of_mem _ (List.mem_of_find?_eq_some hfind)
  exact Text.mem_of_mem_trimChars (Text.of_mem_pieces hpiece hd).1

/-- Writes a code with `-` before the region. -/
def text (c : LocaleCode) : String :=
  match c.region with
  | some region => c.language ++ "-" ++ region
  | none => c.language

end LocaleCode

end Phrasebook
