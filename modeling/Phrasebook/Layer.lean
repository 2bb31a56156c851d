import Phrasebook.Locale.Code
/-!
# Layers

The table of a locale is merged from four layers, from the most general to the
most special. Each layer is one named source; the layers of a region are empty
for a locale without one.
-/

namespace Phrasebook

/-- The layers of a table, in the order of merging. -/
inductive Layer
  | common
  | commonRegion
  | language
  | languageRegion
deriving DecidableEq, Repr

namespace Layer

/-- All layers, in the order of merging. -/
def all : List Layer := [.common, .commonRegion, .language, .languageRegion]

/-- The name of the sources that belong to no language. -/
def commonName : String := "common"

/-- The source of a layer, if the locale has one. -/
def source? (code : LocaleCode) : Layer → Option String
  | .common => some commonName
  | .commonRegion => code.region.map (commonName ++ "-" ++ ·)
  | .language => some code.language
  | .languageRegion => code.region.map (code.language ++ "-" ++ ·)

end Layer

/-- What one load of a table merged. -/
structure LoadStats where
  /-- The name under which the table was requested. -/
  locale : String
  commonFiles : Nat
  regionFiles : Nat
  languageFiles : Nat
  localeFiles : Nat
  /-- The number of identifiers in the merged table. -/
  totalStrings : Nat
deriving DecidableEq, Repr, Inhabited

namespace LoadStats

/-- The statistics before any file was merged. -/
def empty (locale : String) : LoadStats := ⟨locale, 0, 0, 0, 0, 0⟩

/-- The files merged over all layers. -/
def totalFiles (s : LoadStats) : Nat :=
  s.commonFiles + s.regionFiles + s.languageFiles + s.localeFiles

/-- Notes the number of files merged for a layer. -/
def record (s : LoadStats) (layer : Layer) (files : Nat) : LoadStats :=
  match layer with
  | .common => { s with commonFiles := files }
  | .commonRegion => { s with regionFiles := files }
  | .language => { s with languageFiles := files }
  | .languageRegion => { s with localeFiles := files }

end LoadStats

end Phrasebook
