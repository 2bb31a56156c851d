import Phrasebook.LocaleTable.Build
/-!
# Available languages and regions

The sources in a folder are named by its top-level files and directories. Their
names, split like locale codes, tell which languages and regions there are.
-/

namespace Phrasebook

/-- The source to which a path below a folder belongs, given by what follows the folder:
the stem of a top-level file, or the top-level directory. -/
def sourceOfSteps? : List String → Option String
  | [] => none
  | [file] => if Path.isNormal file then some (Path.splitName file).1 else none
  | directory :: _ :: _ => if Path.isNormal directory then some directory else none

/-- The source to which a file belongs. -/
def sourceName? (folder : Path) (path : Path) : Option String :=
  if isSourceFile path then (folder.below? path).bind sourceOfSteps? else none

/-- Adds an element that is not there yet. -/
def addNew {α : Type} [DecidableEq α] (l : List α) (a : α) : List α :=
  if a ∈ l then l else l ++ [a]

/-- Keeps the first of equal elements. -/
def distinct {α : Type} [DecidableEq α] (l : List α) : List α := l.foldl addNew []

section

variable {α : Type} [DecidableEq α]

theorem mem_addNew {l : List α} {a b : α} : b ∈ addNew l a ↔ b ∈ l ∨ b = a := by
  unfold addNew
  split
  · rename_i ha
    exact ⟨.inl, fun h => h.elim id fun e => e ▸ ha⟩
  · rw [List.mem_append, List.mem_singleton]

theorem nodup_addNew {l : List α} (h : l.Nodup) (a : α) : (addNew l a).Nodup := by
  unfold addNew
  split
  · exact h
  · rename_i ha
    rw [List.nodup_append]
    refine ⟨h, by simp, ?_⟩
    rintro b hb _ hmem rfl
    exact ha (List.mem_singleton.mp hmem ▸ hb)

theorem mem_distinct {l : List α} {a : α} : a ∈ distinct l ↔ a ∈ l := by
  have hmem : ∀ known : List α, a ∈ l.foldl addNew known ↔ a ∈ known ∨ a ∈ l := by
    induction l with
    | nil => simp
    | cons b l ih =>
        intro known
        rw [List.foldl_cons, ih, mem_addNew, List.mem_cons, or_assoc]
  rw [distinct, hmem]
  simp

theorem nodup_distinct (l : List α) : (distinct l).Nodup := by
  have hnodup : ∀ known : List α, known.Nodup → (l.foldl addNew known).Nodup := by
    induction l with
    | nil => exact fun _ h => h
    | cons b l ih => exact fun known h => ih _ (nodup_addNew h b)
  exact hnodup [] List.nodup_nil

end

/-- The names of the sources in a folder, each once, as they are enumerated. -/
def Folder.sourceNames (folder : Folder) (storage : Storage) : List String :=
  distinct ((storage.enumerate folder.path).filterMap
    (sourceName? (folder.resolved storage)))

/-- The languages and regions that sources name. -/
structure Availability where
  /-- The languages, in the order of first mention. -/
  languages : List String
  /-- The regions by language, each in the order of first mention. -/
  regions : OrderedMap String (List String)

namespace Availability

/-- Nothing available. -/
def empty : Availability := ⟨[], OrderedMap.empty⟩

/-- Adds what a source name tells. The case of the name is kept. -/
def add (available : Availability) (name : String) : Availability :=
  let (language, region) := LocaleCode.split name
  if language.isEmpty then available
  else
    let languages :=
      if language = Layer.commonName then available.languages
      else addNew available.languages language
    match region with
    | none => { available with languages }
    | some region =>
      let known := (available.regions.get? language).getD []
      ⟨languages, available.regions.insert language (addNew known region)⟩

/-- What a list of source names tells. -/
def ofNames (names : List String) : Availability := names.foldl add empty

/-- The regions of a language, followed by those of all languages. -/
def regionsOf (available : Availability) (language : String) : List String :=
  let own := (available.regions.get? language).getD []
  let common := (available.regions.get? Layer.commonName).getD []
  distinct (own ++ common)

/-- The regions that sources of a language itself name. -/
def ownRegions (available : Availability) (language : String) : List String :=
  (available.regions.get? language).getD []

end Availability

end Phrasebook
