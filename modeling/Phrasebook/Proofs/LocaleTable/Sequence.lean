import Phrasebook.LocaleTable.Build
import Phrasebook.Proofs.StringTable.Writes
/-!
# The files of a build

Building a table walks through layers, sources, files and directories. What it
does is determined by one list of files, in which the absent ones are left out:
the build fails with the first file that is unreadable or malformed, and
otherwise merges them all in order.

## Implementation notes

Reads and walks are interleaved in a build. A storage answers the same question
in the same way throughout one build, so the list can be made up beforehand.
-/

namespace Phrasebook

/-- Whether an error is about a file of a folder. -/
def Error.isOfFile : Error → Bool
  | .unreadable _ _ | .malformedSource _ _ => true
  | _ => false

namespace Folder

/-- The layers of a locale in the order of merging, each with its source. -/
def sources (code : LocaleCode) : List (Layer × String) :=
  match code.region with
  | none => [(.common, "common"), (.language, code.language)]
  | some region =>
    [(.common, "common"), (.commonRegion, "common-" ++ region),
      (.language, code.language), (.languageRegion, code.language ++ "-" ++ region)]

/-- The places of a source: its single file, and the source files below its
directory. -/
def places (folder : Folder) (storage : Storage) (source : String) : List Path :=
  (storage.root.join folder.path.text).join (source ++ ".json") ::
    (storage.enumerate (folder.path.join source)).filter isSourceFile

/-- Whether a file is there, readable or not. -/
def isPresent (storage : Storage) (path : Path) : Bool :=
  match storage.read path with
  | .ok _ => true
  | .error fault => fault.kind ≠ .notFound

/-- The files that are there for one layer. -/
def layerFiles (folder : Folder) (storage : Storage) (layer : Layer × String) :
    List (Layer × Path) :=
  ((folder.places storage layer.2).filter (isPresent storage)).map (layer.1, ·)

/-- The files of a build in the order of merging, each with its layer. -/
def sequence (folder : Folder) (storage : Storage) (code : LocaleCode) : List (Layer × Path) :=
  (sources code).flatMap (folder.layerFiles storage)

/-- What keeps a file from being merged. -/
def defect? (storage : Storage) (path : Path) : Option Error :=
  match storage.read path with
  | .error fault => some (.unreadable path fault)
  | .ok text =>
    match Json.StringObject.read text with
    | .error fault => some (.malformedSource path fault)
    | .ok _ => none

/-- The identifiers and texts that a file holds. -/
def pairsOf (storage : Storage) (path : Path) : List (String × String) :=
  match storage.read path with
  | .error _ => []
  | .ok text => (Json.StringObject.read text).toOption.getD []

/-- The text that a file gives to an identifier: the last one, if it repeats. -/
def textIn? (storage : Storage) (id : String) (path : Path) : Option String :=
  ((pairsOf storage path).reverse.find? fun p => p.1 = id).map Prod.snd

/-- Merging files one after the other, up to the first that has a defect. -/
def merged (storage : Storage) (files : List Path) (table : StringTable) :
    Except Error StringTable :=
  match files.findSome? (defect? storage) with
  | some e => .error e
  | none => .ok (table.setAll (files.flatMap (pairsOf storage)))

theorem merged_cons (storage : Storage) (path : Path) (files : List Path)
    (table : StringTable) :
    merged storage (path :: files) table =
      match defect? storage path with
      | some e => .error e
      | none => merged storage files (table.setAll (pairsOf storage path)) := by
  simp only [merged, List.findSome?_cons, List.flatMap_cons, StringTable.setAll_append]
  cases defect? storage path with
  | some e => rfl
  | none => rfl

theorem merged_append (storage : Storage) (a b : List Path) (table : StringTable) :
    merged storage (a ++ b) table = merged storage a table >>= merged storage b := by
  induction a generalizing table with
  | nil => rfl
  | cons path a ih =>
      simp only [List.cons_append, merged_cons]
      cases defect? storage path with
      | some e => rfl
      | none => exact ih _

/-- A file that is there is merged, unless it has a defect. -/
theorem outcome_mergeFile (storage : Storage) (path : Path) (table : StringTable) :
    (mergeFile storage path table).outcome =
      if isPresent storage path then
        match defect? storage path with
        | some e => .error e
        | none => .ok (some (table.setAll (pairsOf storage path)))
      else .ok none := by
  rw [mergeFile, Loading.outcome_bind_of_ok (Loading.outcome_read storage path)]
  cases hread : storage.read path with
  | error fault =>
      by_cases hkind : fault.kind = .notFound
      · simp [isPresent, hread, hkind]
      · simp [isPresent, defect?, hread, hkind]
  | ok text =>
      cases hpairs : Json.StringObject.read text with
      | error fault =>
          have hload : table.load text = .error fault := by
            rw [StringTable.load_eq, hpairs]
            rfl
          simp [isPresent, defect?, hread, hpairs, hload]
      | ok pairs =>
          have hload : table.load text = .ok (table.setAll pairs) := by
            rw [StringTable.load_eq, hpairs]
            rfl
          simp [isPresent, defect?, pairsOf, hread, hpairs, hload, Except.toOption]

/-- Merging files in order merges those that are there, and counts them. -/
theorem outcome_mergeFiles (storage : Storage) (paths : List Path) (table : StringTable)
    (count : Nat) :
    (mergeFiles storage paths (table, count)).outcome =
      (merged storage (paths.filter (isPresent storage)) table).map
        (·, count + (paths.filter (isPresent storage)).length) := by
  induction paths generalizing table count with
  | nil => rfl
  | cons path paths ih =>
      have hfile := outcome_mergeFile storage path table
      rw [mergeFiles]
      by_cases hp : isPresent storage path
      · rw [if_pos hp] at hfile
        rw [List.filter_cons_of_pos hp, merged_cons]
        cases hdefect : defect? storage path with
        | some e =>
            rw [hdefect] at hfile
            exact Loading.outcome_bind_of_error hfile _
        | none =>
            rw [hdefect] at hfile
            rw [Loading.outcome_bind_of_ok hfile]
            simp only [ih, List.length_cons, Nat.add_assoc, Nat.add_comm 1]
      · rw [if_neg hp] at hfile
        rw [Loading.outcome_bind_of_ok hfile, List.filter_cons_of_neg hp]
        exact ih _ _

theorem places_eq (folder : Folder) (storage : Storage) (source : String) :
    folder.places storage source = [folder.sourceFile storage source] ++
      (storage.enumerate (folder.sourceDirectory source)).filter isSourceFile := by
  have hname : source ++ ".json" = source ++ "." ++ sourceExtension := by
    rw [String.append_assoc]
    rfl
  rw [places, hname]
  rfl

/-- Merging a source merges the files that are there at its places. -/
theorem outcome_mergeSource (folder : Folder) (storage : Storage) (source : String)
    (table : StringTable) :
    (mergeSource folder storage source table).outcome =
      (merged storage ((folder.places storage source).filter (isPresent storage)) table).map
        (·, ((folder.places storage source).filter (isPresent storage)).length) := by
  rw [places_eq, List.filter_append, merged_append]
  have hfile := outcome_mergeFiles storage [folder.sourceFile storage source] table 0
  rw [mergeSource]
  cases hm : merged storage ([folder.sourceFile storage source].filter (isPresent storage))
      table with
  | error e =>
      rw [hm] at hfile
      exact Loading.outcome_bind_of_error hfile _
  | ok strings =>
      rw [hm] at hfile
      rw [Loading.outcome_bind_of_ok hfile, Loading.outcome_bind_of_ok (Loading.outcome_walk _ _),
        outcome_mergeFiles, Nat.zero_add, ← List.length_append]
      rfl

/-- Notes the number of files of each layer. -/
def noted (folder : Folder) (storage : Storage) (stats : LoadStats)
    (layers : List (Layer × String)) : LoadStats :=
  layers.foldl (fun stats layer => stats.record layer.1 (folder.layerFiles storage layer).length)
    stats

/-- Merging layers merges the files of those that the locale has, and notes for
each of them how many there are. -/
theorem outcome_mergeLayers (folder : Folder) (storage : Storage) (code : LocaleCode)
    (layers : List Layer) (table : StringTable) (stats : LoadStats) :
    let present := layers.filterMap fun layer => (layer.source? code).map (layer, ·)
    (mergeLayers folder storage code layers (table, stats)).outcome =
      (merged storage ((present.flatMap (folder.layerFiles storage)).map Prod.snd) table).map
        (·, folder.noted storage stats present) := by
  induction layers generalizing table stats with
  | nil => rfl
  | cons layer layers ih =>
      simp only at ih ⊢
      rw [mergeLayers]
      cases hs : layer.source? code with
      | none => simpa [List.filterMap_cons, hs] using ih table stats
      | some source =>
          have hpaths : (folder.layerFiles storage (layer, source)).map Prod.snd =
              (folder.places storage source).filter (isPresent storage) := by
            simp [layerFiles]
          have hcount : (folder.layerFiles storage (layer, source)).length =
              ((folder.places storage source).filter (isPresent storage)).length := by
            simp [layerFiles]
          have hsource := outcome_mergeSource folder storage source table
          simp only [List.filterMap_cons, hs, Option.map_some, List.flatMap_cons, List.map_append,
            merged_append, hpaths]
          cases hm : merged storage ((folder.places storage source).filter (isPresent storage))
              table with
          | error e =>
              rw [hm] at hsource
              exact Loading.outcome_bind_of_error hsource _
          | ok strings =>
              rw [hm] at hsource
              rw [Loading.outcome_bind_of_ok hsource, ih, ← hcount]
              rfl

theorem sources_eq (code : LocaleCode) :
    Layer.all.filterMap (fun layer => (layer.source? code).map (layer, ·)) = sources code := by
  obtain ⟨language, _ | region⟩ := code
  · rfl
  · rfl

/-- The number of files of a layer. -/
def filesOf (layer : Layer) (files : List (Layer × Path)) : Nat :=
  files.countP fun file => file.1 = layer

theorem filesOf_layerFiles (folder : Folder) (storage : Storage) (layer : Layer)
    (present : Layer × String) :
    filesOf layer (folder.layerFiles storage present) =
      if present.1 = layer then (folder.layerFiles storage present).length else 0 := by
  by_cases h : present.1 = layer
  · simp [filesOf, layerFiles, List.countP_map, h, Function.comp_def]
  · simp [filesOf, layerFiles, List.countP_map, h, Function.comp_def]

/-- The statistics of a build whose table has `strings` identifiers. -/
def statsOf (folder : Folder) (storage : Storage) (name : String) (code : LocaleCode)
    (strings : Nat) : LoadStats where
  locale := name
  commonFiles := filesOf .common (folder.sequence storage code)
  regionFiles := filesOf .commonRegion (folder.sequence storage code)
  languageFiles := filesOf .language (folder.sequence storage code)
  localeFiles := filesOf .languageRegion (folder.sequence storage code)
  totalStrings := strings

@[simp]
theorem regionFiles_statsOf (folder : Folder) (storage : Storage) (name : String)
    (code : LocaleCode) (strings : Nat) :
    (folder.statsOf storage name code strings).regionFiles =
      filesOf .commonRegion (folder.sequence storage code) :=
  rfl

@[simp]
theorem languageFiles_statsOf (folder : Folder) (storage : Storage) (name : String)
    (code : LocaleCode) (strings : Nat) :
    (folder.statsOf storage name code strings).languageFiles =
      filesOf .language (folder.sequence storage code) :=
  rfl

@[simp]
theorem localeFiles_statsOf (folder : Folder) (storage : Storage) (name : String)
    (code : LocaleCode) (strings : Nat) :
    (folder.statsOf storage name code strings).localeFiles =
      filesOf .languageRegion (folder.sequence storage code) :=
  rfl

/-- What is noted for the layers of a locale counts the files of each. -/
theorem noted_sources (folder : Folder) (storage : Storage) (name : String) (code : LocaleCode) :
    folder.noted storage (LoadStats.empty name) (sources code) =
      folder.statsOf storage name code 0 := by
  have happend : ∀ layer a b, filesOf layer (a ++ b) = filesOf layer a + filesOf layer b :=
    fun _ _ _ => List.countP_append
  obtain ⟨language, _ | region⟩ := code
  · simp [noted, sources, sequence, happend, filesOf_layerFiles, statsOf, LoadStats.record,
      LoadStats.empty]
  · simp [noted, sources, sequence, happend, filesOf_layerFiles, statsOf, LoadStats.record,
      LoadStats.empty]

/-- The text of an identifier is the one that the last file with it gives. -/
theorem get?_setAll_flatMap (storage : Storage) (files : List Path) (id : String) :
    (StringTable.empty.setAll (files.flatMap (pairsOf storage))).get? id =
      files.reverse.findSome? (textIn? storage id) := by
  have hget := OrderedMap.get?_insertAll OrderedMap.empty (files.flatMap (pairsOf storage)) id
  rw [OrderedMap.get?_empty, Option.or_none, List.reverse_flatMap, List.find?_flatMap] at hget
  calc
    _ = (files.reverse.findSome? fun path =>
          (pairsOf storage path).reverse.find? fun p => p.1 = id).map Prod.snd := hget
    _ = files.reverse.findSome? (textIn? storage id) := by
      rw [List.map_findSome?]
      rfl

/-- A build merges its files into the empty table. -/
theorem outcome_build_eq (folder : Folder) (storage : Storage) (name : String)
    (code : LocaleCode) :
    (folder.build storage name code).outcome =
      (merged storage ((folder.sequence storage code).map Prod.snd) StringTable.empty).map
        fun strings => (⟨name, code, strings⟩, folder.statsOf storage name code strings.size) := by
  have hlayers := outcome_mergeLayers folder storage code Layer.all StringTable.empty
    (LoadStats.empty name)
  simp only [sources_eq, noted_sources] at hlayers
  rw [← sequence] at hlayers
  cases hm : merged storage ((folder.sequence storage code).map Prod.snd) StringTable.empty with
  | error e =>
      rw [hm] at hlayers
      exact Loading.outcome_bind_of_error hlayers _
  | ok strings =>
      rw [hm] at hlayers
      exact Loading.outcome_bind_of_ok hlayers _

/-- Every build does what its list of files determines. It fails with the first
of them that cannot be read or is no object of strings; otherwise each identifier
has the text of the last file that holds it, and each count is the number of files
or identifiers that it stands for. -/
theorem outcome_build (folder : Folder) (storage : Storage) (name : String)
    (code : LocaleCode) :
    let files := folder.sequence storage code
    match files.findSome? fun file => defect? storage file.2 with
    | some e => (folder.build storage name code).outcome = .error e
    | none => ∃ table,
        (folder.build storage name code).outcome = .ok (table,
          { locale := name
            commonFiles := filesOf .common files
            regionFiles := filesOf .commonRegion files
            languageFiles := filesOf .language files
            localeFiles := filesOf .languageRegion files
            totalStrings :=
              (files.flatMap fun file => (pairsOf storage file.2).map Prod.fst).toFinset.card }) ∧
        table.name = name ∧ table.code = code ∧
        ∀ id, table.get? id = files.reverse.findSome? fun file => textIn? storage id file.2 := by
  intro files
  have hbuild := outcome_build_eq folder storage name code
  have hfind : (files.map Prod.snd).findSome? (defect? storage) =
      files.findSome? fun file => defect? storage file.2 := List.findSome?_map
  rw [merged, hfind] at hbuild
  cases hd : files.findSome? fun file => defect? storage file.2 with
  | some e =>
      rw [hd] at hbuild
      exact hbuild
  | none =>
      rw [hd] at hbuild
      let strings := StringTable.empty.setAll ((files.map Prod.snd).flatMap (pairsOf storage))
      have hsize : strings.size =
          (files.flatMap fun file => (pairsOf storage file.2).map Prod.fst).toFinset.card := by
        rw [StringTable.size_setAll, List.flatMap_map, List.map_flatMap]
      refine ⟨⟨name, code, strings⟩, ?_, rfl, rfl, ?_⟩
      · rw [← hsize]
        exact hbuild
      · intro id
        refine (get?_setAll_flatMap storage (files.map Prod.snd) id).trans ?_
        rw [← List.map_reverse, List.findSome?_map]
        rfl

/-- What a successful build returns is named as it was asked for, and counts the
identifiers that have a text. -/
theorem named_of_build {folder : Folder} {storage : Storage} {name : String} {code : LocaleCode}
    {table : LocaleTable} {stats : LoadStats}
    (h : (folder.build storage name code).outcome = .ok (table, stats)) :
    table.name = name ∧ stats.locale = name ∧ table.strings.HasCount stats.totalStrings := by
  rw [outcome_build_eq] at h
  cases hm : merged storage ((folder.sequence storage code).map Prod.snd) StringTable.empty with
  | error e => rw [hm] at h; cases h
  | ok strings =>
      rw [hm] at h
      cases h
      exact ⟨rfl, rfl, strings.hasCount_size⟩

/-- A build under another name does the same, and names what it returns by it. -/
theorem outcome_build_renamed (folder : Folder) (storage : Storage) (code : LocaleCode)
    (a b : String) : (folder.build storage b code).outcome =
      (folder.build storage a code).outcome.map fun built =>
        ({ built.1 with name := b }, { built.2 with locale := b }) := by
  rw [outcome_build_eq, outcome_build_eq]
  cases merged storage ((folder.sequence storage code).map Prod.snd) StringTable.empty <;> rfl

/-- A build fails because of a file. -/
theorem file_of_build_error {folder : Folder} {storage : Storage} {name : String}
    {code : LocaleCode} {e : Error} (h : (folder.build storage name code).outcome = .error e) :
    e.isOfFile := by
  rw [outcome_build_eq, merged] at h
  cases hd : ((folder.sequence storage code).map Prod.snd).findSome? (defect? storage) with
  | none => rw [hd] at h; cases h
  | some e' =>
      rw [hd] at h
      cases h
      obtain ⟨path, _, hpath⟩ := List.exists_of_findSome?_eq_some hd
      unfold defect? at hpath
      split at hpath
      · cases hpath
        rfl
      · split at hpath
        · cases hpath
          rfl
        · cases hpath

end Folder

end Phrasebook
