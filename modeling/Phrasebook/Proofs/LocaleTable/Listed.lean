import Phrasebook.Availability
import Phrasebook.Proofs.Storage.Consistency
import Phrasebook.Proofs.LocaleTable.Sequence
/-!
# Listing and loading

The names of the sources in a folder come from a walk of the folder, and a source is loaded
from the paths that its name leads to. A source is listed when loading it merges a file.
It is also listed for a file whose extension is in another case, which is not loaded, and
for its directory when something without a text takes the place of its single file.
-/

namespace Phrasebook

open Phrasebook.Path (IsName splitName)

/-- Whether steps end in the name of a source file. -/
def endsInSource (below : List String) : Bool :=
  (below.getLast?.bind fun last => (splitName last).2).any fun extension =>
    extension.toLower == sourceExtension

/-- The last step below a directory has the extension. -/
theorem extension?_eq {base path : Path} {below : List String}
    (h : base.below? path = some below) (hne : below ≠ []) (hnames : ∀ name ∈ below, IsName name) :
    path.extension? = below.getLast?.bind fun last => (splitName last).2 := by
  rw [Path.extension?, Path.fileName?_of_below? h hne hnames]

/-- The steps below a directory tell whether a file is a source file. -/
theorem isSourceFile_eq {base path : Path} {below : List String}
    (h : base.below? path = some below) (hne : below ≠ []) (hnames : ∀ name ∈ below, IsName name) :
    isSourceFile path = endsInSource below := by
  unfold isSourceFile
  rw [extension?_eq h hne hnames, endsInSource]
  cases below.getLast?.bind fun last => (splitName last).2 with
  | none => rfl
  | some extension => rfl

theorem ne_nil_of_endsInSource {below : List String} (h : endsInSource below = true) :
    below ≠ [] := by
  rintro rfl
  cases h

theorem endsInSource_cons {step : String} {below : List String} (hne : below ≠ []) :
    endsInSource (step :: below) = endsInSource below := by
  cases below with
  | nil => exact absurd rfl hne
  | cons next below => rw [endsInSource, endsInSource, List.getLast?_cons_cons]

/-- Behind the name of a source the extension can be in any case. -/
theorem splitName_source {source extension : String} (hsource : source ≠ "")
    (h : extension.toLower = sourceExtension) :
    splitName (source ++ "." ++ extension) = (source, some extension) := by
  have hchars : extension.toList.map Char.toLower = sourceExtension.toList := by
    rw [← h, Text.toList_toLower]
  refine Path.splitName_append hsource ?_ ?_
  · intro hdot
    have hmem : '.' ∈ extension.toList.map Char.toLower := List.mem_map.mpr ⟨'.', hdot, rfl⟩
    rw [hchars] at hmem
    revert hmem
    decide
  · rintro rfl
    cases hchars

theorem toLower_sourceExtension : sourceExtension.toLower = sourceExtension := by
  rw [← String.toList_inj, Text.toList_toLower]
  decide

theorem endsInSource_source {source extension : String} (hsource : source ≠ "")
    (h : extension.toLower = sourceExtension) :
    endsInSource [source ++ "." ++ extension] = true := by
  simp [endsInSource, splitName_source hsource h, h]

namespace Folder

variable {folder : Folder} {storage : Storage} {source : String}

/-- Every source file in the folder can be read and is an object of strings. -/
def IsIntact (folder : Folder) (storage : Storage) : Prop :=
  ∀ path ∈ storage.enumerate folder.path, isSourceFile path = true → defect? storage path = none

/-- A source file lies below the directory of a source, at any depth. -/
def HasBelow (folder : Folder) (storage : Storage) (source : String) : Prop :=
  ∃ below, storage.Lists folder.path (source :: below) ∧ endsInSource below = true

/-- A file in the folder has the name of a source and the extension in another case. -/
def HasMiscased (folder : Folder) (storage : Storage) (source : String) : Prop :=
  ∃ extension, extension ≠ sourceExtension ∧ extension.toLower = sourceExtension ∧
    storage.Lists folder.path [source ++ "." ++ extension]

/-- The place of the single file of a source is taken by something without a text. -/
def IsBlocked (folder : Folder) (storage : Storage) (source : String) : Prop :=
  ∃ fault, storage.read (folder.sourceFile storage source) = .error fault ∧
    fault.kind ≠ .notFound

/-! ### Names -/

theorem mem_sourceNames_iff_lists (hstorage : storage.ListsBelow) :
    source ∈ folder.sourceNames storage ↔
      ∃ below, storage.Lists folder.path below ∧ endsInSource below = true ∧
        sourceOfSteps? below = some source := by
  have hname : ∀ {path below}, (folder.resolved storage).below? path = some below →
      below ≠ [] → (∀ name ∈ below, IsName name) →
        sourceName? (folder.resolved storage) path =
          if endsInSource below then sourceOfSteps? below else none := by
    intro path below hbelow hne hnames
    rw [sourceName?, isSourceFile_eq hbelow hne hnames, hbelow, Option.bind_some]
  rw [sourceNames, mem_distinct, List.mem_filterMap]
  constructor
  · rintro ⟨path, hpath, hsource⟩
    obtain ⟨below, hbelow, hne, hnames⟩ := hstorage _ path hpath
    rw [hname hbelow hne hnames, Option.ite_none_right_eq_some] at hsource
    exact ⟨below, ⟨path, hpath, hbelow⟩, hsource⟩
  · rintro ⟨below, hlists, hsource⟩
    obtain ⟨hne, hnames⟩ := hstorage.isName_of_lists hlists
    obtain ⟨path, hpath, hbelow⟩ := hlists
    refine ⟨path, hpath, ?_⟩
    rw [hname hbelow hne hnames, Option.ite_none_right_eq_some]
    exact hsource

/-- What a source is listed for is a file of its own or lies below its directory. -/
theorem lists_of_mem_sourceNames (hstorage : storage.ListsBelow)
    (h : source ∈ folder.sourceNames storage) :
    (∃ file extension, splitName file = (source, some extension) ∧
        extension.toLower = sourceExtension ∧ storage.Lists folder.path [file]) ∨
      folder.HasBelow storage source := by
  obtain ⟨below, hlists, hfile, hsource⟩ := (mem_sourceNames_iff_lists hstorage).mp h
  rcases below with _ | ⟨step, _ | ⟨next, rest⟩⟩
  · cases hfile
  · obtain ⟨extension, hextension, hjson⟩ := (Option.any_eq_true _ _).mp hfile
    obtain ⟨-, hstem⟩ := Option.ite_none_right_eq_some.mp hsource
    have hsplit : splitName step = (source, some extension) :=
      Prod.ext (Option.some.inj hstem) hextension
    exact .inl ⟨step, extension, hsplit, by simpa using hjson, hlists⟩
  · obtain ⟨-, hdirectory⟩ := Option.ite_none_right_eq_some.mp hsource
    obtain rfl : step = source := Option.some.inj hdirectory
    rw [endsInSource_cons (List.cons_ne_nil _ _)] at hfile
    exact .inr ⟨next :: rest, hlists, hfile⟩

/-- A source is listed for a file of its own or for what lies below its directory. -/
theorem mem_sourceNames (hstorage : storage.ListsBelow) (hname : IsName source) :
    source ∈ folder.sourceNames storage ↔
      (∃ extension, extension.toLower = sourceExtension ∧
        storage.Lists folder.path [source ++ "." ++ extension]) ∨
      folder.HasBelow storage source := by
  constructor
  · intro h
    refine (lists_of_mem_sourceNames hstorage h).imp_left ?_
    rintro ⟨file, extension, hsplit, hextension, hlists⟩
    exact ⟨extension, hextension, Path.eq_of_splitName hsplit ▸ hlists⟩
  rw [mem_sourceNames_iff_lists hstorage]
  rintro (⟨extension, hextension, hlists⟩ | ⟨below, hlists, hfile⟩)
  · obtain ⟨-, hnames⟩ := hstorage.isName_of_lists hlists
    refine ⟨_, hlists, endsInSource_source hname.1 hextension, ?_⟩
    rw [sourceOfSteps?, if_pos (Path.isNormal_of_isName (hnames _ List.mem_cons_self)),
      splitName_source hname.1 hextension]
  · have hne := ne_nil_of_endsInSource hfile
    refine ⟨_, hlists, (endsInSource_cons hne).trans hfile, ?_⟩
    cases below with
    | nil => exact absurd rfl hne
    | cons next rest => rw [sourceOfSteps?, if_pos (Path.isNormal_of_isName hname)]

/-! ### Loading -/

theorem defect?_eq_none_iff {path : Path} :
    defect? storage path = none ↔ ∃ text pairs,
      storage.read path = .ok text ∧ Json.StringObject.read text = .ok pairs := by
  unfold defect?
  cases storage.read path with
  | error fault => simp
  | ok text =>
      dsimp only
      cases hpairs : Json.StringObject.read text with
      | error fault => simp [hpairs]
      | ok pairs => exact iff_of_true rfl ⟨text, pairs, rfl, hpairs⟩

/-- What is listed under the steps to a source file is read by these steps. -/
theorem IsIntact.read_of_lists (hintact : folder.IsIntact storage)
    (hstorage : storage.Consistent) {below : List String}
    (hlists : storage.Lists folder.path below) (hfile : endsInSource below = true) :
    ∃ text pairs, storage.read (below.foldl Path.join (storage.base folder.path)) = .ok text ∧
      Json.StringObject.read text = .ok pairs := by
  obtain ⟨hne, hnames⟩ := hstorage.listsBelow.isName_of_lists hlists
  obtain ⟨path, hpath, hbelow⟩ := hlists
  have hsource : isSourceFile path = true :=
    (isSourceFile_eq hbelow hne hnames).trans hfile
  rw [← hstorage.read_listed hpath hbelow, ← defect?_eq_none_iff]
  exact hintact path hpath hsource

/-- A source is not loaded where the place of its single file is taken. -/
theorem outcome_of_isBlocked (h : folder.IsBlocked storage source) (table : StringTable) :
    ∃ e, (folder.mergeSource storage source table).outcome = .error e := by
  obtain ⟨fault, hread, hkind⟩ := h
  have hpresent : isPresent storage (folder.sourceFile storage source) = true := by
    simp [isPresent, hread, hkind]
  have hdefect : defect? storage (folder.sourceFile storage source) =
      some (.unreadable (folder.sourceFile storage source) fault) := by
    rw [defect?, hread]
  rw [outcome_mergeSource, places_eq, List.singleton_append, List.filter_cons_of_pos hpresent,
    merged_cons, hdefect]
  exact ⟨_, rfl⟩

theorem isPresent_of_defect?_eq_none {path : Path} (h : defect? storage path = none) :
    isPresent storage path = true := by
  obtain ⟨text, -, hread, -⟩ := defect?_eq_none_iff.mp h
  rw [isPresent, hread]

section

variable (hstorage : storage.Consistent) (hbase : (folder.resolved storage).text ≠ "")
  (hintact : folder.IsIntact storage) (hname : IsName source)

include hstorage hbase hname

/-- The single file of a source is listed if it can be read. -/
theorem lists_sourceFile_of_read {text : String}
    (hread : storage.read (folder.sourceFile storage source) = .ok text) :
    storage.Lists folder.path [source ++ "." ++ sourceExtension] := by
  have hfile : IsName (source ++ "." ++ sourceExtension) :=
    Path.isName_of_mem (c := 'j') (by simp [sourceExtension]) (by decide)
      (by simpa [sourceExtension] using hname.2.2.2)
  exact hstorage.lists_of_read hbase (List.cons_ne_nil _ _) (by simpa using hfile) hread

include hintact

omit hbase in
theorem defect?_sourceFile
    (hlists : storage.Lists folder.path [source ++ "." ++ sourceExtension]) :
    defect? storage (folder.sourceFile storage source) = none := by
  rw [defect?_eq_none_iff]
  exact hintact.read_of_lists hstorage hlists (endsInSource_source hname.1 toLower_sourceExtension)

/-- The single file of a source is there if it is listed, unless its place is taken. -/
theorem isPresent_sourceFile_iff (hfree : ¬ folder.IsBlocked storage source) :
    isPresent storage (folder.sourceFile storage source) = true ↔
      storage.Lists folder.path [source ++ "." ++ sourceExtension] := by
  constructor
  · intro hpresent
    unfold isPresent at hpresent
    split at hpresent
    · rename_i text hread
      exact lists_sourceFile_of_read hstorage hbase hname hread
    · rename_i fault hread
      exact absurd ⟨fault, hread, by simpa using hpresent⟩ hfree
  · intro hlists
    exact isPresent_of_defect?_eq_none (defect?_sourceFile hstorage hintact hname hlists)

/-- What a walk of the directory of a source lists is listed for the folder. -/
theorem defect?_of_mem_enumerate {path : Path}
    (hpath : path ∈ storage.enumerate (folder.sourceDirectory source))
    (hfile : isSourceFile path = true) :
    defect? storage path = none ∧ folder.HasBelow storage source := by
  obtain ⟨below, hbelow, hne, hnames⟩ := hstorage.listsBelow _ path hpath
  rw [isSourceFile_eq hbelow hne hnames] at hfile
  have hlists := hstorage.lists_of_lists_join hbase hname ⟨path, hpath, hbelow⟩
  have hread := hintact.read_of_lists hstorage hlists ((endsInSource_cons hne).trans hfile)
  refine ⟨?_, below, hlists, hfile⟩
  rw [defect?_eq_none_iff, hstorage.read_listed hpath hbelow, sourceDirectory,
    Storage.base_join _ _ hname]
  exact hread

omit hbase in
/-- The files below the directory of a source are found by a walk of the directory. -/
theorem exists_mem_enumerate (h : folder.HasBelow storage source) :
    ∃ path ∈ storage.enumerate (folder.sourceDirectory source), isSourceFile path = true := by
  obtain ⟨below, hlists, hfile⟩ := h
  have hne := ne_nil_of_endsInSource hfile
  obtain ⟨-, hnames⟩ := hstorage.listsBelow.isName_of_lists hlists
  obtain ⟨text, -, hread, -⟩ :=
    hintact.read_of_lists hstorage hlists ((endsInSource_cons hne).trans hfile)
  have hjoin : storage.base (folder.path.join source) = (storage.base folder.path).join source :=
    Storage.base_join _ _ hname
  have hbase : (storage.base (folder.path.join source)).text ≠ "" := by
    rw [hjoin]
    exact Path.text_join_ne _ hname.1
  rw [List.foldl_cons, ← hjoin] at hread
  have hnames' : ∀ name ∈ below, IsName name := fun n hn => hnames n (List.mem_cons_of_mem _ hn)
  obtain ⟨path, hpath, hbelow⟩ := hstorage.lists_of_read hbase hne hnames' hread
  refine ⟨path, hpath, ?_⟩
  rw [isSourceFile_eq hbelow hne hnames']
  exact hfile

/-- No file at the places of a source has a defect, unless the first place is taken. -/
theorem defect?_of_isPresent (hfree : ¬ folder.IsBlocked storage source) {path : Path}
    (h : path ∈ (folder.places storage source).filter (isPresent storage)) :
    defect? storage path = none := by
  obtain ⟨hplace, hpresent⟩ := List.mem_filter.mp h
  rw [places_eq, List.mem_append, List.mem_singleton, List.mem_filter] at hplace
  rcases hplace with rfl | ⟨hpath, hfile⟩
  · have hlists := (isPresent_sourceFile_iff hstorage hbase hintact hname hfree).mp hpresent
    exact defect?_sourceFile hstorage hintact hname hlists
  · exact (defect?_of_mem_enumerate hstorage hbase hintact hname hpath hfile).1

/-- Some place of a source holds a file if its single file or one below its directory is
listed for the folder. -/
theorem exists_isPresent_iff (hfree : ¬ folder.IsBlocked storage source) :
    (∃ path, path ∈ (folder.places storage source).filter (isPresent storage)) ↔
      storage.Lists folder.path [source ++ "." ++ sourceExtension] ∨
        folder.HasBelow storage source := by
  have hsingle := isPresent_sourceFile_iff hstorage hbase hintact hname hfree
  simp only [places_eq, List.mem_filter, List.mem_append, List.mem_singleton]
  constructor
  · rintro ⟨path, rfl | ⟨hpath, hfile⟩, hpresent⟩
    · exact .inl (hsingle.mp hpresent)
    · exact .inr (defect?_of_mem_enumerate hstorage hbase hintact hname hpath hfile).2
  · rintro (hlists | hbelow)
    · exact ⟨_, .inl rfl, hsingle.mpr hlists⟩
    · obtain ⟨path, hpath, hfile⟩ := exists_mem_enumerate hstorage hintact hname hbelow
      obtain ⟨hdefect, -⟩ := defect?_of_mem_enumerate hstorage hbase hintact hname hpath hfile
      exact ⟨path, .inr ⟨hpath, hfile⟩, isPresent_of_defect?_eq_none hdefect⟩

/-- Loading a source merges a file if one is listed for the folder, unless the place of the
single file is taken. -/
theorem merges_iff (table : StringTable) :
    (∃ merged count, (folder.mergeSource storage source table).outcome = .ok (merged, count) ∧
        0 < count) ↔
      ¬ folder.IsBlocked storage source ∧
        (storage.Lists folder.path [source ++ "." ++ sourceExtension] ∨
          folder.HasBelow storage source) := by
  by_cases hblocked : folder.IsBlocked storage source
  · refine iff_of_false ?_ fun h => h.1 hblocked
    rintro ⟨strings, count, hok, -⟩
    obtain ⟨e, herror⟩ := outcome_of_isBlocked hblocked table
    cases herror.symm.trans hok
  · have houtcome := outcome_mergeSource folder storage source table
    have hsound := List.findSome?_eq_none_iff.mpr fun _ hpath =>
      defect?_of_isPresent hstorage hbase hintact hname hblocked hpath
    rw [merged, hsound] at houtcome
    rw [houtcome, ← exists_isPresent_iff hstorage hbase hintact hname hblocked,
      ← List.length_pos_iff_exists_mem]
    constructor
    · rintro ⟨strings, count, hok, hcount⟩
      cases hok
      exact ⟨hblocked, hcount⟩
    · rintro ⟨-, hcount⟩
      exact ⟨_, _, rfl, hcount⟩

end

/-- A source is listed, and that once, if loading it merges a file, and otherwise only for a
file with the extension in another case or for the directory beside a place that is taken. -/
theorem mem_sourceNames_iff (hstorage : storage.Consistent)
    (hbase : (folder.resolved storage).text ≠ "") (hintact : folder.IsIntact storage)
    (hname : IsName source) (table : StringTable) :
    (source ∈ folder.sourceNames storage ↔
      (∃ merged count, (folder.mergeSource storage source table).outcome = .ok (merged, count) ∧
        0 < count) ∨
      folder.HasMiscased storage source ∨
      folder.IsBlocked storage source ∧ folder.HasBelow storage source) ∧
    (folder.sourceNames storage).Nodup := by
  refine ⟨?_, nodup_distinct _⟩
  rw [mem_sourceNames hstorage.listsBelow hname, merges_iff hstorage hbase hintact hname]
  constructor
  · rintro (⟨extension, hextension, hlists⟩ | hbelow)
    · by_cases hexact : extension = sourceExtension
      · subst hexact
        -- what is listed is read, and so its place is not taken
        obtain ⟨text, -, hread, -⟩ := defect?_eq_none_iff.mp
          (defect?_sourceFile hstorage hintact hname hlists)
        refine .inl ⟨?_, .inl hlists⟩
        rintro ⟨fault, hfault, -⟩
        cases hread.symm.trans hfault
      · exact .inr (.inl ⟨extension, hexact, hextension, hlists⟩)
    · by_cases hblocked : folder.IsBlocked storage source
      · exact .inr (.inr ⟨hblocked, hbelow⟩)
      · exact .inl ⟨hblocked, .inr hbelow⟩
  · rintro (⟨-, hlists | hbelow⟩ | ⟨extension, -, hextension, hlists⟩ | ⟨-, hbelow⟩)
    · exact .inl ⟨sourceExtension, toLower_sourceExtension, hlists⟩
    · exact .inr hbelow
    · exact .inl ⟨extension, hextension, hlists⟩
    · exact .inr hbelow

/-- The extension can be in any case below the directory of a source. -/
theorem mem_sourceNames_iff_nested :
    let folder : Folder := ⟨⟨"i18n/"⟩⟩
    let memory := ((Memory.empty ⟨"/mem"⟩).write "i18n/en/deep/a.JSON"
      (.ok "\x7b\"a\": \"1\"\x7d")).write "i18n/de.json" (.ok "\x7b\x7d")
    folder.sourceNames memory.storage = ["en", "de"] ∧
      ((∃ merged count,
          (folder.mergeSource memory.storage "en" .empty).outcome = .ok (merged, count) ∧
            0 < count) ∨
        folder.HasMiscased memory.storage "en" ∨
        folder.IsBlocked memory.storage "en" ∧ folder.HasBelow memory.storage "en") := by
  intro folder memory
  have hmemory : memory.Sound :=
    ((Memory.sound_empty (by decide)).write (by decide +kernel) _).write (by decide +kernel) _
  have hintact : folder.IsIntact memory.storage := by
    unfold IsIntact
    decide +kernel
  have hnames : folder.sourceNames memory.storage = ["en", "de"] := by decide +kernel
  obtain ⟨hlisted, -⟩ := mem_sourceNames_iff hmemory.consistent (by decide +kernel) hintact
    (by decide : Path.IsName "en") StringTable.empty
  exact ⟨hnames, hlisted.mp (hnames ▸ List.mem_cons_self)⟩

/-- In the folder itself a file with the extension in another case is listed and not
loaded. -/
theorem mem_sourceNames_iff_miscased :
    let folder : Folder := ⟨⟨"i18n/"⟩⟩
    let memory := (Memory.empty ⟨"/mem"⟩).write "i18n/en.JSON" (.ok "\x7b\"a\": \"1\"\x7d")
    memory.storage.Consistent ∧ (folder.resolved memory.storage).text ≠ "" ∧
      folder.IsIntact memory.storage ∧ "en" ∈ folder.sourceNames memory.storage ∧
      ¬ ∃ merged count,
        (folder.mergeSource memory.storage "en" .empty).outcome = .ok (merged, count) ∧
          0 < count := by
  intro folder memory
  have hmemory : memory.Sound := (Memory.sound_empty (by decide)).write (by decide +kernel) _
  refine ⟨hmemory.consistent, by decide +kernel, ?_, by decide +kernel, ?_⟩
  · unfold IsIntact
    decide +kernel
  · rintro ⟨strings, count, hok, hcount⟩
    have hnone : (folder.mergeSource memory.storage "en" .empty).outcome.toOption.map Prod.snd =
        some 0 := by decide +kernel
    rw [hok] at hnone
    exact Nat.ne_of_gt hcount (Option.some.inj hnone)

end Folder

end Phrasebook
