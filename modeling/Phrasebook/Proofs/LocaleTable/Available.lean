import Phrasebook.Proofs.LocaleTable.Isolation
import Phrasebook.Proofs.LocaleTable.Listed
import Phrasebook.Proofs.Locale.Spelling
import Phrasebook.Proofs.LocaleTable.Mentions
/-!
# Available languages and the tables of locales

The languages and regions of a folder are told by the names of its sources, and a table is
merged from the sources of its locale. A table that counts a file for a layer makes the
language and the region of the layer available. In turn, a listed source that is named as
the loader names sources is counted in the table of its locale.
-/

namespace Phrasebook

/-- The code that the source of a layer is named by. -/
def Layer.code (locale : LocaleCode) : Layer → LocaleCode
  | .common => ⟨commonName, none⟩
  | .commonRegion => ⟨commonName, locale.region⟩
  | .language => ⟨locale.language, none⟩
  | .languageRegion => locale

namespace Layer

theorem language_code_ne {locale : LocaleCode} (h : locale.language ≠ "") (layer : Layer) :
    (layer.code locale).language ≠ "" := by
  cases layer with
  | common | commonRegion => exact (by decide : commonName ≠ "")
  | language | languageRegion => exact h

/-- The source of a layer has the region of its locale, or none. -/
theorem region_code (locale : LocaleCode) (layer : Layer) :
    (layer.code locale).region = none ∨ (layer.code locale).region = locale.region := by
  cases layer with
  | common | language => exact .inl rfl
  | commonRegion | languageRegion => exact .inr rfl

theorem exists_region_of_source? {locale : LocaleCode} {layer : Layer} {source : String}
    (hlayer : layer = .commonRegion ∨ layer = .languageRegion)
    (hsource : layer.source? locale = some source) :
    ∃ region, locale.region = some region ∧ (layer.code locale).region = some region := by
  rcases hlayer with rfl | rfl
  · obtain ⟨region, hregion, -⟩ := Option.map_eq_some_iff.mp hsource
    exact ⟨region, hregion, hregion⟩
  · obtain ⟨region, hregion, -⟩ := Option.map_eq_some_iff.mp hsource
    exact ⟨region, hregion, hregion⟩

end Layer

/-- A locale of letters and digits with a language of its own. -/
structure LocaleCode.IsOrdinary (code : LocaleCode) : Prop where
  language_ne : code.language ≠ ""
  language_ne_common : code.language ≠ Layer.commonName
  language : ∀ c ∈ code.language.toList, c.isAlphanum = true
  region : ∀ region, code.region = some region → ∀ c ∈ region.toList, c.isAlphanum = true

namespace LocaleCode

/-- The layer of the most special source of a locale. -/
def ownLayer (code : LocaleCode) : Layer :=
  if code.region.isSome then .languageRegion else .language

theorem IsOrdinary.isPlain {code : LocaleCode} (h : code.IsOrdinary) : code.IsPlain := by
  have hslash : ∀ {text : String}, (∀ c ∈ text.toList, c.isAlphanum = true) → ∀ d : Char,
      d.isAlphanum = false → d ∉ text.toList := by
    intro text htext d hd hmem
    rw [htext d hmem] at hd
    cases hd
  constructor
  · have hdot : '.' ∉ code.language.toList := hslash h.language '.' (by decide)
    refine ⟨h.language_ne, ?_, ?_, hslash h.language '/' (by decide)⟩
    · exact fun e => hdot (e ▸ by decide)
    · exact fun e => hdot (e ▸ by decide)
  · exact fun region hregion => hslash (h.region region hregion) '/' (by decide)

end LocaleCode

namespace Folder

variable {folder : Folder} {storage : Storage} {code : LocaleCode} {layer : Layer}
  {source : String}

/-! ## The sources of a locale -/

theorem mem_sources_iff : (layer, source) ∈ sources code ↔ layer.source? code = some source := by
  rw [← sources_eq, List.mem_filterMap]
  constructor
  · rintro ⟨other, -, hother⟩
    obtain ⟨named, hnamed, he⟩ := Option.map_eq_some_iff.mp hother
    cases he
    exact hnamed
  · intro hsource
    refine ⟨layer, ?_, by rw [hsource]; rfl⟩
    cases layer <;> decide

theorem text_code (h : layer.source? code = some source) : (layer.code code).text = source := by
  obtain ⟨language, region⟩ := code
  cases layer with
  | common => exact Option.some.inj h
  | language => exact Option.some.inj h
  | commonRegion =>
      obtain ⟨region, rfl, rfl⟩ := Option.map_eq_some_iff.mp h
      rfl
  | languageRegion =>
      obtain ⟨region, rfl, rfl⟩ := Option.map_eq_some_iff.mp h
      rfl

theorem isCanonical_code (h : code.IsCanonical) (layer : Layer) :
    (layer.code code).IsCanonical := by
  have hlower : Layer.commonName.toLower = Layer.commonName := by
    rw [← String.toList_inj, Text.toList_toLower]
    decide
  have hsubtag : LocaleCode.IsSubtag Layer.commonName :=
    LocaleCode.isSubtag_of_isAlphanum (List.all_eq_true.mp (by decide))
  cases layer with
  | common => exact ⟨hlower, hsubtag, nofun, nofun, nofun⟩
  | commonRegion => exact ⟨hlower, hsubtag, h.region_ne, h.region_upper, h.region_subtag⟩
  | language => exact ⟨h.language_lower, h.language_subtag, nofun, nofun, nofun⟩
  | languageRegion => exact h

/-- The name of a source is split into the parts of the code that it is named by. -/
theorem split_of_mem_sources {locale : String} (h : (LocaleCode.parse locale).IsOrdinary)
    (hsource : (layer, source) ∈ sources (LocaleCode.parse locale)) :
    LocaleCode.split source = ((layer.code (LocaleCode.parse locale)).language,
      (layer.code (LocaleCode.parse locale)).region) := by
  have hcanonical : (LocaleCode.parse locale).IsCanonical :=
    LocaleCode.isCanonical_parse (LocaleCode.isSubtag_of_isAlphanum h.language)
      fun region hregion => LocaleCode.isSubtag_of_isAlphanum (h.region region hregion)
  have hkept : (layer.code (LocaleCode.parse locale)).region.filter
      (fun r => !LocaleCode.isScript r.toList) = (layer.code (LocaleCode.parse locale)).region := by
    obtain hnone | hsame := layer.region_code (LocaleCode.parse locale)
    · rw [hnone, Option.filter_none]
    · rw [hsame, LocaleCode.region_filter_parse]
  rw [← text_code (mem_sources_iff.mp hsource), LocaleCode.split_written
    (isCanonical_code hcanonical layer), hkept]

/-! ## Counted files are listed -/

/-- A layer counts files if there is one at a place of its source. -/
theorem filesOf_pos_iff : 0 < filesOf layer (folder.sequence storage code) ↔
    ∃ source, (layer, source) ∈ sources code ∧
      ∃ path ∈ folder.places storage source, isPresent storage path = true := by
  simp only [filesOf, List.countP_pos_iff, sequence, List.mem_flatMap, layerFiles, List.mem_map,
    List.mem_filter, decide_eq_true_eq]
  constructor
  · rintro ⟨_, ⟨⟨other, source⟩, hsource, path, hpath, rfl⟩, rfl⟩
    exact ⟨source, hsource, path, hpath⟩
  · rintro ⟨source, hsource, path, hpath⟩
    exact ⟨(layer, path), ⟨(layer, source), hsource, path, hpath, rfl⟩, rfl⟩

/-- A build that succeeds has met no defect, and counts the files of each layer. -/
theorem of_build_eq_ok {name : String} {table : LocaleTable} {stats : LoadStats}
    (h : (folder.build storage name code).outcome = .ok (table, stats)) :
    (∀ file ∈ folder.sequence storage code, defect? storage file.2 = none) ∧
      stats = folder.statsOf storage name code table.strings.size := by
  rw [outcome_build_eq, merged] at h
  cases hd : ((folder.sequence storage code).map Prod.snd).findSome? (defect? storage) with
  | some e =>
      rw [hd] at h
      cases h
  | none =>
      rw [hd] at h
      cases h
      refine ⟨?_, rfl⟩
      intro file hfile
      exact List.findSome?_eq_none_iff.mp hd file.2 (List.mem_map_of_mem hfile)

/-- A source is listed if a file can be read at one of its places. -/
theorem mem_sourceNames_of_read (hstorage : storage.Consistent)
    (hbase : (folder.resolved storage).text ≠ "") (hname : Path.IsName source) {path : Path}
    {text : String} (hpath : path ∈ folder.places storage source)
    (hread : storage.read path = .ok text) : source ∈ folder.sourceNames storage := by
  rw [mem_sourceNames hstorage.listsBelow hname]
  rw [places_eq, List.mem_append, List.mem_singleton, List.mem_filter] at hpath
  rcases hpath with rfl | ⟨hlisted, hfile⟩
  · exact .inl ⟨sourceExtension, toLower_sourceExtension,
      lists_sourceFile_of_read hstorage hbase hname hread⟩
  · obtain ⟨below, hbelow, hne, hnames⟩ := hstorage.listsBelow _ path hlisted
    rw [isSourceFile_eq hbelow hne hnames] at hfile
    exact .inr ⟨below, hstorage.lists_of_lists_join hbase hname ⟨path, hlisted, hbelow⟩, hfile⟩

/-- The source of a layer that counts sound files is listed, under the code of the layer. -/
theorem exists_listed_of_filesOf (hstorage : storage.Consistent)
    (hbase : (folder.resolved storage).text ≠ "") {locale : String}
    (hcode : (LocaleCode.parse locale).IsOrdinary)
    (hsound : ∀ file ∈ folder.sequence storage (LocaleCode.parse locale),
      defect? storage file.2 = none)
    (hcount : 0 < filesOf layer (folder.sequence storage (LocaleCode.parse locale))) :
    ∃ source ∈ folder.sourceNames storage,
      layer.source? (LocaleCode.parse locale) = some source ∧
      LocaleCode.split source = ((layer.code (LocaleCode.parse locale)).language,
        (layer.code (LocaleCode.parse locale)).region) := by
  obtain ⟨source, hsource, path, hpath, hpresent⟩ := filesOf_pos_iff.mp hcount
  have hfile : (layer, path) ∈ folder.sequence storage (LocaleCode.parse locale) :=
    List.mem_flatMap.mpr ⟨_, hsource, List.mem_map_of_mem
      (List.mem_filter.mpr ⟨hpath, hpresent⟩)⟩
  obtain ⟨text, -, hread, -⟩ := defect?_eq_none_iff.mp (hsound _ hfile)
  have hname := isName_of_mem_sources hcode.isPlain hsource
  exact ⟨source, mem_sourceNames_of_read hstorage hbase hname hpath hread,
    mem_sources_iff.mp hsource, split_of_mem_sources hcode hsource⟩

/-- A layer with a region makes it available under its language, if it counts sound files. -/
theorem mem_ownRegions_of_filesOf (hstorage : storage.Consistent)
    (hbase : (folder.resolved storage).text ≠ "") {locale : String}
    (hcode : (LocaleCode.parse locale).IsOrdinary)
    (hsound : ∀ file ∈ folder.sequence storage (LocaleCode.parse locale),
      defect? storage file.2 = none) (hlayer : layer = .commonRegion ∨ layer = .languageRegion)
    (hcount : 0 < filesOf layer (folder.sequence storage (LocaleCode.parse locale))) :
    ∃ region ∈ (LocaleCode.parse locale).region, region ∈
      (Availability.ofNames (folder.sourceNames storage)).ownRegions
        (layer.code (LocaleCode.parse locale)).language := by
  obtain ⟨source, hlisted, hsource, hsplit⟩ :=
    exists_listed_of_filesOf hstorage hbase hcode hsound hcount
  obtain ⟨region, hregion, hown⟩ := Layer.exists_region_of_source? hlayer hsource
  rw [hown] at hsplit
  exact ⟨region, hregion, Availability.mem_ownRegions_ofNames.mpr
    ⟨Layer.language_code_ne hcode.language_ne layer, source, hlisted, hsplit⟩⟩

/-- A table that counts files for its language makes the language available, one that
counts files for its region there, or among the common sources, makes the region
available there. -/
theorem available_of_build (hstorage : storage.Consistent)
    (hbase : (folder.resolved storage).text ≠ "") {locale name : String}
    (hcode : (LocaleCode.parse locale).IsOrdinary) {table : LocaleTable} {stats : LoadStats}
    (hbuild : (folder.build storage name (LocaleCode.parse locale)).outcome = .ok (table, stats)) :
    let code := LocaleCode.parse locale
    let known := Availability.ofNames (folder.sourceNames storage)
    (0 < stats.languageFiles ∨ 0 < stats.localeFiles → code.language ∈ known.languages) ∧
    (0 < stats.localeFiles →
      ∃ region ∈ code.region, region ∈ known.ownRegions code.language) ∧
    (0 < stats.regionFiles →
      ∃ region ∈ code.region, region ∈ known.ownRegions Layer.commonName) := by
  intro code known
  obtain ⟨hsound, rfl⟩ := of_build_eq_ok hbuild
  rw [languageFiles_statsOf, localeFiles_statsOf, regionFiles_statsOf]
  have hlanguage : ∀ layer, 0 < filesOf layer (folder.sequence storage code) →
      (layer.code code).language = code.language → code.language ∈ known.languages := by
    intro layer hcount hsame
    obtain ⟨source, hlisted, -, hsplit⟩ :=
      exists_listed_of_filesOf hstorage hbase hcode hsound hcount
    exact Availability.mem_languages_ofNames.mpr ⟨hcode.language_ne, hcode.language_ne_common,
      source, hlisted, (congrArg Prod.fst hsplit).trans hsame⟩
  refine ⟨?_, ?_, ?_⟩
  · rintro (hcount | hcount)
    · exact hlanguage .language hcount rfl
    · exact hlanguage .languageRegion hcount rfl
  · exact mem_ownRegions_of_filesOf hstorage hbase hcode hsound (.inr rfl)
  · exact mem_ownRegions_of_filesOf hstorage hbase hcode hsound (.inl rfl)

/-! ## Listed sources are counted -/

/-- All source files have the extension as it is, can be read and are objects of strings,
and so are the single files of sources that can be read. -/
structure IsSound (folder : Folder) (storage : Storage) : Prop where
  listed : ∀ directory, ∀ path ∈ storage.enumerate directory, isSourceFile path = true →
    path.extension? = some sourceExtension ∧ defect? storage path = none
  single : ∀ source text, storage.read (folder.sourceFile storage source) = .ok text →
    ∃ pairs, Json.StringObject.read text = .ok pairs

/-- Some source of a locale has its place taken by something without a text. -/
def HasBlocked (folder : Folder) (storage : Storage) (code : LocaleCode) : Prop :=
  ∃ layer ∈ sources code, folder.IsBlocked storage layer.2

/-- All files at the places of a source are sound, unless the first place is taken. -/
theorem IsSound.defect?_of_isPresent (h : folder.IsSound storage)
    (hfree : ¬ folder.IsBlocked storage source) {path : Path}
    (hpath : path ∈ folder.places storage source) (hpresent : isPresent storage path = true) :
    defect? storage path = none := by
  rw [places_eq, List.mem_append, List.mem_singleton, List.mem_filter] at hpath
  rcases hpath with rfl | ⟨hlisted, hfile⟩
  · unfold isPresent at hpresent
    split at hpresent
    · rename_i text hread
      obtain ⟨pairs, hpairs⟩ := h.single source text hread
      exact defect?_eq_none_iff.mpr ⟨text, pairs, hread, hpairs⟩
    · rename_i fault hread
      exact absurd ⟨fault, hread, by simpa using hpresent⟩ hfree
  · exact (h.listed _ path hlisted hfile).2

/-- On sound sources a build succeeds, unless the place of a file is taken. -/
theorem IsSound.exists_build (h : folder.IsSound storage) (hfree : ¬ folder.HasBlocked storage code)
    (name : String) : ∃ table : LocaleTable, (folder.build storage name code).outcome =
      .ok (table, folder.statsOf storage name code table.strings.size) := by
  have hsound : ((folder.sequence storage code).map Prod.snd).findSome? (defect? storage) =
      none := by
    rw [List.findSome?_eq_none_iff]
    intro path hpath
    obtain ⟨⟨layer, _⟩, hfile, rfl⟩ := List.mem_map.mp hpath
    obtain ⟨⟨_, source⟩, hsource, hplace⟩ := List.mem_flatMap.mp hfile
    obtain ⟨path, hpresent, he⟩ := List.mem_map.mp hplace
    cases he
    obtain ⟨hpath, hpresent⟩ := List.mem_filter.mp hpresent
    exact h.defect?_of_isPresent (fun hblocked => hfree ⟨_, hsource, hblocked⟩) hpath hpresent
  rw [outcome_build_eq, merged, hsound]
  exact ⟨_, rfl⟩

/-- A listed source has a file at one of its places. -/
theorem IsSound.exists_isPresent (h : folder.IsSound storage) (hstorage : storage.Consistent)
    (hsource : source ∈ folder.sourceNames storage) :
    ∃ path ∈ folder.places storage source, isPresent storage path = true := by
  have hintact : folder.IsIntact storage := fun path hpath hfile => (h.listed _ path hpath hfile).2
  simp only [places_eq, List.mem_append, List.mem_singleton, List.mem_filter]
  obtain ⟨file, extension, hsplit, hextension, hlists⟩ | hbelow :=
    lists_of_mem_sourceNames hstorage.listsBelow hsource
  · obtain ⟨path, hpath, hbelow⟩ := id hlists
    obtain ⟨hne, hnames⟩ := hstorage.listsBelow.isName_of_lists hlists
    have hends : endsInSource [file] = true := by simp [endsInSource, hsplit, hextension]
    have hfile : isSourceFile path = true :=
      (isSourceFile_eq hbelow hne hnames).trans hends
    -- the extension of the path is that of the file, and so it is as it should be
    have hexact : (Path.splitName file).2 = some sourceExtension :=
      (extension?_eq hbelow hne hnames).symm.trans
        (h.listed _ path hpath hfile).1
    obtain rfl : extension = sourceExtension := by
      rw [hsplit] at hexact
      exact Option.some.inj hexact
    obtain ⟨text, -, hread, -⟩ := hintact.read_of_lists hstorage hlists hends
    rw [Path.eq_of_splitName hsplit] at hread
    replace hread : storage.read (folder.sourceFile storage source) = .ok text := hread
    exact ⟨_, .inl rfl, by rw [isPresent, hread]⟩
  · obtain ⟨below, hlists, -⟩ := id hbelow
    have hname := (hstorage.listsBelow.isName_of_lists hlists).2 _ List.mem_cons_self
    obtain ⟨path, hpath, hfile⟩ := exists_mem_enumerate hstorage hintact hname hbelow
    exact ⟨path, .inr ⟨hpath, hfile⟩, isPresent_of_defect?_eq_none (h.listed _ path hpath hfile).2⟩

/-- The source that a locale is named after is one of its sources, if it has a language. -/
theorem mem_sources_resolve {locale : String} (hlanguage : (LocaleCode.parse locale).language ≠ "")
    (system : String) :
    ((LocaleCode.parse locale).ownLayer, (LocaleCode.parse locale).text) ∈
      sources (LocaleCode.resolve locale system) := by
  have hresolved : (LocaleCode.resolve locale system).language =
      (LocaleCode.parse locale).language := by
    rw [LocaleCode.resolve, LocaleCode.language_orElse, if_neg (by simpa using hlanguage)]
  rw [mem_sources_iff, LocaleCode.ownLayer, LocaleCode.text]
  cases hregion : (LocaleCode.parse locale).region with
  | none => simp [Layer.source?, hresolved]
  | some region =>
      have hsome : (LocaleCode.resolve locale system).region = some region := by
        rw [LocaleCode.resolve, LocaleCode.region_orElse, hregion, Option.some_or]
      simp [Layer.source?, hresolved, hsome]

/-- A listed source is counted in the table of the locale that it is named after. -/
theorem IsSound.counts_of_listed (h : folder.IsSound storage) (hstorage : storage.Consistent)
    {locale system : String} (hlanguage : (LocaleCode.parse locale).language ≠ "")
    (hlisted : (LocaleCode.parse locale).text ∈ folder.sourceNames storage)
    (hfree : ¬ folder.HasBlocked storage (LocaleCode.resolve locale system)) (name : String) :
    ∃ table stats, (folder.build storage name (LocaleCode.resolve locale system)).outcome =
        .ok (table, stats) ∧
      (match (LocaleCode.parse locale).region with
        | none => 0 < stats.languageFiles
        | some _ => 0 < stats.localeFiles) := by
  obtain ⟨table, hbuild⟩ := h.exists_build hfree name
  have hcount : 0 < filesOf (LocaleCode.parse locale).ownLayer
      (folder.sequence storage (LocaleCode.resolve locale system)) :=
    filesOf_pos_iff.mpr ⟨_, mem_sources_resolve hlanguage system,
      h.exists_isPresent hstorage hlisted⟩
  refine ⟨table, _, hbuild, ?_⟩
  rw [LocaleCode.ownLayer] at hcount
  cases hregion : (LocaleCode.parse locale).region with
  | none => simpa [hregion] using hcount
  | some region => simpa [hregion] using hcount

end Folder

/-! ## Memories of sound files -/

namespace Memory

/-- All files of a memory are objects of strings, and source files have the extension as
it is. -/
def IsTidy (m : Memory) : Prop :=
  ∀ file ∈ m.files.entries,
    (file.2.2.toOption.any fun text =>
        (Json.StringObject.read text).toOption.any fun _ => true) = true ∧
      (isSourceFile file.2.1 = true → file.2.1.extension? = some sourceExtension)

instance (m : Memory) : Decidable m.IsTidy :=
  inferInstanceAs (Decidable (∀ file ∈ _, _))

variable {m : Memory}

/-- A tidy memory answers a read with an object of strings, or it has no such file. -/
theorem IsTidy.read_cases (h : m.IsTidy) (path : Path) :
    (∃ text pairs, m.storage.read path = .ok text ∧ Json.StringObject.read text = .ok pairs) ∨
      m.files.get? path.steps = none ∧
        m.storage.read path = .error ⟨.notFound, "no such file"⟩ := by
  have hread : m.storage.read path = m.read path := rfl
  rw [hread, Memory.read]
  cases hget : m.files.get? path.steps with
  | none => exact .inr ⟨rfl, rfl⟩
  | some file =>
      obtain ⟨shown, content⟩ := file
      obtain ⟨hcontent, -⟩ := h _ (OrderedMap.get?_eq_some_iff.mp hget)
      obtain ⟨text, rfl, hpairs⟩ := exists_of_any_toOption hcontent
      obtain ⟨pairs, hpairs, -⟩ := exists_of_any_toOption hpairs
      exact .inl ⟨text, pairs, rfl, hpairs⟩

theorem IsTidy.isSound (h : m.IsTidy) (hm : m.Sound) (folder : Folder) :
    folder.IsSound m.storage := by
  constructor
  · intro directory path hpath hfile
    obtain ⟨below, content, -, hmem⟩ := mem_enumerate_iff.mp hpath
    obtain ⟨-, hsteps, -⟩ := hm.file hmem
    refine ⟨(h _ hmem).2 hfile, ?_⟩
    rw [← hsteps, ← OrderedMap.get?_eq_some_iff] at hmem
    obtain ⟨text, pairs, hread, hpairs⟩ | ⟨hnone, -⟩ := h.read_cases path
    · exact Folder.defect?_eq_none_iff.mpr ⟨text, pairs, hread, hpairs⟩
    · cases hnone.symm.trans hmem
  · intro source text hread
    obtain ⟨text', pairs, hread', hpairs⟩ | ⟨-, hread'⟩ :=
      h.read_cases (folder.sourceFile m.storage source)
    · cases hread.symm.trans hread'
      exact ⟨pairs, hpairs⟩
    · cases hread.symm.trans hread'

/-- No place is taken in a tidy memory. -/
theorem IsTidy.not_hasBlocked (h : m.IsTidy) (folder : Folder) (code : LocaleCode) :
    ¬ folder.HasBlocked m.storage code := by
  rintro ⟨layer, -, fault, hfault, hkind⟩
  obtain ⟨text, pairs, hread, -⟩ | ⟨-, hread⟩ :=
    h.read_cases (folder.sourceFile m.storage layer.2)
  · cases hread.symm.trans hfault
  · cases hread.symm.trans hfault
    exact hkind rfl

end Memory

end Phrasebook
