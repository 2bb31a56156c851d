import Phrasebook.Context
import Phrasebook.Proofs.Storage.Listing
import Phrasebook.Proofs.LocaleTable.Sequence
/-!
# Files that matter to a locale

A file is relevant for a locale when it is the single file of one of the locale's
sources, or lies below the directory of one. A storage can hold anything else, in the
folder and outside of it, without an effect on the table, as long as every source is
the name of one entry of the folder.

## Implementation notes

Sources are made of the text of a request, which nobody checks. A language that is
`.` or empty stands for the whole folder, `..` leads out of it, and a slash leads
wherever the text says. `LocaleCode.IsPlain` rules these out, and nothing else.
-/

namespace Phrasebook

/-- A code of which every source is the name of one entry. -/
def LocaleCode.IsPlain (code : LocaleCode) : Prop :=
  Path.IsName code.language ∧ ∀ region ∈ code.region, '/' ∉ region.toList

instance (code : LocaleCode) : Decidable code.IsPlain :=
  inferInstanceAs (Decidable (_ ∧ _))

/-- Texts without slashes and dots make a plain code, if one of them has a language. -/
theorem LocaleCode.isPlain_resolve {code system : String}
    (hcode : '/' ∉ code.toList ∧ '.' ∉ code.toList)
    (hsystem : '/' ∉ system.toList ∧ '.' ∉ system.toList)
    (hlanguage : (parse code).language ≠ "" ∨ (parse system).language ≠ "") :
    (resolve code system).IsPlain := by
  have hplain {text : String} (h : '/' ∉ text.toList ∧ '.' ∉ text.toList)
      (hne : (parse text).language ≠ "") : Path.IsName (parse text).language := by
    have hdot : '.' ∉ (parse text).language.toList := fun hm =>
      h.2 (mem_of_mem_language (by decide) hm)
    refine ⟨hne, ?_, ?_, fun hm => h.1 (mem_of_mem_language (by decide) hm)⟩
    · exact fun e => hdot (e ▸ by decide)
    · exact fun e => hdot (e ▸ by decide)
  constructor
  · rw [resolve, language_orElse]
    by_cases hempty : (parse code).language = ""
    · rw [if_pos (String.isEmpty_iff.mpr hempty)]
      exact hplain hsystem (hlanguage.resolve_left (absurd hempty))
    · rw [if_neg (by simpa using hempty)]
      exact hplain hcode hempty
  · intro region hregion hslash
    rw [resolve, region_orElse, Option.mem_def] at hregion
    rcases Option.or_eq_some_iff.mp hregion with h | ⟨-, h⟩
    · exact hcode.1 (mem_of_mem_region (by decide) h hslash)
    · exact hsystem.1 (mem_of_mem_region (by decide) h hslash)

namespace Folder

/-- Whether steps below a folder lead to the single file of a source, or to a file
below its directory. -/
def belongsTo (source : String) : List String → Bool
  | [] => false
  | [file] => file = source ++ ".json"
  | directory :: _ :: _ => directory = source

/-- Whether a path leads to a file in the folder that belongs to a source of the
locale, without leading up on the way. -/
def isRelevant (folder : Folder) (root : Path) (code : LocaleCode) (path : Path) : Bool :=
  ((root.join folder.path.text).below? path).any fun below =>
    ".." ∉ below && (sources code).any fun layer => belongsTo layer.2 below

/-- Two storages that have the same files relevant for a locale: a read of one gets
the same answer, and walks list them in the same order. -/
structure SameRelevant (folder : Folder) (code : LocaleCode) (s t : Storage) : Prop where
  root : s.root = t.root
  read : ∀ path, folder.isRelevant s.root code path = true → s.read path = t.read path
  enumerate : ∀ directory,
    (s.enumerate directory).filter (folder.isRelevant s.root code) =
      (t.enumerate directory).filter (folder.isRelevant t.root code)

/-! ### Sources of plain codes -/

theorem isName_of_mem_sources {code : LocaleCode} (h : code.IsPlain) {layer : Layer × String}
    (hlayer : layer ∈ sources code) : Path.IsName layer.2 := by
  obtain ⟨language, region⟩ := code
  obtain ⟨hlanguage, hregion⟩ := h
  have hcommon : Path.IsName "common" := by decide
  cases region with
  | none =>
      simp only [sources, List.mem_cons, List.not_mem_nil, or_false] at hlayer
      rcases hlayer with rfl | rfl
      · exact hcommon
      · exact hlanguage
  | some region =>
      -- a hyphen is no dot, so what has one names an entry
      have hjoined : ∀ name, Path.IsName name → Path.IsName (name ++ "-" ++ region) := by
        intro name hname
        apply Path.isName_of_mem (c := '-') (by simp) (by decide)
        simpa [hname.2.2.2] using hregion region rfl
      simp only [sources, List.mem_cons, List.not_mem_nil, or_false] at hlayer
      rcases hlayer with rfl | rfl | rfl | rfl
      · exact hcommon
      · exact hjoined "common" hcommon
      · exact hlanguage
      · exact hjoined language hlanguage

theorem isName_sourceFile {source : String} (h : Path.IsName source) :
    Path.IsName (source ++ ".json") :=
  Path.isName_of_mem (c := 'j') (by simp) (by decide) (by simpa using h.2.2.2)

theorem isRelevant_iff {folder : Folder} {root : Path} {code : LocaleCode} {path : Path} :
    folder.isRelevant root code path = true ↔
      ∃ below, (root.join folder.path.text).below? path = some below ∧ ".." ∉ below ∧
        ∃ layer ∈ sources code, belongsTo layer.2 below = true := by
  simp [isRelevant, Option.any_eq_true]

/-- The single file of a source is relevant. -/
theorem isRelevant_sourceFile (folder : Folder) (root : Path) {code : LocaleCode}
    (h : code.IsPlain) {layer : Layer × String} (hlayer : layer ∈ sources code) :
    folder.isRelevant root code
      ((root.join folder.path.text).join (layer.2 ++ ".json")) = true := by
  have hname := isName_sourceFile (isName_of_mem_sources h hlayer)
  rw [isRelevant_iff]
  refine ⟨[layer.2 ++ ".json"], Path.below?_join _ hname, ?_, layer, hlayer, ?_⟩
  · simpa using fun e => hname.2.2.1 e.symm
  · simp [belongsTo]

/-- All that a walk of the directory of a source lists is relevant. -/
theorem isRelevant_of_mem_enumerate {folder : Folder} {storage : Storage} {code : LocaleCode}
    (hstorage : storage.ListsBelow) (h : code.IsPlain) {layer : Layer × String}
    (hlayer : layer ∈ sources code) {path : Path}
    (hpath : path ∈ storage.enumerate (folder.path.join layer.2)) :
    folder.isRelevant storage.root code path = true := by
  have hname := isName_of_mem_sources h hlayer
  obtain ⟨below, hbelow, hne, hnames⟩ := hstorage _ path hpath
  rw [isRelevant_iff]
  refine ⟨layer.2 :: below, Path.below?_of_below?_join hname hnames hbelow, ?_, layer, hlayer, ?_⟩
  · exact Path.up_not_mem (by simpa using ⟨hname, hnames⟩)
  · cases below with
    | nil => exact absurd rfl hne
    | cons step below => simp [belongsTo]

/-! ### Equal answers reproduce a build -/

/-- Two storages that answer in the same way what is asked for a source. -/
structure SameAnswers (folder : Folder) (s t : Storage) (source : String) : Prop where
  walk : s.enumerate (folder.sourceDirectory source) = t.enumerate (folder.sourceDirectory source)
  read : ∀ path ∈ folder.places s source, s.read path = t.read path

theorem mergeFile_congr {s t : Storage} {path : Path} (h : s.read path = t.read path)
    (table : StringTable) : mergeFile s path table = mergeFile t path table := by
  simp only [mergeFile, Loading.read, h]

theorem mergeFiles_congr {s t : Storage} {paths : List Path}
    (h : ∀ path ∈ paths, s.read path = t.read path) (merged : StringTable × Nat) :
    mergeFiles s paths merged = mergeFiles t paths merged := by
  induction paths generalizing merged with
  | nil => rfl
  | cons path paths ih =>
      have hrest := ih fun p hp => h p (by simp [hp])
      simp only [mergeFiles, mergeFile_congr (h path (by simp)), hrest]

theorem mergeSource_congr {folder : Folder} {s t : Storage} {source : String}
    (hroot : s.root = t.root) (h : folder.SameAnswers s t source) (table : StringTable) :
    folder.mergeSource s source table = folder.mergeSource t source table := by
  have hread := h.read
  rw [places_eq] at hread
  have hfile : folder.sourceFile t source = folder.sourceFile s source := by
    rw [sourceFile, resolved, ← hroot]
    rfl
  have hsingle : ∀ merged, mergeFiles s [folder.sourceFile s source] merged =
      mergeFiles t [folder.sourceFile s source] merged :=
    mergeFiles_congr fun p hp => hread p (List.mem_append_left _ hp)
  have hlisted : ∀ merged, mergeFiles s
      ((s.enumerate (folder.sourceDirectory source)).filter isSourceFile) merged =
      mergeFiles t ((s.enumerate (folder.sourceDirectory source)).filter isSourceFile) merged :=
    mergeFiles_congr fun p hp => hread p (List.mem_append_right _ hp)
  simp only [mergeSource, hfile, hsingle]
  refine bind_congr fun merged => ?_
  have hwalk : Loading.walk t (folder.sourceDirectory source) =
      Loading.walk s (folder.sourceDirectory source) := by
    rw [Loading.walk, ← h.walk]
    rfl
  rw [hwalk]
  exact Loading.bind_congr_of_ok (Loading.outcome_walk s _) (hlisted merged)

theorem mergeLayers_congr {folder : Folder} {s t : Storage} {code : LocaleCode}
    (hroot : s.root = t.root) {layers : List Layer}
    (h : ∀ layer ∈ layers, ∀ source ∈ layer.source? code, folder.SameAnswers s t source)
    (merged : StringTable × LoadStats) :
    folder.mergeLayers s code layers merged = folder.mergeLayers t code layers merged := by
  induction layers generalizing merged with
  | nil => rfl
  | cons layer layers ih =>
      have hrest := ih fun l hl => h l (by simp [hl])
      cases hsource : layer.source? code with
      | none => simp only [mergeLayers, hsource, hrest]
      | some source =>
          have hanswers := h layer (by simp) source hsource
          simp only [mergeLayers, hsource, mergeSource_congr hroot hanswers, hrest]

/-- Storages that give the same answers about every source of a locale build the same
table, with the same questions asked on the way. -/
theorem build_congr {folder : Folder} {s t : Storage} {code : LocaleCode} (hroot : s.root = t.root)
    (h : ∀ layer ∈ sources code, folder.SameAnswers s t layer.2) (name : String) :
    folder.build s name code = folder.build t name code := by
  have hlayers : ∀ merged, folder.mergeLayers s code Layer.all merged =
      folder.mergeLayers t code Layer.all merged := by
    apply mergeLayers_congr hroot
    intro layer hlayer source hsource
    refine h (layer, source) ?_
    rw [← sources_eq, List.mem_filterMap]
    exact ⟨layer, hlayer, by rw [Option.mem_def.mp hsource]; rfl⟩
  simp only [build, hlayers]

/-- Storages with the same relevant files give the same answers about every source. -/
theorem SameRelevant.sameAnswers {folder : Folder} {s t : Storage} {code : LocaleCode}
    (h : folder.SameRelevant code s t) (hs : s.ListsBelow) (ht : t.ListsBelow)
    (hcode : code.IsPlain) {layer : Layer × String} (hlayer : layer ∈ sources code) :
    folder.SameAnswers s t layer.2 := by
  have hall : ∀ {u : Storage}, u.ListsBelow → ∀ path ∈ u.enumerate (folder.path.join layer.2),
      folder.isRelevant u.root code path = true := fun hu _ hpath =>
    isRelevant_of_mem_enumerate hu hcode hlayer hpath
  constructor
  · have hwalk := h.enumerate (folder.path.join layer.2)
    rwa [List.filter_eq_self.mpr (hall hs), List.filter_eq_self.mpr (hall ht)] at hwalk
  · intro path hpath
    apply h.read
    rcases List.mem_cons.mp hpath with rfl | hpath
    · exact isRelevant_sourceFile folder s.root hcode hlayer
    · exact hall hs path (List.mem_filter.mp hpath).1

end Folder

/-! ### Memories that differ in other files -/

namespace Memory

/-- Whether a file of a memory is relevant for a locale. -/
def isRelevant (folder : Folder) (root : Path) (code : LocaleCode)
    (file : List String × Path × Except ReadFault String) : Bool :=
  folder.isRelevant root code file.2.1

/-- The file that answers a read is relevant if the path of the read is. -/
theorem Sound.get?_filter {m : Memory} (h : m.Sound) {folder : Folder} {code : LocaleCode}
    {path : Path} (hpath : folder.isRelevant m.root code path = true) :
    Assoc.get? path.steps (m.files.entries.filter (isRelevant folder m.root code)) =
      m.files.get? path.steps := by
  apply Assoc.get?_filter
  intro file hfile
  obtain ⟨habs, hsteps, -⟩ := h.file hfile
  rw [Folder.isRelevant_iff] at hpath
  obtain ⟨below, hbelow, hrest⟩ := hpath
  have hroot := Path.isAbsolute_join_of_isAbsolute h.root folder.path.text
  rw [isRelevant, Folder.isRelevant_iff]
  refine ⟨below, ?_, hrest⟩
  rw [Path.below?_congr habs (Path.isAbsolute_of_below? hroot hbelow) hsteps, hbelow]

/-- Memories that agree on the relevant files, in the order of writing, are storages
with the same relevant files. -/
theorem Sound.sameRelevant {m n : Memory} (hm : m.Sound) (hn : n.Sound) {folder : Folder}
    {code : LocaleCode} (hroot : m.root = n.root)
    (hfiles : m.files.entries.filter (isRelevant folder m.root code) =
      n.files.entries.filter (isRelevant folder n.root code)) :
    folder.SameRelevant code m.storage n.storage := by
  refine ⟨hroot, ?_, ?_⟩
  · intro path hpath
    change folder.isRelevant m.root code path = true at hpath
    have hget : m.files.get? path.steps = n.files.get? path.steps := by
      rw [← hm.get?_filter hpath, ← hn.get?_filter (hroot ▸ hpath), hfiles]
    change m.read path = n.read path
    simp only [Memory.read, hget]
  · intro directory
    -- whether a file is relevant and whether it is listed can be asked in either order
    have hlisted : ∀ k : Memory, (k.enumerate directory).filter (folder.isRelevant k.root code) =
        ((k.files.entries.filter (isRelevant folder k.root code)).filter fun file =>
          (k.root.join directory.text).steps <+: file.1 &&
            (k.root.join directory.text).steps ≠ file.1).map fun file => file.2.1 := by
      intro k
      rw [Memory.enumerate, List.filter_map, List.filter_comm]
      rfl
    change (m.enumerate directory).filter (folder.isRelevant m.root code) =
      (n.enumerate directory).filter (folder.isRelevant n.root code)
    rw [hlisted m, hlisted n, hfiles, hroot]

end Memory

namespace Context

/-- Other files have no effect on a request: in storages with the same files that are
relevant for the locale, it has the same answer and leaves the same context behind. -/
theorem load_of_sameRelevant (ctx : Context) (locale : String) {s t : Storage}
    (hs : s.ListsBelow) (ht : t.ListsBelow)
    (hcode : (LocaleCode.resolve (ctx.nameOf locale) ctx.system).IsPlain)
    (h : ctx.folder.SameRelevant (LocaleCode.resolve (ctx.nameOf locale) ctx.system) s t) :
    ctx.load s locale = ctx.load t locale := by
  have hbuild := Folder.build_congr h.root
    (fun layer hlayer => h.sameAnswers hs ht hcode hlayer) (ctx.nameOf locale)
  simp only [load, install, hbuild]

/-- A request for "fr" sees its source; an unreadable source of another locale and a
file outside of the folder make no difference. -/
theorem load_of_sameRelevant_unreadable :
    let ctx := new {} fun _ => none
    let memory := (Memory.empty ⟨"/mem"⟩).write "i18n/fr.json" (.ok "\x7b\"a\": \"1\"\x7d")
    let other := (memory.write "i18n/de.json" (.error ⟨.permissionDenied, "denied"⟩)).write
      "fr.json" (.ok "\x7b\"a\": \"2\"\x7d")
    ctx.load memory.storage "fr" = ctx.load other.storage "fr" ∧
      (ctx.load memory.storage "fr").result.toOption.map LoadStats.totalStrings = some 1 := by
  intro ctx memory other
  have hmemory : memory.Sound := (Memory.sound_empty (by decide)).write (by decide +kernel) _
  have hother : other.Sound :=
    (hmemory.write (by decide +kernel) _).write (by decide +kernel) _
  have hcode : (LocaleCode.resolve (ctx.nameOf "fr") ctx.system).IsPlain := by decide +kernel
  have hroot : memory.root = other.root := by simp [other]
  have hsame : ctx.folder.SameRelevant (LocaleCode.resolve (ctx.nameOf "fr") ctx.system)
      memory.storage other.storage :=
    hmemory.sameRelevant hother hroot (by decide +kernel)
  have hload := load_of_sameRelevant ctx "fr" hmemory.listsBelow hother.listsBelow hcode hsame
  exact ⟨hload, by decide +kernel⟩

/-- Codes that are not plain reach further: an absolute path leads out of the folder,
and "." stands for all of it. -/
theorem load_of_sameRelevant_unchecked :
    let ctx := new {} fun _ => none
    let memory := Memory.empty ⟨"/mem"⟩
    let outside := memory.write "/etc/secret.json" (.ok "\x7b\"a\": \"1\"\x7d")
    let french := memory.write "i18n/fr.json" (.ok "\x7b\"a\": \"1\"\x7d")
    (memory.storage.ListsBelow ∧ outside.storage.ListsBelow ∧ french.storage.ListsBelow) ∧
      (ctx.folder.SameRelevant (LocaleCode.resolve (ctx.nameOf "/etc/secret") ctx.system)
          memory.storage outside.storage ∧
        (ctx.load memory.storage "/etc/secret").result ≠
          (ctx.load outside.storage "/etc/secret").result) ∧
      (ctx.folder.SameRelevant (LocaleCode.resolve (ctx.nameOf ".") ctx.system)
          memory.storage french.storage ∧
        (ctx.load memory.storage ".").result ≠ (ctx.load french.storage ".").result) := by
  intro ctx memory outside french
  have hmemory : memory.Sound := Memory.sound_empty (by decide)
  have hsecret : ".." ∉ (memory.root.join "/etc/secret.json").steps := by decide +kernel
  have hfr : ".." ∉ (memory.root.join "i18n/fr.json").steps := by decide +kernel
  have houtside : outside.Sound := hmemory.write hsecret _
  have hfrench : french.Sound := hmemory.write hfr _
  refine ⟨⟨hmemory.listsBelow, houtside.listsBelow, hfrench.listsBelow⟩, ⟨?_, ?_⟩, ?_, ?_⟩
  · exact hmemory.sameRelevant houtside rfl (by decide +kernel)
  · intro h
    have hstrings := congrArg (fun r => r.toOption.map LoadStats.totalStrings) h
    revert hstrings
    decide +kernel
  · exact hmemory.sameRelevant hfrench rfl (by decide +kernel)
  · intro h
    have hstrings := congrArg (fun r => r.toOption.map LoadStats.totalStrings) h
    revert hstrings
    decide +kernel

end Context

end Phrasebook
