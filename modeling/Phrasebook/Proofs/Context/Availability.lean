import Phrasebook.Proofs.Context.Unchanging
import Phrasebook.Proofs.LocaleTable.Available
/-!
# What a context tells to be available

A context lists its folder at the first operation that asks for languages or regions, and
answers all later ones from that listing. So its answers tell of the sources as they were
then: of those that a build counts, and, while the sources stay the same, of those that
a request finds when it spells their names in the same way.
-/

namespace Phrasebook

/-- The operations that ask what the folder holds. -/
def Operation.asksFolder : Operation → Bool
  | .languages | .regions _ => true
  | _ => false

/-- What is asked of the folder is answered from a listing. -/
structure Performed.Tells (p : Performed) (known : Availability) : Prop where
  languages : p.operation = .languages → p.result = .ok (.texts known.languages)
  regions : ∀ language, p.operation = .regions language →
    p.result = .ok (.texts (known.regionsOf language))

namespace Context

open LocaleCode (parse split)

variable {ctx : Context} {storage : Storage} {system : String}

/-! ## Listings -/

/-- The listing that a context has, or makes of a storage. -/
def seen (ctx : Context) (storage : Storage) : Availability :=
  ctx.available.getD (Availability.ofNames (ctx.folder.sourceNames storage))

theorem result_availability (ctx : Context) (storage : Storage) :
    (ctx.availability storage).result = ctx.seen storage := by
  unfold availability seen
  cases ctx.available <;> rfl

/-- A current context knows of the folder what the folder holds. -/
theorem Current.seen_eq (h : ctx.Current storage system) :
    ctx.seen storage = Availability.ofNames (ctx.folder.sourceNames storage) := by
  unfold seen
  cases hknown : ctx.available with
  | none => rfl
  | some known => exact h.available known hknown

theorem tells_performed (ctx : Context) (step : Step) :
    (ctx.performed step).Tells (ctx.seen step.storage) := by
  obtain ⟨storage, system, op⟩ := step
  have hseen := result_availability { ctx with system := system } storage
  constructor
  · rintro rfl
    exact congrArg (fun known => Except.ok (Answer.texts known.languages)) hseen
  · rintro language rfl
    exact congrArg (fun known => Except.ok (Answer.texts (known.regionsOf language))) hseen

/-- After the first question the listing is known. -/
theorem available_of_asksFolder (hnone : ctx.available = none) {step : Step}
    (hasks : step.operation.asksFolder = true) :
    (ctx.take step).context.available = some (ctx.seen step.storage) := by
  obtain ⟨storage, system, op⟩ := step
  cases op with
  | languages | regions =>
      simp only [take, perform, Outcome.map, languages, regions, availability, hnone, seen]
      rfl
  | _ => cases hasks

/-- A known listing answers all questions. -/
theorem tells_of_available {known : Availability} (h : ctx.available = some known)
    {history : History} {p : Performed} (hp : p ∈ ctx.record history) : p.Tells known := by
  induction history generalizing ctx with
  | nil => cases hp
  | cons step history ih =>
      rw [record_cons, List.mem_cons] at hp
      rcases hp with rfl | hp
      · have htells := ctx.tells_performed step
        rwa [seen, h] at htells
      · refine ih ?_ hp
        obtain hsame | ⟨hnone, -⟩ := ctx.available_take step
        · exact hsame.trans h
        · cases h.symm.trans hnone

/-- All questions are answered from the listing that the first one makes. -/
theorem tells_of_first (hnone : ctx.available = none) {first : Step}
    (hasks : first.operation.asksFolder = true) {later : History} {p : Performed}
    (hp : p ∈ ctx.record (first :: later)) :
    p.Tells (Availability.ofNames (ctx.folder.sourceNames first.storage)) := by
  have hseen : ctx.seen first.storage =
      Availability.ofNames (ctx.folder.sourceNames first.storage) := by
    rw [seen, hnone]
    rfl
  rw [← hseen]
  rw [record_cons, List.mem_cons] at hp
  rcases hp with rfl | hp
  · exact ctx.tells_performed first
  · exact tells_of_available (available_of_asksFolder hnone hasks) hp

/-- Operations that do not ask leave what is known of the folder as it is. -/
theorem available_of_not_asksFolder {step : Step} (h : step.operation.asksFolder = false) :
    (ctx.take step).context.available = ctx.available := by
  obtain ⟨storage, system, op⟩ := step
  simp only [take]
  cases hop : op.handlesTables with
  | true =>
      obtain ⟨installed, active, hcontext⟩ :=
        context_of_tables { ctx with system := system } storage hop
      rw [hcontext]
  | false =>
      cases op with
      | languages | regions => cases h
      | init | load | setLocale | table | clear => cases hop
      | get id fallback warn =>
          simp only [perform, Outcome.map, get]
          split <;> rfl
      | pluralized locale id count mode =>
          simp only [perform, Outcome.map, pluralized]
          split <;> rfl
      | pluralize locale word count mode =>
          simp only [perform, Outcome.map, pluralize]
          split <;> rfl
      | _ => rfl

/-- What is no question is answered in no particular way. -/
theorem tells_of_not_asksFolder {p : Performed} (h : p.operation.asksFolder = false)
    {known : Availability} : p.Tells known := by
  obtain ⟨op, result⟩ := p
  constructor
  · rintro rfl
    cases h
  · rintro language rfl
    cases h

/-- In a whole history all questions are answered from what the first one finds. -/
theorem tells_of_find? (hnone : ctx.available = none) {history : History} {first : Step}
    (hfirst : history.find? (fun step => step.operation.asksFolder) = some first)
    {p : Performed} (hp : p ∈ ctx.record history) :
    p.Tells (Availability.ofNames (ctx.folder.sourceNames first.storage)) := by
  induction history generalizing ctx with
  | nil => cases hfirst
  | cons step history ih =>
      cases hasks : step.operation.asksFolder with
      | true =>
          rw [List.find?_cons, hasks] at hfirst
          obtain rfl := Option.some.inj hfirst
          exact tells_of_first hnone hasks hp
      | false =>
          rw [List.find?_cons, hasks] at hfirst
          rw [record_cons, List.mem_cons] at hp
          rcases hp with rfl | hp
          · exact tells_of_not_asksFolder hasks
          · have htells := ih ((available_of_not_asksFolder hasks).trans hnone) hfirst hp
            rwa [folder_take] at htells

/-! ## The order of what is told -/

open Availability (languagesIn regionsIn ofNames)

/-- Languages and regions are told in the order in which the names of sources mention them,
each once: the languages with which names start, but for the common sources, and for a
language its own regions, which those of all languages follow. A context tells those of the
sources that were there when it was first asked, whatever is asked of it later, and whatever
becomes of the sources. -/
theorem told_in_order :
    (∀ names : List String, (ofNames names).languages.Nodup ∧
      (ofNames names).languages = (languagesIn names).eraseDups) ∧
    (∀ (names : List String) (language : String), ((ofNames names).regionsOf language).Nodup ∧
      (ofNames names).regionsOf language = (regionsIn names language).eraseDups ++
        (regionsIn names Layer.commonName).eraseDups.filter (· ∉ regionsIn names language)) ∧
    ∀ (config : Config) (environment : String → Option String) (pluralizer : Plural.Pluralizer)
      (history : History) (first : Step),
      history.find? (fun step => step.operation.asksFolder) = some first →
      ∀ p ∈ (fresh config environment pluralizer).record history,
        p.Tells (ofNames (Folder.sourceNames ⟨config.folder⟩ first.storage)) := by
  refine ⟨fun names => ?_, fun names language => ?_, ?_⟩
  · rw [Availability.languages_ofNames]
    exact ⟨nodup_distinct _, distinct_eq_eraseDups _⟩
  · exact ⟨Availability.nodup_regionsOf _ _, Availability.regionsOf_ofNames names language⟩
  · intro config environment pluralizer history first hfirst p hp
    have hnone : (fresh config environment pluralizer).available = none := rfl
    exact tells_of_find? hnone hfirst hp

/-- What was there at the first question is told after a start on other sources. -/
theorem told_in_order_restarted :
    let memory := ((Memory.empty ⟨"/mem"⟩).write "i18n/fr-CA.json" (.ok "\x7b\x7d")).write
      "i18n/common-GB.json" (.ok "\x7b\x7d")
    let gone := (Memory.empty ⟨"/mem"⟩).storage
    let first : Step := ⟨memory.storage, "en", .languages⟩
    let history : History := [⟨gone, "en", .load "fr"⟩, first, ⟨gone, "en", .init⟩,
      ⟨gone, "en", .regions "fr"⟩]
    history.find? (fun step => step.operation.asksFolder) = some first ∧
      ∀ p ∈ (fresh {} (fun _ => none) Plural.Pluralizer.default).record history,
        (p.operation = .languages → p.result = .ok (.texts ["fr"])) ∧
          (p.operation = .regions "fr" → p.result = .ok (.texts ["CA", "GB"])) := by
  intro memory gone first history
  obtain ⟨-, -, htold⟩ := told_in_order
  have hfirst : history.find? (fun step => step.operation.asksFolder) = some first := by
    simp only [history, first, List.find?_cons, Operation.asksFolder]
  have hnames : Folder.sourceNames ⟨({} : Config).folder⟩ first.storage =
      ["fr-CA", "common-GB"] := by decide +kernel
  have hlanguages : (ofNames ["fr-CA", "common-GB"]).languages = ["fr"] := by decide +kernel
  have hregions : (ofNames ["fr-CA", "common-GB"]).regionsOf "fr" = ["CA", "GB"] := by
    decide +kernel
  refine ⟨hfirst, fun p hp => ?_⟩
  have htells := htold {} (fun _ => none) Plural.Pluralizer.default history first hfirst p hp
  rw [hnames] at htells
  exact ⟨fun h => hlanguages ▸ htells.languages h, fun h => hregions ▸ htells.regions "fr" h⟩

/-! ## Tables tell what is available -/

/-- What a build counts is available. In a context that is first asked about its folder on
the same sources, a table that counts a file of its language or locale makes its language
one of those that are listed; one that counts a file of its locale makes the region one of
that language; one that counts a common file of its region makes the region one of every
language. It is so at the first question and at all later ones. -/
theorem available_of_counted (hnone : ctx.available = none) {first : Step}
    (hasks : first.operation.asksFolder = true) (hstorage : first.storage.Consistent)
    (hbase : (ctx.folder.resolved first.storage).text ≠ "") {locale name : String}
    (hcode : (parse locale).IsOrdinary) {table : LocaleTable} {stats : LoadStats}
    (hbuild : (ctx.folder.build first.storage name (parse locale)).outcome = .ok (table, stats))
    (later : History) :
    ∀ p ∈ ctx.record (first :: later),
      (p.operation = .languages → 0 < stats.languageFiles ∨ 0 < stats.localeFiles →
        ∃ languages, p.result = .ok (.texts languages) ∧ (parse locale).language ∈ languages) ∧
      (p.operation = .regions (parse locale).language → 0 < stats.localeFiles →
        ∃ regions, p.result = .ok (.texts regions) ∧
          ∃ region ∈ (parse locale).region, region ∈ regions) ∧
      ∀ language, p.operation = .regions language → 0 < stats.regionFiles →
        ∃ regions, p.result = .ok (.texts regions) ∧
          ∃ region ∈ (parse locale).region, region ∈ regions := by
  intro p hp
  have htells := tells_of_first hnone hasks hp
  obtain ⟨hlanguage, hown, hcommon⟩ := Folder.available_of_build hstorage hbase hcode hbuild
  refine ⟨?_, ?_, ?_⟩
  · intro hoperation hcount
    exact ⟨_, htells.languages hoperation, hlanguage hcount⟩
  · intro hoperation hcount
    obtain ⟨region, hregion, hmem⟩ := hown hcount
    exact ⟨_, htells.regions _ hoperation, region, hregion,
      Availability.mem_regionsOf.mpr (.inl hmem)⟩
  · intro language hoperation hcount
    obtain ⟨region, hregion, hmem⟩ := hcommon hcount
    exact ⟨_, htells.regions _ hoperation, region, hregion,
      Availability.mem_regionsOf.mpr (.inr hmem)⟩

/-- Regions of a nested source and of a common source are told, the latter even when the
files are gone. -/
theorem available_of_counted_nested :
    let memory := ((Memory.empty ⟨"/mem"⟩).write "i18n/fr-CA/deep/a.JSON"
      (.ok "\x7b\"a\": \"1\"\x7d")).write "i18n/common-CA.json" (.ok "\x7b\x7d")
    let ctx := fresh {} (fun _ => none) Plural.Pluralizer.default
    let first : Step := ⟨memory.storage, "en", .regions "fr"⟩
    let gone : Step := ⟨(Memory.empty ⟨"/mem"⟩).storage, "en", .regions "de"⟩
    (∃ regions, (ctx.performed first).result = .ok (.texts regions) ∧
        ∃ region ∈ (parse "fr_CA").region, region ∈ regions) ∧
      ∃ regions, ((ctx.take first).context.performed gone).result = .ok (.texts regions) ∧
        ∃ region ∈ (parse "fr_CA").region, region ∈ regions := by
  intro memory ctx first gone
  have hmemory : memory.Sound :=
    ((Memory.sound_empty (by decide)).write (by decide +kernel) _).write (by decide +kernel) _
  have hparse : parse "fr_CA" = ⟨"fr", some "CA"⟩ := by decide +kernel
  have hcode : (parse "fr_CA").IsOrdinary := by
    rw [hparse]
    exact ⟨by decide, by decide, List.all_eq_true.mp (by decide),
      fun _ h => Option.some.inj h ▸ List.all_eq_true.mp (by decide)⟩
  have hcounts : (ctx.folder.build memory.storage "fr" (parse "fr_CA")).outcome.toOption.any
      (fun built => 0 < built.2.localeFiles && 0 < built.2.regionFiles) = true := by
    decide +kernel
  obtain ⟨⟨table, stats⟩, hbuild, hcounts⟩ := exists_of_any_toOption hcounts
  obtain ⟨hown, hcommon⟩ : 0 < stats.localeFiles ∧ 0 < stats.regionFiles := by simpa using hcounts
  have hanswers := available_of_counted rfl (rfl : first.operation.asksFolder = true)
    hmemory.consistent (by decide +kernel) hcode hbuild [gone]
  have hfirst : ctx.performed first ∈ ctx.record [first, gone] := by
    simp only [record_cons, List.mem_cons, true_or]
  have hgone : (ctx.take first).context.performed gone ∈ ctx.record [first, gone] := by
    simp only [record_cons, List.mem_cons, true_or, or_true]
  constructor
  · obtain ⟨-, hregions, -⟩ := hanswers _ hfirst
    rw [hparse] at hregions ⊢
    exact hregions (Eq.refl (Operation.regions "fr")) hown
  · obtain ⟨-, -, hregions⟩ := hanswers _ hgone
    exact hregions "de" (Eq.refl (Operation.regions "de")) hcommon

/-- In the empty path, as root and as folder, files are read and none is listed. -/
theorem available_of_counted_rootless :
    let disk := (Disk.empty []).write ⟨"en.json"⟩ (.ok "\x7b\"a\": \"1\"\x7d")
    let storage := disk.storage ⟨""⟩
    let ctx := fresh { rootPath := ⟨""⟩, folder := ⟨""⟩ } (fun _ => none)
      Plural.Pluralizer.default
    storage.Consistent ∧ (parse "en").IsOrdinary ∧
      (ctx.folder.build storage "en" (parse "en")).outcome.toOption.map
        (fun built => built.2.languageFiles) = some 1 ∧
      (ctx.performed ⟨storage, "en", .languages⟩).result = .ok (.texts []) := by
  intro disk storage ctx
  have hdisk : disk.Sound := (Disk.sound_empty (by decide)).write _ _
  have hparse : parse "en" = ⟨"en", none⟩ := by decide +kernel
  refine ⟨hdisk.consistent ⟨""⟩, ?_, by decide +kernel, ?_⟩
  · rw [hparse]
    exact ⟨by decide, by decide, List.all_eq_true.mp (by decide), nofun⟩
  · have hnone : (ctx.seen storage).languages = [] := by decide +kernel
    rw [← hnone]
    exact (ctx.tells_performed ⟨storage, "en", .languages⟩).languages (Eq.refl Operation.languages)

/-! ## Listed sources are found -/

/-- A current context tells what the folder holds. -/
theorem Current.tells (h : ctx.Current storage system) (op : Operation) :
    (ctx.performed ⟨storage, system, op⟩).Tells
      (Availability.ofNames (ctx.folder.sourceNames storage)) :=
  h.seen_eq ▸ ctx.tells_performed ⟨storage, system, op⟩

/-- A request to a current context under the name of a source, written as it is read,
counts this source. -/
theorem Current.counts_of_listed (h : ctx.Current storage system) (hc : ctx.Coherent)
    (hstorage : storage.Consistent) (hsound : ctx.folder.IsSound storage) {name : String}
    (hname : name ∈ ctx.folder.sourceNames storage) (hwritten : (parse name).text = name)
    (hlanguage : (split name).1 ≠ "")
    (hfree : ¬ ctx.folder.HasBlocked storage (LocaleCode.resolve name system)) :
    ∃ stats, (ctx.take ⟨storage, system, .load name⟩).result = .ok (.stats stats) ∧
      match (split name).2 with
      | none => name = (split name).1 ∧ 0 < stats.languageFiles
      | some region => name = (split name).1 ++ "-" ++ region ∧ 0 < stats.localeFiles := by
  rw [LocaleCode.split_of_text_parse hwritten] at hlanguage ⊢
  have hlisted : (parse name).text ∈ ctx.folder.sourceNames storage := hwritten.symm ▸ hname
  obtain ⟨table, stats, hbuild, hcount⟩ :=
    hsound.counts_of_listed hstorage hlanguage hlisted hfree name
  have hasked : Step.name? ⟨storage, system, .load name⟩ = some name :=
    name?_of_not_blank rfl (LocaleCode.isBlankText_of_language hlanguage)
  refine ⟨stats, ?_, ?_⟩
  · rw [h.result_take hc hasked, hbuild]
    rfl
  · rw [LocaleCode.text] at hwritten
    cases hregion : (parse name).region with
    | none =>
        rw [hregion] at hwritten hcount
        exact ⟨hwritten.symm, hcount⟩
    | some region =>
        rw [hregion] at hwritten hcount
        exact ⟨hwritten.symm, hcount⟩

/-- What is listed is found by those who spell it as it is read. While sources that are
all sound stay the same, languages and regions are told by the names of sources, and each
source whose name is the written form of what is read of it is counted in the table that
is requested under this name, unless the place of a file of that locale is taken. -/
theorem counted_of_available (config : Config) (environment : String → Option String)
    (pluralizer : Plural.Pluralizer) (hstorage : storage.Consistent)
    (hsound : Folder.IsSound ⟨config.folder⟩ storage) {h : History}
    (hunchanging : h.Unchanging storage system) :
    let ctx := History.after (fresh config environment pluralizer) h
    let names := Folder.sourceNames ⟨config.folder⟩ storage
    (∃ languages, (ctx.take ⟨storage, system, .languages⟩).result = .ok (.texts languages) ∧
      ∀ language ∈ languages, ∃ name ∈ names, (split name).1 = language) ∧
    (∀ language, ∃ regions,
      (ctx.take ⟨storage, system, .regions language⟩).result = .ok (.texts regions) ∧
      ∀ region ∈ regions, ∃ name ∈ names, split name = (language, some region) ∨
        split name = (Layer.commonName, some region)) ∧
    ∀ name ∈ names, (parse name).text = name → (split name).1 ≠ "" →
      ¬ Folder.HasBlocked ⟨config.folder⟩ storage (LocaleCode.resolve name system) →
      ∃ stats, (ctx.take ⟨storage, system, .load name⟩).result = .ok (.stats stats) ∧
        match (split name).2 with
        | none => name = (split name).1 ∧ 0 < stats.languageFiles
        | some region => name = (split name).1 ++ "-" ++ region ∧ 0 < stats.localeFiles := by
  intro ctx names
  have horigin := coherent_fresh config environment pluralizer
  have hc : ctx.Coherent := horigin.after h
  have hcurrent : ctx.Current storage system :=
    (current_fresh config environment pluralizer storage system).after horigin hunchanging
  have hfolder : ctx.folder = ⟨config.folder⟩ := folder_after _ h
  have hnames : ctx.folder.sourceNames storage = names := by rw [hfolder]
  have htells : ∀ op, (ctx.performed ⟨storage, system, op⟩).Tells (Availability.ofNames names) :=
    fun op => hnames ▸ hcurrent.tells op
  refine ⟨?_, ?_, ?_⟩
  · refine ⟨_, (htells .languages).languages rfl, fun language hlanguage => ?_⟩
    exact (Availability.mem_languages_ofNames.mp hlanguage).2.2
  · intro language
    refine ⟨_, (htells (.regions language)).regions language rfl, fun region hregion => ?_⟩
    obtain hown | hcommon := Availability.mem_regionsOf.mp hregion
    · obtain ⟨-, name, hname, hsplit⟩ := Availability.mem_ownRegions_ofNames.mp hown
      exact ⟨name, hname, .inl hsplit⟩
    · obtain ⟨-, name, hname, hsplit⟩ := Availability.mem_ownRegions_ofNames.mp hcommon
      exact ⟨name, hname, .inr hsplit⟩
  · intro name hname hwritten hlanguage hfree
    rw [← hfolder] at hsound hfree
    rw [← hnames] at hname
    exact hcurrent.counts_of_listed hc hstorage hsound hname hwritten hlanguage hfree

/-- A file of a region is counted, after other requests on the same sources. -/
theorem counted_of_available_regional :
    let memory := ((Memory.empty ⟨"/mem"⟩).write "i18n/fr-CA.json"
      (.ok "\x7b\"a\": \"1\"\x7d")).write "i18n/de/x.json" (.ok "\x7b\x7d")
    let ctx := History.after (fresh {} (fun _ => none) Plural.Pluralizer.default)
      [⟨memory.storage, "en", .load "fr"⟩]
    (∃ languages, (ctx.take ⟨memory.storage, "en", .languages⟩).result = .ok (.texts languages) ∧
      ∀ language ∈ languages, ∃ name ∈ Folder.sourceNames ⟨⟨"i18n/"⟩⟩ memory.storage,
        (split name).1 = language) ∧
    ∃ stats, (ctx.take ⟨memory.storage, "en", .load "fr-CA"⟩).result = .ok (.stats stats) ∧
      0 < stats.localeFiles := by
  intro memory ctx
  have hmemory : memory.Sound :=
    ((Memory.sound_empty (by decide)).write (by decide +kernel) _).write (by decide +kernel) _
  have htidy : memory.IsTidy := by decide +kernel
  have hsplit : split "fr-CA" = ("fr", some "CA") := by decide +kernel
  have hhistory : History.Unchanging memory.storage "en" [⟨memory.storage, "en", .load "fr"⟩] := by
    simp [History.Unchanging]
  obtain ⟨hlanguages, -, hnames⟩ := counted_of_available {} (fun _ => none)
    Plural.Pluralizer.default hmemory.consistent (htidy.isSound hmemory _) hhistory
  refine ⟨hlanguages, ?_⟩
  have hload := hnames "fr-CA" (by decide +kernel) (by decide +kernel) (by rw [hsplit]; decide)
    (htidy.not_hasBlocked _ _)
  rw [hsplit] at hload
  obtain ⟨stats, hresult, -, hcount⟩ := hload
  exact ⟨stats, hresult, hcount⟩

/-- A script in the name of a source is passed over when its region is told, and the name
that a request for this region finds has none. -/
theorem counted_of_available_script :
    let memory := (Memory.empty ⟨"/mem"⟩).write "i18n/zh-Hant-TW.json"
      (.ok "\x7b\"a\": \"1\"\x7d")
    let ctx := fresh {} (fun _ => none) Plural.Pluralizer.default
    memory.storage.Consistent ∧ ctx.folder.IsSound memory.storage ∧
      (ctx.take ⟨memory.storage, "en", .languages⟩).result = .ok (.texts ["zh"]) ∧
      (ctx.take ⟨memory.storage, "en", .regions "zh"⟩).result = .ok (.texts ["TW"]) ∧
      ∃ stats, (ctx.take ⟨memory.storage, "en", .load "zh-TW"⟩).result = .ok (.stats stats) ∧
        stats.languageFiles = 0 ∧ stats.localeFiles = 0 := by
  intro memory ctx
  have hmemory : memory.Sound := (Memory.sound_empty (by decide)).write (by decide +kernel) _
  have htidy : memory.IsTidy := by decide +kernel
  have hsound := htidy.isSound hmemory ctx.folder
  have hcurrent : ctx.Current memory.storage "en" := current_fresh _ _ _ _ _
  refine ⟨hmemory.consistent, hsound, ?_, ?_, ?_⟩
  · have hlanguages : (ctx.seen memory.storage).languages = ["zh"] := by decide +kernel
    rw [← hlanguages]
    exact (ctx.tells_performed ⟨memory.storage, "en", .languages⟩).languages
      (Eq.refl Operation.languages)
  · have hregions : (ctx.seen memory.storage).regionsOf "zh" = ["TW"] := by decide +kernel
    rw [← hregions]
    exact (ctx.tells_performed ⟨memory.storage, "en", .regions "zh"⟩).regions "zh"
      (Eq.refl (Operation.regions "zh"))
  · have hcounts : (ctx.folder.build memory.storage "zh-TW"
        (LocaleCode.resolve "zh-TW" "en")).outcome.toOption.any
          (fun built => built.2.languageFiles = 0 && built.2.localeFiles = 0) = true := by
      decide +kernel
    obtain ⟨⟨table, stats⟩, hbuild, hcounts⟩ := exists_of_any_toOption hcounts
    have hasked : Step.name? ⟨memory.storage, "en", .load "zh-TW"⟩ = some "zh-TW" :=
      name?_of_not_blank (Eq.refl (some "zh-TW")) (by decide)
    have hresult := hcurrent.result_take (coherent_fresh _ _ _) hasked
    rw [hbuild] at hresult
    exact ⟨stats, hresult, by simpa using hcounts⟩

end Context

end Phrasebook
