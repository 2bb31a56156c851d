import Phrasebook.Command.Run
import Phrasebook.Proofs.Context.Unchanging
import Phrasebook.Proofs.Json.Documents
/-!
# What commands write

A command gathers all that it has to say before it writes, so a failure, wherever it comes
from, leaves the output empty. What the statistics of several locales say of one of them is
what a build of its table counts: it does not matter which tables were loaded before.
Whoever reads what is written finds these entries again.
-/

namespace Phrasebook

namespace Context

variable {ctx : Context} {storage : Storage}

/-- The statistics of building the table of a request anew. -/
def statistics (ctx : Context) (storage : Storage) (locale : String) : Except Error LoadStats :=
  (ctx.folder.build storage (ctx.nameOf locale)
    (LocaleCode.resolve (ctx.nameOf locale) ctx.system)).outcome.map Prod.snd

/-- Loading into a current context answers like building the table anew. -/
theorem Current.result_load (h : ctx.Current storage ctx.system) (locale : String) :
    (ctx.load storage locale).result = ctx.statistics storage locale := by
  unfold load statistics
  obtain ⟨entry, hget, he⟩ | ⟨-, ⟨e, hb, he⟩ | ⟨entry, hb, he⟩⟩ := ctx.install_cases storage locale
  · rw [he, h.installed _ entry hget]
    rfl
  · rw [buildFor] at hb
    rw [he, hb]
    rfl
  · rw [buildFor] at hb
    rw [he, hb]
    rfl

/-- Loading leaves a context current, and later requests are for the same tables. -/
theorem Current.load (h : ctx.Current storage ctx.system) (hc : ctx.Coherent) (locale : String) :
    let loaded := (ctx.load storage locale).context
    loaded.Coherent ∧ loaded.Current storage loaded.system ∧
      loaded.statistics storage = ctx.statistics storage := by
  intro loaded
  let step : Step := ⟨storage, ctx.system, .load locale⟩
  have hcoherent : loaded.Coherent := hc.take step
  have hcurrent : loaded.Current storage ctx.system :=
    h.take hc (Eq.refl step.storage) (Eq.refl step.system)
  obtain ⟨installed, hcontext⟩ := ctx.context_install storage locale
  have hloaded : loaded = { ctx with installed := installed } := hcontext
  rw [hloaded] at hcurrent hcoherent ⊢
  exact ⟨hcoherent, hcurrent, rfl⟩

/-- A context that is made by a configuration is current, and it has an active table. -/
theorem of_ofConfig {config : Config} {environment : String → Option String}
    (h : ofConfig config environment storage = .ok ctx) :
    ctx.Coherent ∧ ctx.Current storage ctx.system ∧ ctx.active ≠ none := by
  obtain ⟨-, -, h⟩ := bind_eq_ok_iff.mp h
  let fresh := new config environment
  have hc : fresh.Coherent := coherent_of_empty rfl rfl
  have hcurrent : fresh.Current storage fresh.system := ⟨nofun, nofun⟩
  cases hresult : (fresh.init storage).result with
  | error e =>
      simp only [fresh, hresult] at h
      cases h
  | ok stats =>
      simp only [fresh, hresult] at h
      obtain rfl := Except.ok.inj h
      let start : Step := ⟨storage, fresh.system, .init⟩
      have hsystem : (fresh.init storage).context.system = fresh.system := by
        obtain ⟨installed, active, hcontext⟩ := context_setLocale
          { fresh with installed := OrderedMap.empty, active := none } storage ""
        unfold init
        rw [hcontext]
      refine ⟨hc.take start, ?_, (coherent_of_empty rfl rfl).active_of_setLocale hresult⟩
      rw [hsystem]
      exact hcurrent.take hc (Eq.refl start.storage) (Eq.refl start.system)

end Context

namespace Command

namespace Running

variable {α β : Type}

/-- Whoever fails has written nothing. -/
def AllOrNothing (x : Running α) : Prop := ∀ failure, x.outcome = .error failure → x.written = []

theorem allOrNothing_of_ok {x : Running α} {a : α} (h : x.outcome = .ok a) : x.AllOrNothing := by
  intro failure hfailure
  rw [h] at hfailure
  cases hfailure

/-- What comes before the last thing that can fail must not write. -/
theorem AllOrNothing.bind {x : Running α} {f : α → Running β} (hx : x.written = [])
    (hf : ∀ a, (f a).AllOrNothing) : (x >>= f).AllOrNothing := by
  intro failure hfailure
  cases houtcome : x.outcome with
  | error e => rw [written_bind_of_error houtcome, hx]
  | ok a =>
      have hrest : (f a).outcome = .error failure := outcome_bind_of_ok houtcome ▸ hfailure
      rw [written_bind_of_ok houtcome, hx, hf a failure hrest, List.append_nil]

/-- A command that gathers one text and then writes it. -/
theorem allOrNothing_printLine (x : Running α) (hx : x.written = []) (text : α → String) :
    (x >>= fun a => printLine (text a)).AllOrNothing :=
  .bind hx fun _ => allOrNothing_of_ok rfl

end Running

open Running

variable {s : Surroundings} {inv : Invocation} {storage : Storage} {ctx : Context}

/-! ## Failures leave nothing behind -/

/-- Whatever the task, it fails before it writes. -/
theorem allOrNothing_perform (s : Surroundings) (storage : Storage) (ctx : Context) (task : Task) :
    (perform s storage ctx task).AllOrNothing := by
  cases task with
  | lookup id fallback => exact allOrNothing_printLine _ rfl _
  | render template => exact allOrNothing_printLine _ rfl _
  | translate input shallow =>
      exact .bind rfl fun _ => .bind rfl fun _ => allOrNothing_printLine _ rfl _
  | plural id count mode word => exact .bind rfl fun _ => allOrNothing_printLine _ rfl _
  | stats locales => exact allOrNothing_printLine _ rfl _
  | languages => exact allOrNothing_of_ok (outcome_printLines _)
  | regions language => exact allOrNothing_of_ok (outcome_printLines _)

theorem allOrNothing_run (s : Surroundings) (inv : Invocation) : (run s inv).AllOrNothing :=
  .bind rfl fun _ => .bind rfl fun _ => allOrNothing_perform s _ _ inv.task

/-- A program that does not end well has no output. -/
theorem output_ending (s : Surroundings) (args : List String) (h : (ending s args).code ≠ 0) :
    (ending s args).output = "" := by
  unfold ending at h ⊢
  cases hparse : parse args with
  | error stop =>
      cases stop with
      | usage => rfl
      | help command => simp [hparse, Stop.ending] at h
      | version => simp [hparse, Stop.ending] at h
  | ok inv =>
      simp only [hparse, Running.ending] at h ⊢
      cases houtcome : (run s inv).outcome with
      | ok _ => simp [houtcome] at h
      | error failure =>
          change (run s inv).output = ""
          rw [Running.output, allOrNothing_run s inv failure houtcome]
          rfl

/-! ## Statistics -/

/-- Locales are loaded just if a table can be built for each, and their statistics are then
those of the builds, in the same order. -/
theorem loadAll_eq_ok_iff (h : ctx.Current storage ctx.system) (hc : ctx.Coherent)
    (locales : List String) (all : List LoadStats) :
    loadAll storage ctx locales = .ok all ↔
      locales.map (ctx.statistics storage) = all.map .ok := by
  induction locales generalizing ctx all with
  | nil => cases all <;> simp [loadAll]
  | cons locale rest ih =>
      obtain ⟨hcoherent, hcurrent, hstatistics⟩ := h.load hc locale
      have ih := ih hcurrent hcoherent
      rw [hstatistics] at ih
      rw [loadAll, h.result_load locale, List.map_cons]
      cases hone : ctx.statistics storage locale with
      | error e => cases all <;> simp
      | ok stats =>
          cases all with
          | nil =>
              cases loadAll storage (ctx.load storage locale).context rest <;> simp [Except.map]
          | cons first all =>
              rw [List.map_cons, List.cons.injEq, Except.ok.injEq, ← ih]
              cases loadAll storage (ctx.load storage locale).context rest <;> simp [Except.map]

/-- Results that are there are the same where they were asked for in the same way. -/
theorem getElem?_eq_of_map_eq {α β ε : Type} {f : α → Except ε β} {asked : List α} {told : List β}
    (h : asked.map f = told.map .ok) {i j : Nat} (hij : asked[i]? = asked[j]?) :
    told[i]? = told[j]? := by
  have hat : ∀ k : Nat, asked[k]?.map f = told[k]?.map .ok := by
    intro k
    rw [← List.getElem?_map, ← List.getElem?_map, h]
  have hresults : told[i]?.map (@Except.ok ε β) = told[j]?.map .ok := by
    rw [← hat i, ← hat j, hij]
  exact Option.map_injective (fun _ _ => Except.ok.inj) hresults

/-- A run that succeeds has performed its task on the context of its configuration. -/
theorem exists_run_eq_perform (h : (run s inv).outcome = .ok ()) :
    ∃ config ctx, loadConfig s inv = .ok config ∧
      Context.ofConfig config s.environment (s.storage config.rootPath) = .ok ctx ∧
      run s inv = perform s (s.storage config.rootPath) ctx inv.task := by
  obtain ⟨config, hconfig, h⟩ := outcome_bind_eq_ok_iff.mp h
  obtain ⟨ctx, hctx, -⟩ := outcome_bind_eq_ok_iff.mp h
  have hmade : (Context.ofConfig config s.environment (s.storage config.rootPath)).mapError
      Failure.tables = .ok ctx := hctx
  refine ⟨config, ctx, hconfig, mapError_eq_ok_iff.mp hmade, ?_⟩
  have hloaded : loadConfig s inv = .ok config := hconfig
  simp only [run, hloaded, ofExcept_ok_bind, hmade]

/-- Statistics that are told are those of all that was asked for. -/
theorem written_stats {locales : List String}
    (h : (perform s storage ctx (.stats locales)).outcome = .ok ()) :
    ∃ all, loadAll storage ctx (if locales.isEmpty then ctx.activeName.toList else locales) =
        .ok all ∧
      (perform s storage ctx (.stats locales)).written =
        [(Json.Value.array (all.map report)).indented 0 ++ "\n"] := by
  obtain ⟨all, hall, -⟩ := outcome_bind_eq_ok_iff.mp h
  have hloaded : loadAll storage ctx
      (if locales.isEmpty then ctx.activeName.toList else locales) = .ok all :=
    mapError_eq_ok_iff.mp hall
  refine ⟨all, hloaded, ?_⟩
  rw [perform, hloaded]
  rfl

/-- An entry keeps its counts when it is written, as far as they are of 64 bits. -/
theorem isExact_report {stats : LoadStats} (hfiles : stats.totalFiles < UInt64.size)
    (hstrings : stats.totalStrings < UInt64.size) : (report stats).IsExact := by
  have hnumber : ∀ n : Nat, n < UInt64.size → (Json.Value.number (.whole n)).IsExact := by
    intro n hn
    refine Json.Value.isExact_iff.mpr ⟨?_, List.forall_mem_nil _⟩
    change -(Nat.pow 2 63 : Int) ≤ n ∧ (n : Int) < UInt64.size
    omega
  have htext : ∀ s, (Json.Value.text s).IsExact := fun s =>
    Json.Value.isExact_iff.mpr ⟨trivial, List.forall_mem_nil _⟩
  have hsum : stats.totalFiles =
    stats.commonFiles + stats.regionFiles + stats.languageFiles + stats.localeFiles := rfl
  refine Json.Value.isExact_iff.mpr ⟨?_, ?_⟩
  · change List.Nodup ["locale", "common_files", "region_files", "language_files", "locale_files",
      "total_strings", "total_files"]
    decide
  · simp only [report, Json.Value.children, List.map_cons, List.map_nil, List.forall_mem_cons]
    exact ⟨htext _, hnumber _ (by omega), hnumber _ (by omega), hnumber _ (by omega),
      hnumber _ (by omega), hnumber _ hstrings, hnumber _ hfiles, List.forall_mem_nil _⟩

/-- What is written of the statistics is read back as one entry for each locale. -/
theorem read_output_stats {locales : List String}
    (h : (perform s storage ctx (.stats locales)).outcome = .ok ()) :
    ∃ all, loadAll storage ctx (if locales.isEmpty then ctx.activeName.toList else locales) =
        .ok all ∧
      ((∀ stats ∈ all, stats.totalFiles < UInt64.size ∧ stats.totalStrings < UInt64.size) →
        Json.Value.read (perform s storage ctx (.stats locales)).output =
          .ok (.array (all.map report))) := by
  obtain ⟨all, hall, hwritten⟩ := written_stats h
  refine ⟨all, hall, fun hcounts => ?_⟩
  have hexact : (Json.Value.array (all.map report)).IsExact := by
    refine Json.Value.isExact_iff.mpr ⟨trivial, fun entry hentry => ?_⟩
    obtain ⟨stats, hstats, rfl⟩ := List.mem_map.mp hentry
    exact isExact_report (hcounts stats hstats).1 (hcounts stats hstats).2
  have hdepth : (Json.Value.array (all.map report)).nesting ≤ Json.Reader.deepest := by
    have hentries : ¬ 1 < Json.Value.nestingOfItems (all.map report) := by
      rw [Json.Value.lt_nestingOfItems_iff]
      rintro ⟨entry, hentry, hlt⟩
      obtain ⟨stats, -, rfl⟩ := List.mem_map.mp hentry
      exact absurd hlt (Nat.lt_irrefl 1)
    rw [Json.Value.nesting, Json.Reader.deepest]
    omega
  have hline : Json.Token.Spells [] "\n".toList := .space rfl .nil
  have hjoin : ∀ text : String, String.join [text] = text := fun _ => String.empty_append
  rw [Running.output, hwritten, hjoin]
  exact Json.Value.read_indented hexact hdepth 0 hline

/-- Whatever a command is, and wherever it fails, a failure leaves nothing written. The
statistics are told by one entry for each locale that is asked for, in the same order, and
without any for the active one. An entry is what a build of the table of its locale counts,
along with the sum of the four layers, and the same for a locale wherever it stands. -/
theorem run_allOrNothing (s : Surroundings) (inv : Invocation) :
    (∀ failure, (run s inv).outcome = .error failure → (run s inv).written = []) ∧
    ∀ locales, inv.task = .stats locales → (run s inv).outcome = .ok () →
      ∃ config ctx active, loadConfig s inv = .ok config ∧
        Context.ofConfig config s.environment (s.storage config.rootPath) = .ok ctx ∧
        ctx.activeName = some active ∧
        let asked := if locales.isEmpty then [active] else locales
        ∃ told : List LoadStats,
          asked.map (ctx.statistics (s.storage config.rootPath)) = told.map .ok ∧
          (∀ i j : Nat, asked[i]? = asked[j]? → told[i]? = told[j]?) ∧
          (run s inv).written = [(Json.Value.array (told.map fun stats => .object [
            ("locale", .text stats.locale),
            ("common_files", .number (.whole stats.commonFiles)),
            ("region_files", .number (.whole stats.regionFiles)),
            ("language_files", .number (.whole stats.languageFiles)),
            ("locale_files", .number (.whole stats.localeFiles)),
            ("total_strings", .number (.whole stats.totalStrings)),
            ("total_files", .number (.whole (stats.commonFiles + stats.regionFiles +
              stats.languageFiles + stats.localeFiles)))])).indented 0 ++ "\n"] := by
  refine ⟨allOrNothing_run s inv, fun locales htask hok => ?_⟩
  obtain ⟨config, ctx, hconfig, hctx, hrun⟩ := exists_run_eq_perform hok
  obtain ⟨hcoherent, hcurrent, hactive⟩ := Context.of_ofConfig hctx
  obtain ⟨table, htable⟩ := Option.ne_none_iff_exists'.mp hactive
  have hname : ctx.activeName = some table.name := by
    rw [Context.activeName, htable, Option.map_some]
  rw [hrun, htask] at hok
  obtain ⟨told, htold, hwritten⟩ := written_stats hok
  rw [hname, Option.toList_some] at htold
  have hstatistics := (loadAll_eq_ok_iff hcurrent hcoherent _ _).mp htold
  refine ⟨config, ctx, table.name, hconfig, hctx, hname, told, hstatistics, ?_, ?_⟩
  · exact fun i j hij => getElem?_eq_of_map_eq hstatistics hij
  · rw [hrun, htask, hwritten]
    rfl

/-- A locale that is asked for twice has two equal entries, and one that cannot be loaded
leaves nothing of those before it. -/
theorem run_allOrNothing_repeated :
    let memory := (((Memory.empty ⟨"."⟩).write "i18n/en.json" (.ok "\x7b\"a\": \"1\"\x7d")).write
      "i18n/fr.json" (.ok "\x7b\"a\": \"2\", \"b\": \"3\"\x7d")).write "i18n/de.json" (.ok "\x7b")
    let s : Surroundings := ⟨fun _ => .ok "", fun _ => memory.storage, fun _ => none⟩
    let asking (locales : List String) : Invocation := ⟨none, none, none, some "en", .stats locales⟩
    (run s (asking ["fr", "de", "fr"])).outcome =
        .error (.error (.malformedSource ⟨"./i18n/de.json"⟩ .truncated)) ∧
      (run s (asking ["fr", "de", "fr"])).written = [] ∧
      (run s (asking ["fr", "", "fr"])).outcome = .ok () ∧
      ∃ french english, (run s (asking ["fr", "", "fr"])).written =
        [(Json.Value.array ([french, english, french].map report)).indented 0 ++ "\n"] := by
  intro memory s asking
  have hfailure : (run s (asking ["fr", "de", "fr"])).outcome =
      .error (.error (.malformedSource ⟨"./i18n/de.json"⟩ .truncated)) := by decide +kernel
  have hok : (run s (asking ["fr", "", "fr"])).outcome = .ok () := by decide +kernel
  obtain ⟨-, htold⟩ := run_allOrNothing s (asking ["fr", "", "fr"])
  obtain ⟨_, _, _, -, -, -, told, hstatistics, hsame, hwritten⟩ := htold _ rfl hok
  have hlength : told.length = 3 := by simpa using (congrArg List.length hstatistics).symm
  obtain ⟨first, second, third, rfl⟩ := List.length_eq_three.mp hlength
  obtain rfl : first = third := Option.some.inj (hsame 0 2 rfl)
  exact ⟨hfailure, (run_allOrNothing s _).1 _ hfailure, hok, first, second, hwritten⟩

end Command

end Phrasebook
