import Phrasebook.Proofs.Context.Snapshot
import Phrasebook.Proofs.Locale.Spelling
/-!
# Unchanging sources

While the sources and the system locale stay the same, it makes no difference when a table
was built. What a context has installed is then what it would build now, and what it knows
of the folder is what the folder holds. So its answers do not depend on what was asked of
it before, and requests under two spellings of a code have the same table.
-/

namespace Phrasebook

/-- Operations on the same storage and in the same system locale. -/
def History.Unchanging (storage : Storage) (system : String) (h : History) : Prop :=
  ∀ step ∈ h, step.storage = storage ∧ step.system = system

/-- What a request answers under another name. -/
def Answer.named (name : String) : Answer → Answer
  | .stats s => .stats { s with locale := name }
  | .table t => .table { t with name := name }
  | answer => answer

namespace Context

variable {ctx : Context} {storage : Storage} {system : String}

/-- The installed tables are those that would be built now, and availability, if it was
asked for, is that of now. -/
structure Current (ctx : Context) (storage : Storage) (system : String) : Prop where
  installed : ∀ name entry, ctx.installed.get? name = some entry →
    (ctx.folder.build storage name (LocaleCode.resolve name system)).outcome =
      .ok (entry.table, entry.stats)
  available : ∀ known, ctx.available = some known →
    known = Availability.ofNames (ctx.folder.sourceNames storage)

/-- What is known of the folder is kept. If nothing is known yet, it is what an operation
finds there, if it asks. -/
theorem available_take (ctx : Context) (step : Step) :
    (ctx.take step).context.available = ctx.available ∨
      ctx.available = none ∧ (ctx.take step).context.available =
        some (Availability.ofNames (ctx.folder.sourceNames step.storage)) := by
  obtain ⟨storage, system, op⟩ := step
  simp only [take]
  cases hop : op.handlesTables with
  | true =>
      obtain ⟨installed, active, hcontext⟩ :=
        context_of_tables { ctx with system := system } storage hop
      rw [hcontext]
      exact .inl rfl
  | false =>
      obtain ⟨pluralizer, available, hcontext, -, havailable⟩ :=
        context_of_lookup { ctx with system := system } storage hop
      rw [hcontext]
      exact havailable

theorem current_fresh (config : Config) (environment : String → Option String)
    (pluralizer : Plural.Pluralizer) (storage : Storage) (system : String) :
    (fresh config environment pluralizer).Current storage system :=
  ⟨nofun, nofun⟩

/-- A step on the same sources keeps a context current. -/
theorem Current.take (h : ctx.Current storage system) (hc : ctx.Coherent) {step : Step}
    (hstorage : step.storage = storage) (hsystem : step.system = system) :
    (ctx.take step).context.Current storage system := by
  subst hstorage hsystem
  constructor
  · intro name entry hget
    rw [OrderedMap.get?_eq_some_iff, hc.entries_take step, List.mem_append] at hget
    rw [folder_take]
    rcases hget with hkept | hadded
    · have hmem := (List.mem_filter.mp hkept).1
      exact h.installed name entry (OrderedMap.get?_eq_some_iff.mpr hmem)
    · obtain ⟨-, -, hbuild, -⟩ := hc.of_addition? (Option.mem_toList.mp hadded)
      exact hbuild
  · intro known hknown
    rw [folder_take]
    obtain hsame | ⟨-, hfound⟩ := ctx.available_take step
    · exact h.available known (hsame.symm.trans hknown)
    · exact Option.some.inj (hknown.symm.trans hfound)

/-- A history on the same sources keeps a context current. -/
theorem Current.after (h : ctx.Current storage system) (hc : ctx.Coherent) {history : History}
    (hhistory : history.Unchanging storage system) :
    (History.after ctx history).Current storage system := by
  induction history generalizing ctx with
  | nil => exact h
  | cons step history ih =>
      obtain ⟨⟨hstorage, hsystem⟩, hrest⟩ := List.forall_mem_cons.mp hhistory
      exact ih (h.take hc hstorage hsystem) (hc.take step) hrest

/-- A request to a current context is answered by what is built for it now. -/
theorem Current.result_take (hc : ctx.Coherent) {step : Step} {name : String}
    (h : ctx.Current step.storage step.system) (hname : step.name? = some name) :
    (ctx.take step).result =
      (ctx.folder.build step.storage name (LocaleCode.resolve name step.system)).outcome.map
        fun built => step.operation.reply ⟨built.1, built.2⟩ := by
  have hbase : ∀ entry, (ctx.base step).installed.get? name = some entry →
      ctx.installed.get? name = some entry := by
    intro entry hget
    unfold Context.base at hget
    split at hget
    · cases hget
    · exact hget
  obtain ⟨entry, hget, hr, -⟩ | ⟨-, ⟨e, hbuild, hr, -⟩ | ⟨entry, hbuild, hr, -⟩⟩ :=
    hc.take_cases hname
  · rw [hr, h.installed name entry (hbase entry hget)]
    rfl
  · rw [hr, hbuild]
    rfl
  · rw [hr, hbuild]
    rfl

/-! ## Requests under other spellings -/

open LocaleCode (SameSpelling parse sameSpelling_padded)

theorem name?_of_not_blank {step : Step} {locale : String}
    (hrequest : step.operation.request? = some locale) (hblank : Text.isBlankText locale = false) :
    step.name? = some locale := by
  rw [Step.name?, hrequest, Option.map_some, hblank, if_neg Bool.false_ne_true]

/-- Spellings of one code make current contexts answer alike. -/
theorem Current.result_of_sameSpelling {ctx ctx' : Context} {storage : Storage} {system : String}
    (hc : ctx.Coherent) (hc' : ctx'.Coherent) (h : ctx.Current storage system)
    (h' : ctx'.Current storage system) (hfolder : ctx'.folder = ctx.folder) {a b : String}
    (hspelling : SameSpelling a b) (ha : Text.isBlankText a = false)
    (hb : Text.isBlankText b = false) {request : String → Operation}
    (hrequest : request ∈ [Operation.load, .setLocale, .table]) :
    (ctx'.take ⟨storage, system, request b⟩).result =
      (ctx.take ⟨storage, system, request a⟩).result.map (Answer.named b) := by
  have hkind : request = .load ∨ request = .setLocale ∨ request = .table := by
    simpa using hrequest
  have hasked : ∀ locale, (request locale).request? = some locale := by
    intro locale
    rcases hkind with rfl | rfl | rfl <;> rfl
  have hreply : ∀ entry : Installed, Answer.named b ((request a).reply entry) =
      (request b).reply ⟨{ entry.table with name := b }, { entry.stats with locale := b }⟩ := by
    intro entry
    rcases hkind with rfl | rfl | rfl <;> rfl
  rw [h.result_take hc (name?_of_not_blank (hasked a) ha),
    h'.result_take hc' (name?_of_not_blank (hasked b) hb), hfolder,
    ← LocaleCode.resolve_of_sameSpelling hspelling, Folder.outcome_build_renamed _ _ _ a b]
  cases (ctx.folder.build storage a (LocaleCode.resolve a system)).outcome with
  | error e => rfl
  | ok built => exact congrArg Except.ok (hreply ⟨built.1, built.2⟩).symm

/-- The spellings of a code are read alike, and what is read of a text without blanks is
read again from its written form. While sources and system locale stay the same, requests
under two spellings that are not blank have the same answers but for the name, whatever
was asked of each context before. -/
theorem spellings_agree :
    (∀ {a b : String}, SameSpelling a b → parse a = parse b) ∧
    (∀ {code : String}, (∀ c ∈ code.toList, Text.isBlank c = false) →
      parse (parse code).text = parse code) ∧
    ∀ (config : Config) (environment : String → Option String)
      (pluralizer : Plural.Pluralizer) {storage : Storage} {system : String} {h h' : History},
      h.Unchanging storage system → h'.Unchanging storage system →
      ∀ {a b : String}, SameSpelling a b → Text.isBlankText a = false →
      Text.isBlankText b = false → ∀ {request : String → Operation},
      request ∈ [Operation.load, .setLocale, .table] →
        let origin := fresh config environment pluralizer
        ((History.after origin h').take ⟨storage, system, request b⟩).result =
          ((History.after origin h).take ⟨storage, system, request a⟩).result.map
            (Answer.named b) := by
  refine ⟨LocaleCode.parse_of_sameSpelling, LocaleCode.parse_text_parse, ?_⟩
  intro config environment pluralizer storage system h h' hh hh' a b hspelling ha hb request
    hrequest origin
  have horigin : origin.Coherent := coherent_fresh config environment pluralizer
  have hcurrent : origin.Current storage system :=
    current_fresh config environment pluralizer storage system
  have hfolder : (History.after origin h').folder = (History.after origin h).folder :=
    (folder_after origin h').trans (folder_after origin h).symm
  exact Current.result_of_sameSpelling (horigin.after h) (horigin.after h')
    (hcurrent.after horigin hh) (hcurrent.after horigin hh') hfolder hspelling ha hb hrequest

/-- A table that was loaded as "fr_CA" is the one for another spelling, which is loaded
after it. -/
theorem spellings_agree_padded :
    let storage := ((Memory.empty ⟨"."⟩).write "i18n/fr-CA.json"
      (.ok "\x7b\"a\": \"1\"\x7d")).storage
    let origin := fresh {} (fun _ => none) Plural.Pluralizer.default
    let ctx := History.after origin [⟨storage, "en", .load "fr_CA"⟩]
    parse (parse "fr_CA").text = parse " FR-Latn-ca-x " ∧
      (ctx.take ⟨storage, "en", .table " FR-Latn-ca-x "⟩).result =
        (origin.take ⟨storage, "en", .table "fr_CA"⟩).result.map
          (Answer.named " FR-Latn-ca-x ") := by
  intro storage origin ctx
  obtain ⟨hparse, htext, hrequests⟩ := spellings_agree
  have hhistory : History.Unchanging storage "en" [⟨storage, "en", .load "fr_CA"⟩] := by
    simp [History.Unchanging]
  constructor
  · have hfree : ∀ c ∈ "fr_CA".toList, Text.isBlank c = false := by
      simpa using (by decide : "fr_CA".toList.any Text.isBlank = false)
    rw [htext hfree, hparse sameSpelling_padded]
  · exact hrequests {} (fun _ => none) Plural.Pluralizer.default (h := []) nofun hhistory
      sameSpelling_padded (by decide) (by decide) (by simp)

end Context

end Phrasebook
