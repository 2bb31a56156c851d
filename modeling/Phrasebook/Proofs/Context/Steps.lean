import Phrasebook.Context.History
import Phrasebook.Proofs.Document.InPlace
import Phrasebook.Proofs.LocaleTable.Sequence
/-!
# What an operation can do

Each operation of a context is described once: which tables it installs or
forgets, which table it makes active, and with which errors it can fail. All that
is proved about histories rests on these descriptions.
-/

namespace Phrasebook

/-- The operations that may install, activate or forget a table. -/
def Operation.handlesTables : Operation → Bool
  | .init | .load _ | .setLocale _ | .table _ | .clear _ => true
  | _ => false

/-- What can become of a pluralizer when it is asked for one form, or for none. -/
inductive Plural.Pluralizer.Asked (p : Plural.Pluralizer) : Plural.Pluralizer → Prop
  | nothing : p.Asked p
  | stored (table : LocaleTable) (locale id : String) (count : Plural.Count) (mode : Plural.Mode) :
    p.Asked (p.pluralizedString table locale id count mode).pluralizer
  | literal (locale word : String) (count : Plural.Count) (mode : Plural.Mode) :
    p.Asked (p.pluralize locale word count mode).pluralizer

namespace Context

variable (ctx : Context) (storage : Storage)

/-! ## Loading -/

/-- The load that a request makes if its name is not installed. -/
def buildFor (locale : String) : Loading (LocaleTable × LoadStats) :=
  ctx.folder.build storage (ctx.nameOf locale)
    (LocaleCode.resolve (ctx.nameOf locale) ctx.system)

/-- A request is answered by what is installed under its name. Otherwise it makes
a load, which fails and changes nothing, or which is installed under that name. -/
theorem install_cases (locale : String) :
    (∃ entry, ctx.installed.get? (ctx.nameOf locale) = some entry ∧
      ctx.install storage locale = ctx.still (.ok entry)) ∨
    ctx.installed.get? (ctx.nameOf locale) = none ∧
      ((∃ e, (ctx.buildFor storage locale).outcome = .error e ∧
        ctx.install storage locale =
          ⟨.error e, ctx, [], (ctx.buildFor storage locale).accesses⟩) ∨
      ∃ entry : Installed,
        (ctx.buildFor storage locale).outcome = .ok (entry.table, entry.stats) ∧
        ctx.install storage locale =
          ⟨.ok entry, { ctx with installed := ctx.installed.insert (ctx.nameOf locale) entry }, [],
            (ctx.buildFor storage locale).accesses⟩) := by
  simp only [install]
  cases hname : ctx.installed.get? (ctx.nameOf locale) with
  | some entry => exact Or.inl ⟨entry, rfl, rfl⟩
  | none =>
      refine Or.inr ⟨rfl, ?_⟩
      cases hb : (ctx.buildFor storage locale).outcome with
      | error e =>
          refine Or.inl ⟨e, rfl, ?_⟩
          rw [buildFor] at hb
          simp only [hb]
          rfl
      | ok built =>
          refine Or.inr ⟨⟨built.1, built.2⟩, rfl, ?_⟩
          rw [buildFor] at hb
          simp only [hb]
          rfl

/-- A request fails with the file that stopped its load. -/
theorem file_of_install_error {ctx : Context} {storage : Storage} {locale : String} {e : Error}
    (h : (ctx.install storage locale).result = .error e) : e.isOfFile := by
  obtain ⟨entry, _, he⟩ | ⟨_, ⟨e', hb, he⟩ | ⟨entry, _, he⟩⟩ := ctx.install_cases storage locale
  · rw [he] at h
    cases h
  · rw [he] at h
    cases h
    exact Folder.file_of_build_error hb
  · rw [he] at h
    cases h

/-! ## Forgetting -/

/-- Whether a name can be forgotten: it is installed, and not that of the active table. -/
def CanForget (ctx : Context) (name : String) : Prop :=
  ctx.isLoaded name = true ∧ ctx.activeName ≠ some name

/-- Forgetting a name takes its entry away if it can be forgotten, and changes nothing
otherwise. -/
theorem clear_cases (name : String) :
    (¬ ctx.CanForget name ∧ (ctx.clear name).result = false ∧ (ctx.clear name).context = ctx) ∨
    (ctx.CanForget name ∧ (ctx.clear name).result = true ∧
      (ctx.clear name).context = { ctx with installed := ctx.installed.erase name }) := by
  unfold clear
  split
  · rename_i hactive
    exact Or.inl ⟨fun h => h.2 hactive, rfl, rfl⟩
  · rename_i hactive
    split
    · rename_i hloaded
      exact Or.inr ⟨⟨hloaded, hactive⟩, rfl, rfl⟩
    · rename_i hloaded
      exact Or.inl ⟨fun h => hloaded h.1, rfl, rfl⟩

/-! ## Tables -/

/-- A request changes nothing but what is installed. -/
theorem context_install (locale : String) : ∃ installed,
    (ctx.install storage locale).context = { ctx with installed := installed } := by
  obtain ⟨entry, _, he⟩ | ⟨_, ⟨e, _, he⟩ | ⟨entry, _, he⟩⟩ := ctx.install_cases storage locale
  · rw [he]
    exact ⟨_, rfl⟩
  · rw [he]
    exact ⟨_, rfl⟩
  · rw [he]
    exact ⟨_, rfl⟩

theorem context_setLocale (locale : String) : ∃ installed active,
    (ctx.setLocale storage locale).context =
      { ctx with installed := installed, active := active } := by
  obtain ⟨installed, hcontext⟩ := ctx.context_install storage locale
  simp only [setLocale]
  split
  · exact ⟨installed, ctx.active, hcontext⟩
  · split
    · exact ⟨installed, ctx.active, hcontext⟩
    · rw [hcontext]
      exact ⟨installed, _, rfl⟩

/-- The operations that handle tables change nothing but which are installed and which
is active. -/
theorem context_of_tables {op : Operation} (h : op.handlesTables = true) :
    ∃ installed active, (ctx.perform storage op).context =
      { ctx with installed := installed, active := active } := by
  cases op with
  | init =>
      exact context_setLocale { ctx with installed := OrderedMap.empty, active := none } storage ""
  | setLocale locale => exact ctx.context_setLocale storage locale
  | load locale | table locale =>
      obtain ⟨installed, hcontext⟩ := ctx.context_install storage locale
      exact ⟨installed, ctx.active, hcontext⟩
  | clear name =>
      obtain ⟨_, _, he⟩ | ⟨_, _, he⟩ := ctx.clear_cases name
      · exact ⟨ctx.installed, ctx.active, he⟩
      · exact ⟨ctx.installed.erase name, ctx.active, he⟩
  | _ => cases h

/-! ## Lookups -/

/-- All other operations change nothing but what is remembered of plurals, when they ask
for a form, and of the folder, when they are the first to ask what it holds. -/
theorem context_of_lookup {op : Operation} (h : op.handlesTables = false) :
    ∃ pluralizer available, (ctx.perform storage op).context =
        { ctx with pluralizer := pluralizer, available := available } ∧
      ctx.pluralizer.Asked pluralizer ∧
      (available = ctx.available ∨ ctx.available = none ∧
        available = some (Availability.ofNames (ctx.folder.sourceNames storage))) := by
  cases op with
  | init | load | setLocale | table | clear => cases h
  | get id fallback warn =>
      simp only [perform, Outcome.map, get]
      cases ctx.activeTable <;> exact ⟨_, _, rfl, .nothing, .inl rfl⟩
  | pluralized locale id count mode =>
      simp only [perform, Outcome.map, pluralized]
      cases ctx.activeTable with
      | error e => exact ⟨_, _, rfl, .nothing, .inl rfl⟩
      | ok table => exact ⟨_, _, rfl, .stored table locale id count mode, .inl rfl⟩
  | pluralize locale word count mode =>
      simp only [perform, Outcome.map, pluralize]
      cases ctx.activeTable with
      | error e => exact ⟨_, _, rfl, .nothing, .inl rfl⟩
      | ok table => exact ⟨_, _, rfl, .literal locale word count mode, .inl rfl⟩
  | languages | regions =>
      simp only [perform, Outcome.map, languages, regions, availability]
      cases hknown : ctx.available with
      | some known => exact ⟨_, _, rfl, .nothing, .inl hknown⟩
      | none => exact ⟨_, _, rfl, .nothing, .inr ⟨rfl, rfl⟩⟩
  | _ => exact ⟨_, _, rfl, .nothing, .inl rfl⟩

/-- In particular they leave the tables as they are. -/
theorem tables_of_lookup {op : Operation} (h : op.handlesTables = false) :
    (ctx.perform storage op).context.installed = ctx.installed ∧
      (ctx.perform storage op).context.active = ctx.active := by
  obtain ⟨pluralizer, available, hcontext, -⟩ := ctx.context_of_lookup storage h
  rw [hcontext]
  exact ⟨rfl, rfl⟩

variable {ctx storage}

/-- There is no active table only where none was made active. -/
theorem active_of_activeTable_error {e : Error} (h : ctx.activeTable = .error e) :
    e = .notInitialized ∧ ctx.active = none := by
  unfold activeTable at h
  split at h
  · cases h
  · rename_i hactive
    cases h
    exact ⟨rfl, hactive⟩

/-- Work on the active table fails for want of one, or by itself. -/
theorem active_of_match_error {α : Type} {f : LocaleTable → Outcome (Except Error α)} {e : Error}
    (h : (match ctx.activeTable with
      | .error e => ctx.still (Except.error e)
      | .ok table => f table).result = .error e) :
    (e = .notInitialized ∧ ctx.active = none) ∨ ∃ table, (f table).result = .error e := by
  cases ht : ctx.activeTable with
  | error e' =>
      rw [ht] at h
      cases h
      exact Or.inl (active_of_activeTable_error ht)
  | ok table =>
      rw [ht] at h
      exact Or.inr ⟨table, h⟩

theorem active_of_traversal_error {shallow : Bool} {e : Error}
    (h : ctx.traversal shallow = .error e) : e = .notInitialized ∧ ctx.active = none :=
  active_of_activeTable_error (eq_error_of_map h)

/-- A copy fails without an active table, or because of its depth. -/
theorem error_of_translate {document : Json.Value} {shallow : Bool} {e : Error}
    (h : ctx.translate document shallow = .error e) :
    (e = .notInitialized ∧ ctx.active = none) ∨ ∃ bound, e = .tooDeep bound := by
  unfold translate at h
  cases ht : ctx.traversal shallow with
  | error e' =>
      rw [ht] at h
      cases h
      exact Or.inl (active_of_traversal_error ht)
  | ok run =>
      rw [ht] at h
      exact Or.inr ⟨run.bound, Document.translateAt_error h⟩

/-- A document is its own JSON form, so both ways of copying it agree. -/
theorem translateVia_document (ctx : Context) (document : Json.Value) (shallow : Bool) :
    ctx.translateVia document shallow = ctx.translate document shallow := by
  unfold translateVia translate
  cases ctx.traversal shallow with
  | error e => rfl
  | ok run =>
      change Document.translateVia run document = Document.translate run document
      unfold Document.translateVia
      change (Document.translate run document >>= fun v => Except.ok v) = _
      cases Document.translate run document <;> rfl

/-- A mandatory locale is refused with its own text. -/
theorem error_of_localeArgument {s : String} {e : Error} (h : Plural.localeArgument s = .error e) :
    e = .badLocale s := by
  unfold Plural.localeArgument at h
  split at h <;> cases h
  rfl

theorem error_of_pluralizedString {p : Plural.Pluralizer} {table : LocaleTable}
    {locale id : String} {count : Plural.Count} {mode : Plural.Mode} {e : Error}
    (h : (p.pluralizedString table locale id count mode).answer = .error e) :
    e = .badLocale locale := by
  unfold Plural.Pluralizer.pluralizedString at h
  split at h
  · rename_i e' he
    cases h
    exact error_of_localeArgument he
  · simp only at h
    split at h <;> cases h

theorem error_of_pluralize {p : Plural.Pluralizer}
    {locale word : String} {count : Plural.Count} {mode : Plural.Mode} {e : Error}
    (h : (p.pluralize locale word count mode).answer = .error e) :
    e = .badLocale locale := by
  unfold Plural.Pluralizer.pluralize at h
  split at h
  · rename_i e' he
    cases h
    exact error_of_localeArgument he
  · cases h

/-- A lookup fails for want of an active table, or because of its own arguments. -/
theorem error_of_lookup {op : Operation} (hop : op.handlesTables = false) {e : Error}
    (h : (ctx.perform storage op).result = .error e) :
    (e = .notInitialized ∧ ctx.active = none) ∨ (∃ bound, e = .tooDeep bound) ∨
      ∃ argument, e = .badLocale argument := by
  cases op with
  | init | load | setLocale | table | clear => cases hop
  | isLoaded | loadStats | populate | languages | regions => cases h
  | activeTable => exact Or.inl (active_of_activeTable_error (eq_error_of_map h))
  | has id => exact Or.inl (active_of_activeTable_error (eq_error_of_map (eq_error_of_map h)))
  | template input =>
      exact Or.inl (active_of_activeTable_error (eq_error_of_map (eq_error_of_map h)))
  | get id fallback warn =>
      replace h : (ctx.get id fallback warn).result = .error e := eq_error_of_map h
      unfold get at h
      obtain hnone | ⟨table, ht⟩ := active_of_match_error h
      · exact Or.inl hnone
      · cases ht
  | translate document shallow =>
      exact (error_of_translate (eq_error_of_map h)).imp_right Or.inl
  | translateVia document shallow =>
      replace h : ctx.translateVia document shallow = .error e := eq_error_of_map h
      rw [translateVia_document] at h
      exact (error_of_translate h).imp_right Or.inl
  | pluralized locale id count mode =>
      replace h : (ctx.pluralized locale id count mode).result = .error e := eq_error_of_map h
      unfold pluralized at h
      obtain hnone | ⟨table, ht⟩ := active_of_match_error h
      · exact Or.inl hnone
      · simp only [ofReply] at ht
        exact Or.inr (Or.inr ⟨locale, error_of_pluralizedString ht⟩)
  | pluralize locale word count mode =>
      replace h : (ctx.pluralize locale word count mode).result = .error e := eq_error_of_map h
      unfold pluralize at h
      obtain hnone | ⟨table, ht⟩ := active_of_match_error h
      · exact Or.inl hnone
      · simp only [ofReply] at ht
        exact Or.inr (Or.inr ⟨locale, error_of_pluralize ht⟩)

/-- Only expanding in place answers with a document and an outcome. -/
theorem populate_of_populated {op : Operation} {document : Json.Value}
    {outcome : Except Error Unit}
    (h : (ctx.perform storage op).result = .ok (.populated document outcome)) :
    ∃ input shallow, op = .populate input shallow ∧
      ctx.populate input shallow = (document, outcome) := by
  cases op with
  | populate input shallow =>
      refine ⟨input, shallow, rfl, ?_⟩
      injection h with h
      injection h with hdocument houtcome
      exact Prod.ext hdocument houtcome
  | loadStats name =>
      simp only [perform, still, Except.ok.injEq] at h
      cases hs : ctx.loadStats name <;> rw [hs] at h <;> cases h
  | isLoaded | clear | languages | regions => cases h
  | _ =>
      obtain ⟨_, _, ha⟩ := exists_of_map_eq_ok h
      cases ha

end Context

end Phrasebook
