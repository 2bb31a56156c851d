import Phrasebook.Proofs.Context.Steps
/-!
# Coherence of installed and active tables

The installed tables and the active one are kept apart, and operations change
them in turn, with failures in between. In every context that a history leads to,
each table is installed under its own name and the active table is one of them.
So an activation never misses the table that it has just loaded, and a lookup
finds no table only before the first activation or after a failed start.
-/

namespace Phrasebook

/-- Every table is installed under its own name, with the statistics of its own
load, which count the identifiers that have a text. The active table is installed. -/
structure Context.Coherent (ctx : Context) : Prop where
  named : ∀ name entry, ctx.installed.get? name = some entry →
    entry.table.name = name ∧ entry.stats.locale = name ∧
      entry.table.strings.HasCount entry.stats.totalStrings
  active_installed : ∀ table, ctx.active = some table →
    ∃ entry, ctx.installed.get? table.name = some entry ∧ entry.table = table

namespace Context

variable {ctx : Context} {storage : Storage} {locale : String}

/-- Coherence depends on the tables alone. -/
theorem Coherent.congr {ctx' : Context} (hc : ctx.Coherent)
    (hi : ctx'.installed = ctx.installed) (ha : ctx'.active = ctx.active) : ctx'.Coherent := by
  constructor
  · rw [hi]
    exact hc.named
  · rw [hi, ha]
    exact hc.active_installed

theorem coherent_of_empty (hi : ctx.installed = OrderedMap.empty) (ha : ctx.active = none) :
    ctx.Coherent := by
  constructor
  · intro name entry h
    rw [hi, OrderedMap.get?_empty] at h
    cases h
  · intro table h
    rw [ha] at h
    cases h

/-- A table may be installed under its own name where none is installed yet. -/
theorem Coherent.insert (hc : ctx.Coherent) {name : String} {entry : Installed}
    (hnone : ctx.installed.get? name = none)
    (hentry : entry.table.name = name ∧ entry.stats.locale = name ∧
      entry.table.strings.HasCount entry.stats.totalStrings) :
    Coherent { ctx with installed := ctx.installed.insert name entry } := by
  constructor
  · intro other entry' h
    rw [OrderedMap.get?_insert] at h
    by_cases hname : name = other
    · rw [if_pos hname] at h
      cases h
      exact hname ▸ hentry
    · rw [if_neg hname] at h
      exact hc.named other entry' h
  · intro table ha
    obtain ⟨entry', h, ht⟩ := hc.active_installed table ha
    -- the active table is installed already, so the new name is another one
    have hname : name ≠ table.name := by
      intro hname
      rw [hname, h] at hnone
      cases hnone
    exact ⟨entry', by rw [OrderedMap.get?_insert, if_neg hname, h], ht⟩

/-- A request keeps the tables coherent. -/
theorem Coherent.install (hc : ctx.Coherent) (storage : Storage) (locale : String) :
    (ctx.install storage locale).context.Coherent := by
  obtain ⟨entry, _, he⟩ | ⟨hnone, ⟨e, _, he⟩ | ⟨entry, hb, he⟩⟩ :=
    ctx.install_cases storage locale
  · rw [he]
    exact hc
  · rw [he]
    exact hc
  · rw [he]
    exact hc.insert hnone (Folder.named_of_build hb)

/-- A request leaves the active table alone. -/
theorem active_install (ctx : Context) (storage : Storage) (locale : String) :
    (ctx.install storage locale).context.active = ctx.active := by
  obtain ⟨entry, _, he⟩ | ⟨_, ⟨e, _, he⟩ | ⟨entry, _, he⟩⟩ := ctx.install_cases storage locale
  · rw [he]
    rfl
  · rw [he]
  · rw [he]

/-- What a request answers is installed then. -/
theorem Coherent.get?_install (hc : ctx.Coherent) {entry : Installed}
    (h : (ctx.install storage locale).result = .ok entry) :
    (ctx.install storage locale).context.installed.get? entry.table.name = some entry := by
  obtain ⟨entry', hget, he⟩ | ⟨_, ⟨e, _, he⟩ | ⟨entry', hb, he⟩⟩ :=
    ctx.install_cases storage locale
  · rw [he] at h ⊢
    cases h
    rw [(hc.named _ _ hget).1]
    exact hget
  · rw [he] at h
    cases h
  · rw [he] at h ⊢
    cases h
    rw [(Folder.named_of_build hb).1, OrderedMap.get?_insert, if_pos rfl]

/-- In a coherent context an activation fails with its load, or makes the table
of its request the active one. -/
theorem Coherent.setLocale_cases (hc : ctx.Coherent) (storage : Storage) (locale : String) :
    (∃ e, (ctx.install storage locale).result = .error e ∧
      (ctx.setLocale storage locale).result = .error e ∧
      (ctx.setLocale storage locale).context = (ctx.install storage locale).context) ∨
    ∃ entry, (ctx.install storage locale).result = .ok entry ∧
      (ctx.setLocale storage locale).result = .ok entry.stats ∧
      (ctx.setLocale storage locale).context =
        { (ctx.install storage locale).context with active := some entry.table } := by
  simp only [Context.setLocale]
  cases hr : (ctx.install storage locale).result with
  | error e => exact Or.inl ⟨e, rfl, rfl, rfl⟩
  | ok entry =>
      simp only [hc.get?_install hr]
      exact Or.inr ⟨entry, rfl, rfl, rfl⟩

theorem Coherent.setLocale (hc : ctx.Coherent) (storage : Storage) (locale : String) :
    (ctx.setLocale storage locale).context.Coherent := by
  have hinstall := hc.install storage locale
  obtain ⟨e, _, _, he⟩ | ⟨entry, hr, _, he⟩ := hc.setLocale_cases storage locale
  · rw [he]
    exact hinstall
  · rw [he]
    constructor
    · exact hinstall.named
    · intro table ht
      cases ht
      exact ⟨entry, hc.get?_install hr, rfl⟩

/-- Forgetting a name keeps the tables coherent: the active name is not
forgotten. -/
theorem Coherent.clear (hc : ctx.Coherent) (name : String) : (ctx.clear name).context.Coherent := by
  obtain ⟨_, _, he⟩ | ⟨⟨_, hactive⟩, _, he⟩ := ctx.clear_cases name
  · rw [he]
    exact hc
  · rw [he]
    constructor
    · intro other entry h
      simp only [OrderedMap.get?_erase] at h
      split at h
      · cases h
      · exact hc.named other entry h
    · intro table ht
      obtain ⟨entry, h, he⟩ := hc.active_installed table ht
      have hname : name ≠ table.name := by
        rintro rfl
        exact hactive (congrArg (Option.map LocaleTable.name) ht)
      exact ⟨entry, by simp only [OrderedMap.get?_erase, if_neg hname, h], he⟩

/-- Forgetting a name leaves the active table alone. -/
theorem active_clear (ctx : Context) (name : String) :
    (ctx.clear name).context.active = ctx.active := by
  obtain ⟨_, _, he⟩ | ⟨_, _, he⟩ := ctx.clear_cases name
  · rw [he]
  · rw [he]

/-- Every operation keeps the tables coherent. -/
theorem Coherent.perform (hc : ctx.Coherent) (storage : Storage) (op : Operation) :
    (ctx.perform storage op).context.Coherent := by
  cases hop : op.handlesTables with
  | false =>
      obtain ⟨hi, ha⟩ := ctx.tables_of_lookup storage hop
      exact hc.congr hi ha
  | true =>
      cases op with
      | init => exact (coherent_of_empty rfl rfl).setLocale storage ""
      | load locale => exact hc.install storage locale
      | setLocale locale => exact hc.setLocale storage locale
      | table locale => exact hc.install storage locale
      | clear name => exact hc.clear name
      | _ => cases hop

/-- In a coherent context an activation fails because of a file. -/
theorem Coherent.file_of_setLocale_error (hc : ctx.Coherent) {e : Error}
    (h : (ctx.setLocale storage locale).result = .error e) : e.isOfFile := by
  obtain ⟨e', hi, hr, _⟩ | ⟨entry, _, hr, _⟩ := hc.setLocale_cases storage locale
  · rw [hr] at h
    cases h
    exact file_of_install_error hi
  · rw [hr] at h
    cases h

/-- In a coherent context the operations that handle tables fail because of a
file: no table is missing where it is looked for. -/
theorem Coherent.file_of_error (hc : ctx.Coherent) {op : Operation}
    (hop : op.handlesTables = true) {e : Error} (h : (ctx.perform storage op).result = .error e) :
    e.isOfFile := by
  cases op with
  | init => exact (coherent_of_empty rfl rfl).file_of_setLocale_error (eq_error_of_map h)
  | setLocale locale => exact hc.file_of_setLocale_error (eq_error_of_map h)
  | load locale => exact file_of_install_error (eq_error_of_map (eq_error_of_map h))
  | table locale => exact file_of_install_error (eq_error_of_map (eq_error_of_map h))
  | clear name => cases h
  | _ => cases hop

/-- The system locale may change at any time. -/
theorem Coherent.system (hc : ctx.Coherent) (system : String) :
    Coherent { ctx with system := system } :=
  hc.congr rfl rfl

/-- Every step keeps the tables coherent. -/
theorem Coherent.take (hc : ctx.Coherent) (step : Step) : (ctx.take step).context.Coherent :=
  (hc.system step.system).perform step.storage step.operation

/-- Every history keeps the tables coherent. -/
theorem Coherent.after (hc : ctx.Coherent) (h : History) : (History.after ctx h).Coherent := by
  induction h generalizing ctx with
  | nil => exact hc
  | cons step rest ih => exact ih (hc.take step)

/-- In a coherent context no step fails because a table was not installed. -/
theorem Coherent.take_ne_notLoaded (hc : ctx.Coherent) (step : Step) (name : String) :
    (ctx.take step).result ≠ .error (.notLoaded name) := by
  intro h
  cases hop : step.operation.handlesTables with
  | false =>
      obtain ⟨he, _⟩ | ⟨_, he⟩ | ⟨_, he⟩ := error_of_lookup hop h <;> cases he
  | true =>
      have hfile := (hc.system step.system).file_of_error hop h
      cases hfile

/-- Forgetting a name keeps the active table and its entry, and refuses its name. -/
theorem clear_active {table : LocaleTable} (ht : ctx.active = some table) (name : String) :
    (ctx.clear name).context.active = some table ∧
      (ctx.clear name).context.installed.get? table.name = ctx.installed.get? table.name ∧
      (ctx.clear table.name).result = false := by
  have hname : ctx.activeName = some table.name := by rw [activeName, ht]; rfl
  have hrefused : (ctx.clear table.name).result = false := by
    obtain ⟨_, hr, _⟩ | ⟨⟨_, hother⟩, _, _⟩ := ctx.clear_cases table.name
    · exact hr
    · exact absurd hname hother
  refine ⟨(active_clear ctx name).trans ht, ?_, hrefused⟩
  obtain ⟨_, _, he⟩ | ⟨⟨_, hother⟩, _, he⟩ := ctx.clear_cases name
  · rw [he]
  · have hne : name ≠ table.name := by
      rintro rfl
      exact hother hname
    simp only [he, OrderedMap.get?_erase, if_neg hne]

end Context

end Phrasebook
