import Phrasebook.Proofs.Context.Activation
/-!
# Installed tables are snapshots

A table is built when its name is first asked for, on the sources as they are then,
and it is answered from then on without another look at them, until its name is
cleared or the context is started again. So what is installed after a history is
what its steps added and did not forget again, in the order of the steps. A name is
cleared when it is installed and not that of the active table, and the next load puts
it behind all others.
-/

namespace Phrasebook

/-- The locale that an operation asks a table for. A start asks for the system locale. -/
def Operation.request? : Operation → Option String
  | .init => some ""
  | .load locale | .setLocale locale | .table locale => some locale
  | _ => none

/-- What a request answers from the entry that is installed for it. -/
def Operation.reply (op : Operation) (entry : Installed) : Answer :=
  match op with
  | .table _ => .table entry.table
  | _ => .stats entry.stats

/-- The name under which a step asks for a table: the system locale, if its request
is blank. -/
def Step.name? (step : Step) : Option String :=
  step.operation.request?.map fun locale =>
    if Text.isBlankText locale then step.system else locale

/-- Whether an operation takes its table away from a name. -/
def Performed.forgets (p : Performed) (name : String) : Bool :=
  match p with
  | ⟨.init, _⟩ => true
  | ⟨.clear other, .ok (.flag true)⟩ => other = name
  | _ => false

namespace Context

variable {ctx : Context}

/-! ## Requests -/

/-- The context in which a step makes its request: a start drops all tables first. -/
def base (ctx : Context) (step : Step) : Context :=
  match step.operation with
  | .init => { ctx with system := step.system, installed := OrderedMap.empty, active := none }
  | _ => { ctx with system := step.system }

/-- The entry that a step adds: what is built for a name that is not installed. -/
def addition? (ctx : Context) (step : Step) : Option (String × Installed) :=
  match step.name? with
  | none => none
  | some name =>
    if (ctx.base step).isLoaded name then none
    else
      match (ctx.folder.build step.storage name (LocaleCode.resolve name step.system)).outcome with
      | .error _ => none
      | .ok (table, stats) => some (name, ⟨table, stats⟩)

/-- Only a start drops the tables before its request. -/
theorem installed_base (ctx : Context) {step : Step} (hinit : step.operation ≠ .init) :
    (ctx.base step).installed = ctx.installed := by
  unfold Context.base
  split
  · exact absurd ‹_› hinit
  · rfl

theorem Coherent.base (hc : ctx.Coherent) (step : Step) : (ctx.base step).Coherent := by
  unfold Context.base
  split
  · exact coherent_of_empty rfl rfl
  · exact hc.system step.system

theorem accesses_setLocale (ctx : Context) (storage : Storage) (locale : String) :
    (ctx.setLocale storage locale).accesses = (ctx.install storage locale).accesses := by
  simp only [setLocale]
  split
  · rfl
  · split <;> rfl

/-- In a coherent context a switch answers, installs and asks what its request does. -/
theorem Coherent.setLocale_request (hc : ctx.Coherent) (storage : Storage) (locale : String) :
    (ctx.setLocale storage locale).result =
        (ctx.install storage locale).result.map Installed.stats ∧
      (ctx.setLocale storage locale).context.installed =
        (ctx.install storage locale).context.installed ∧
      (ctx.setLocale storage locale).accesses = (ctx.install storage locale).accesses := by
  refine ⟨?_, ?_, accesses_setLocale ctx storage locale⟩
  · obtain ⟨e, hi, hr, _⟩ | ⟨entry, hi, hr, _⟩ := hc.setLocale_cases storage locale
    · rw [hi, hr]
      rfl
    · rw [hi, hr]
      rfl
  · obtain ⟨e, _, _, he⟩ | ⟨entry, _, _, he⟩ := hc.setLocale_cases storage locale
    · rw [he]
    · rw [he]

/-- A step that asks for a table does what the request does in its base. -/
theorem Coherent.take_request (hc : ctx.Coherent) {step : Step} {locale : String}
    (hreq : step.operation.request? = some locale) :
    (ctx.take step).result =
        ((ctx.base step).install step.storage locale).result.map step.operation.reply ∧
      (ctx.take step).context.installed =
        ((ctx.base step).install step.storage locale).context.installed ∧
      (ctx.take step).accesses = ((ctx.base step).install step.storage locale).accesses := by
  have hmap : ∀ {α : Type} (f : Installed → α) (g : α → Answer) (r : Except Error Installed),
      (r.map f).map g = r.map fun entry => g (f entry) := by
    intro α f g r
    cases r with
    | error e => rfl
    | ok entry => rfl
  obtain ⟨storage, system, op⟩ := step
  have hbase := hc.base ⟨storage, system, op⟩
  cases op with
  | init =>
      cases hreq
      obtain ⟨hr, hi, ha⟩ := hbase.setLocale_request storage ""
      exact ⟨(congrArg (Except.map Answer.stats) hr).trans (hmap _ _ _), hi, ha⟩
  | setLocale locale =>
      cases hreq
      obtain ⟨hr, hi, ha⟩ := hbase.setLocale_request storage locale
      exact ⟨(congrArg (Except.map Answer.stats) hr).trans (hmap _ _ _), hi, ha⟩
  | load locale =>
      cases hreq
      exact ⟨hmap Installed.stats Answer.stats _, rfl, rfl⟩
  | table locale =>
      cases hreq
      exact ⟨hmap Installed.table Answer.table _, rfl, rfl⟩
  | _ => cases hreq

/-- A step that asks for a table is answered by the installed one and asks nothing;
or it builds one, which fails and changes nothing, or which it installs and answers. -/
theorem Coherent.take_cases (hc : ctx.Coherent) {step : Step} {name : String}
    (hname : step.name? = some name) :
    (∃ entry, (ctx.base step).installed.get? name = some entry ∧
      (ctx.take step).result = .ok (step.operation.reply entry) ∧
      (ctx.take step).context.installed = (ctx.base step).installed ∧
      (ctx.take step).accesses = []) ∨
    (ctx.base step).installed.get? name = none ∧
      ((∃ e, (ctx.folder.build step.storage name
          (LocaleCode.resolve name step.system)).outcome = .error e ∧
        (ctx.take step).result = .error e ∧
        (ctx.take step).context.installed = (ctx.base step).installed) ∨
      ∃ entry : Installed, (ctx.folder.build step.storage name
          (LocaleCode.resolve name step.system)).outcome = .ok (entry.table, entry.stats) ∧
        (ctx.take step).result = .ok (step.operation.reply entry) ∧
        (ctx.take step).context.installed = (ctx.base step).installed.insert name entry) := by
  obtain ⟨locale, hreq, hlocale⟩ := Option.map_eq_some_iff.mp hname
  obtain ⟨hresult, hinstalled, haccesses⟩ := hc.take_request hreq
  have hsystem : (ctx.base step).system = step.system := by
    unfold Context.base
    split <;> rfl
  have hfolder : (ctx.base step).folder = ctx.folder := by
    unfold Context.base
    split <;> rfl
  have hnameOf : (ctx.base step).nameOf locale = name := by
    rw [nameOf, hsystem]
    exact hlocale
  have hbuild : (ctx.base step).buildFor step.storage locale =
      ctx.folder.build step.storage name (LocaleCode.resolve name step.system) := by
    rw [buildFor, hnameOf, hsystem, hfolder]
  have hcases := (ctx.base step).install_cases step.storage locale
  rw [hnameOf, hbuild] at hcases
  rw [hresult, hinstalled, haccesses]
  obtain ⟨entry, hget, he⟩ | ⟨hnone, ⟨e, hb, he⟩ | ⟨entry, hb, he⟩⟩ := hcases
  · rw [he]
    exact Or.inl ⟨entry, hget, rfl, rfl, rfl⟩
  · rw [he]
    exact Or.inr ⟨hnone, Or.inl ⟨e, hb, rfl, rfl⟩⟩
  · rw [he]
    exact Or.inr ⟨hnone, Or.inr ⟨entry, hb, rfl, rfl⟩⟩

/-! ## What a step keeps and adds -/

/-- No operation changes the configuration. -/
theorem config_take (ctx : Context) (step : Step) :
    (ctx.take step).context.config = ctx.config := by
  obtain ⟨storage, system, op⟩ := step
  cases hop : op.handlesTables with
  | false =>
      obtain ⟨pluralizer, available, hcontext, -⟩ :=
        context_of_lookup { ctx with system := system } storage hop
      rw [take, hcontext]
  | true =>
      obtain ⟨installed, active, hcontext⟩ :=
        context_of_tables { ctx with system := system } storage hop
      rw [take, hcontext]

theorem folder_take (ctx : Context) (step : Step) :
    (ctx.take step).context.folder = ctx.folder := by
  rw [folder, folder, config_take]

theorem folder_after (ctx : Context) (h : History) : (History.after ctx h).folder = ctx.folder := by
  induction h generalizing ctx with
  | nil => rfl
  | cons step h ih => exact (ih (ctx.take step).context).trans (ctx.folder_take step)

/-- The entries that a step does not forget, in their order. -/
def kept (ctx : Context) (step : Step) : List (String × Installed) :=
  ctx.installed.entries.filter fun entry => !(ctx.performed step).forgets entry.1

/-- A step makes its request where nothing is installed but what it keeps. -/
theorem entries_base (ctx : Context) {step : Step} {name : String}
    (hname : step.name? = some name) : (ctx.base step).installed.entries = ctx.kept step := by
  obtain ⟨storage, system, op⟩ := step
  cases op with
  | init =>
      have hforgets : ∀ other, (ctx.performed ⟨storage, system, .init⟩).forgets other = true :=
        fun _ => rfl
      simp [kept, hforgets, base, OrderedMap.empty]
  | load locale | setLocale locale | table locale =>
      symm
      exact List.filter_eq_self.mpr fun _ _ => rfl
  | _ => cases hname

/-- A step that asks for no table keeps all entries, but for a name that it clears. -/
theorem entries_take_other (ctx : Context) {step : Step} (hname : step.name? = none) :
    (ctx.take step).context.installed.entries = ctx.kept step := by
  obtain ⟨storage, system, op⟩ := step
  cases op with
  | init | load | setLocale | table => cases hname
  | clear name =>
      simp only [kept, performed, take, perform, Outcome.map]
      obtain ⟨_, hr, he⟩ | ⟨_, hr, he⟩ := clear_cases { ctx with system := system } name
      · rw [hr, he]
        exact (List.filter_eq_self.mpr fun _ _ => rfl).symm
      · rw [hr, he, OrderedMap.entries_erase]
        congr
        funext entry
        simp only [Performed.forgets, ne_eq, decide_not, eq_comm]
  | _ =>
      rw [take, (tables_of_lookup _ _ rfl).1]
      exact (List.filter_eq_self.mpr fun _ _ => rfl).symm

/-- Every step keeps the order of what it does not forget, and puts what it adds at
the end. -/
theorem Coherent.entries_take (hc : ctx.Coherent) (step : Step) :
    (ctx.take step).context.installed.entries = ctx.kept step ++ (ctx.addition? step).toList := by
  cases hname : step.name? with
  | none =>
      rw [ctx.entries_take_other hname, addition?, hname]
      exact (List.append_nil _).symm
  | some name =>
      rw [← ctx.entries_base hname, addition?, hname]
      obtain ⟨entry, hget, _, hi, _⟩ | ⟨hnone, ⟨e, hb, _, hi⟩ | ⟨entry, hb, _, hi⟩⟩ :=
        hc.take_cases hname
      · simp [isLoaded, OrderedMap.contains, hget, hi]
      · simp [isLoaded, OrderedMap.contains, hnone, hb, hi]
      · simp [isLoaded, OrderedMap.contains, hnone, hb, hi, OrderedMap.entries_insert hnone]

theorem isLoaded_iff {name : String} : ctx.isLoaded name = true ↔ name ∈ ctx.installedNames :=
  OrderedMap.contains_iff_mem_keys

/-- The names that a step does not forget stay in their order, and the name that it adds
comes last. -/
theorem Coherent.installedNames_take (hc : ctx.Coherent) (step : Step) :
    (ctx.take step).context.installedNames =
      ctx.installedNames.filter (fun name => !(ctx.performed step).forgets name) ++
        ((ctx.addition? step).map Prod.fst).toList := by
  have hstep := congrArg (List.map Prod.fst) (hc.entries_take step)
  rw [List.map_append, kept] at hstep
  refine hstep.trans ?_
  rw [installedNames, OrderedMap.keys, List.filter_map]
  congr 1
  cases ctx.addition? step with
  | none => rfl
  | some entry => rfl

/-- A step that clears a name answers whether it can be forgotten. Then it is gone and
the others stay in their order; otherwise nothing changes. -/
theorem Coherent.take_clear (hc : ctx.Coherent) {step : Step} {name : String}
    (hop : step.operation = .clear name) :
    (ctx.CanForget name → (ctx.take step).result = .ok (.flag true) ∧
      (ctx.take step).context.installedNames = ctx.installedNames.filter (· ≠ name)) ∧
    (¬ ctx.CanForget name → (ctx.take step).result = .ok (.flag false) ∧
      (ctx.take step).context.installed = ctx.installed) := by
  have hnames := hc.installedNames_take step
  have hadds : ctx.addition? step = none := by
    simp [addition?, Step.name?, Operation.request?, hop]
  rw [hadds, Option.map_none, Option.toList_none, List.append_nil] at hnames
  have hresult : (ctx.take step).result =
      .ok (.flag (Context.clear { ctx with system := step.system } name).result) := by
    rw [Context.take, hop]
    rfl
  have hcontext : (ctx.take step).context =
      (Context.clear { ctx with system := step.system } name).context := by
    rw [Context.take, hop]
    rfl
  obtain ⟨hcannot, hr, he⟩ | ⟨hcan, hr, _⟩ := clear_cases { ctx with system := step.system } name
  · rw [hr] at hresult
    rw [he] at hcontext
    exact ⟨fun hcan => absurd hcan hcannot, fun _ => ⟨hresult, by rw [hcontext]⟩⟩
  · rw [hr] at hresult
    refine ⟨fun _ => ⟨hresult, hnames.trans ?_⟩, fun hcannot => absurd hcan hcannot⟩
    apply List.filter_congr
    intro other _
    simp [Performed.forgets, performed, hop, hresult, eq_comm]

/-- A request for a name that is not installed builds its table, which fails and changes
nothing, or puts the name behind all others. -/
theorem Coherent.take_of_not_installed (hc : ctx.Coherent) {step : Step} {name : String}
    (hname : step.name? = some name) (hinit : step.operation ≠ .init)
    (hnew : name ∉ ctx.installedNames) :
    match (ctx.folder.build step.storage name (LocaleCode.resolve name step.system)).outcome with
    | .error e => (ctx.take step).result = .error e ∧
        (ctx.take step).context.installed = ctx.installed
    | .ok (table, stats) => (ctx.take step).result = .ok (step.operation.reply ⟨table, stats⟩) ∧
        (ctx.take step).context.installedNames = ctx.installedNames ++ [name] := by
  have hbase := ctx.installed_base hinit
  have hnone : ctx.installed.get? name = none := by
    rw [← isLoaded_iff, isLoaded, OrderedMap.contains, Option.isSome_iff_ne_none] at hnew
    exact not_not.mp hnew
  obtain ⟨entry, hget, _⟩ | ⟨_, ⟨e, hb, hr, hi⟩ | ⟨entry, hb, hr, hi⟩⟩ := hc.take_cases hname
  · rw [hbase, hnone] at hget
    cases hget
  · rw [hbase] at hi
    rw [hb]
    exact ⟨hr, hi⟩
  · rw [hbase] at hi
    rw [hb]
    refine ⟨hr, ?_⟩
    rw [installedNames, hi, OrderedMap.keys, OrderedMap.entries_insert hnone, List.map_append]
    rfl

/-! ## Histories -/

/-- The entries that the steps of a history add and no later step forgets, oldest
first. -/
def standing (ctx : Context) : History → List (String × Installed)
  | [] => []
  | step :: rest =>
    let next := (ctx.take step).context
    (ctx.addition? step).toList.filter
      (fun entry => !(next.record rest).any (·.forgets entry.1)) ++ next.standing rest

/-- What is installed after a history was installed before it and is not forgotten,
or it was added in it. -/
theorem Coherent.entries_after (hc : ctx.Coherent) (h : History) :
    (History.after ctx h).installed.entries =
      ctx.installed.entries.filter (fun entry => !(ctx.record h).any (·.forgets entry.1)) ++
        ctx.standing h := by
  induction h generalizing ctx with
  | nil => exact ((List.append_nil _).trans (List.filter_eq_self.mpr fun _ _ => rfl)).symm
  | cons step h ih =>
      refine (ih (hc.take step)).trans ?_
      rw [hc.entries_take step, List.filter_append, List.append_assoc, kept, List.filter_filter,
        record_cons]
      simp only [List.any_cons, Bool.not_or, Bool.and_comm]
      rfl

/-- Every standing entry goes back to the step that added it. -/
theorem exists_of_mem_standing {h : History} {entry : String × Installed}
    (hmem : entry ∈ ctx.standing h) :
    ∃ before step later, h = before ++ step :: later ∧
      (History.after ctx before).addition? step = some entry ∧
      ∀ p ∈ ((History.after ctx before).take step).context.record later,
        p.forgets entry.1 = false := by
  induction h generalizing ctx with
  | nil => cases hmem
  | cons step h ih =>
      obtain hadded | hmem := List.mem_append.mp hmem
      · obtain ⟨hadded, hkept⟩ := List.mem_filter.mp hadded
        have hnever : ∀ p ∈ (ctx.take step).context.record h, p.forgets entry.1 = false := by
          simpa using hkept
        exact ⟨[], step, h, rfl, Option.mem_toList.mp hadded, hnever⟩
      · obtain ⟨before, step', later, rfl, hadded, hkept⟩ := ih hmem
        exact ⟨step :: before, step', later, rfl, hadded, hkept⟩

/-- A step adds what it builds for a name that is not installed, and answers it. -/
theorem Coherent.of_addition? (hc : ctx.Coherent) {step : Step} {name : String}
    {entry : Installed} (h : ctx.addition? step = some (name, entry)) :
    step.name? = some name ∧ (ctx.base step).isLoaded name = false ∧
      (ctx.folder.build step.storage name (LocaleCode.resolve name step.system)).outcome =
        .ok (entry.table, entry.stats) ∧
      (ctx.take step).result = .ok (step.operation.reply entry) := by
  unfold addition? at h
  cases hname : step.name? with
  | none =>
      rw [hname] at h
      cases h
  | some other =>
      rw [hname] at h
      obtain ⟨entry', hget, _⟩ | ⟨hnone, ⟨e, hb, _⟩ | ⟨entry', hb, hr, _⟩⟩ := hc.take_cases hname
      · simp [isLoaded, OrderedMap.contains, hget] at h
      · simp [isLoaded, OrderedMap.contains, hnone, hb] at h
      · simp only [isLoaded, OrderedMap.contains, hnone, hb, Option.isSome_none,
          Bool.false_eq_true, if_false, Option.some.injEq, Prod.mk.injEq] at h
        obtain ⟨rfl, rfl⟩ := h
        exact ⟨rfl, by simp [isLoaded, OrderedMap.contains, hnone], hb, hr⟩

/-- A name is not installed where nobody asks for it. -/
theorem Coherent.not_mem_installedNames_after (hc : ctx.Coherent) {name : String}
    (hnew : name ∉ ctx.installedNames) {h : History}
    (hother : ∀ step ∈ h, step.name? ≠ some name) :
    name ∉ (History.after ctx h).installedNames := by
  induction h generalizing ctx with
  | nil => exact hnew
  | cons step h ih =>
      refine ih (hc.take step) ?_ fun other hmem => hother other (List.mem_cons_of_mem _ hmem)
      rw [hc.installedNames_take step, List.mem_append, not_or]
      constructor
      · exact fun hmem => hnew (List.mem_filter.mp hmem).1
      · intro hmem
        obtain ⟨⟨added, entry⟩, hadded, rfl⟩ :=
          Option.map_eq_some_iff.mp (Option.mem_toList.mp hmem)
        exact hother step List.mem_cons_self (hc.of_addition? hadded).1

/-- An installed entry stays until it is forgotten. -/
theorem Coherent.get?_after (hc : ctx.Coherent) {name : String} {entry : Installed}
    (hget : ctx.installed.get? name = some entry) {h : History}
    (hkept : ∀ p ∈ ctx.record h, p.forgets name = false) :
    (History.after ctx h).installed.get? name = some entry := by
  rw [OrderedMap.get?_eq_some_iff] at hget ⊢
  rw [hc.entries_after h]
  apply List.mem_append_left
  refine List.mem_filter.mpr ⟨hget, ?_⟩
  simpa using hkept

/-- A request for an installed name answers the installed entry and asks nothing of
the storage. -/
theorem Coherent.take_of_installed (hc : ctx.Coherent) {step : Step} {name : String}
    {entry : Installed} (hget : ctx.installed.get? name = some entry)
    (hname : step.name? = some name) (hinit : step.operation ≠ .init) :
    (ctx.take step).result = .ok (step.operation.reply entry) ∧ (ctx.take step).accesses = [] := by
  have hbase := ctx.installed_base hinit
  obtain ⟨entry', hget', hr, _, ha⟩ | ⟨hnone, _⟩ := hc.take_cases hname
  · rw [hbase, hget] at hget'
    cases hget'
    exact ⟨hr, ha⟩
  · rw [hbase, hget] at hnone
    cases hnone

/-- Whatever is asked of a new context, while sources and system locale change:
each installed entry was built for its name on the sources as they were at the step
that installed it, and has not been forgotten since; every later request for the
name answers it without a question to the storage, until it is forgotten; and the
entries stand in the order in which they were installed, as a step keeps the order
of what it does not forget and puts at the end what it adds. Clearing forgets a name
just when it is installed and not that of the active table, and a request for a name
that is not installed puts it at the end, also when it was cleared before. -/
theorem installed_history (config : Config) (environment : String → Option String)
    (pluralizer : Plural.Pluralizer) (h : History) :
    let origin := fresh config environment pluralizer
    let ctx := History.after origin h
    (∀ name entry, ctx.installed.get? name = some entry →
      (∃ before step later, h = before ++ step :: later ∧ step.name? = some name ∧
        (step.operation = .init ∨ (History.after origin before).isLoaded name = false) ∧
        (Folder.build ⟨config.folder⟩ step.storage name
          (LocaleCode.resolve name step.system)).outcome = .ok (entry.table, entry.stats) ∧
        ((History.after origin before).take step).result = .ok (step.operation.reply entry) ∧
        ∀ p ∈ ((History.after origin before).take step).context.record later,
          p.forgets name = false) ∧
      ∀ later step, (∀ p ∈ ctx.record later, p.forgets name = false) →
        step.name? = some name → step.operation ≠ .init →
        ((History.after ctx later).take step).result = .ok (step.operation.reply entry) ∧
        ((History.after ctx later).take step).accesses = []) ∧
    ctx.installed.entries = origin.standing h ∧
    (∀ step, (ctx.take step).context.installedNames =
      ctx.installedNames.filter (fun name => !(ctx.performed step).forgets name) ++
        ((ctx.addition? step).map Prod.fst).toList) ∧
    (∀ step name, step.operation = .clear name →
      (name ∈ ctx.installedNames ∧ ctx.activeName ≠ some name →
        (ctx.take step).result = .ok (.flag true) ∧
        (ctx.take step).context.installedNames = ctx.installedNames.filter (· ≠ name) ∧
        ∀ later again answer, (∀ other ∈ later, other.name? ≠ some name) →
          again.name? = some name → again.operation ≠ .init →
          let before := History.after (ctx.take step).context later
          (before.take again).result = .ok answer →
          (before.take again).context.installedNames = before.installedNames ++ [name]) ∧
      (¬ (name ∈ ctx.installedNames ∧ ctx.activeName ≠ some name) →
        (ctx.take step).result = .ok (.flag false) ∧
        (ctx.take step).context.installed = ctx.installed)) ∧
    ∀ step name, step.name? = some name → step.operation ≠ .init → name ∉ ctx.installedNames →
      match (Folder.build ⟨config.folder⟩ step.storage name
          (LocaleCode.resolve name step.system)).outcome with
      | .error e => (ctx.take step).result = .error e ∧
          (ctx.take step).context.installed = ctx.installed
      | .ok (table, stats) => (ctx.take step).result = .ok (step.operation.reply ⟨table, stats⟩) ∧
          (ctx.take step).context.installedNames = ctx.installedNames ++ [name] := by
  intro origin ctx
  have horigin : origin.Coherent := coherent_fresh config environment pluralizer
  have hc : ctx.Coherent := horigin.after h
  have hentries : ctx.installed.entries = origin.standing h := horigin.entries_after h
  refine ⟨?_, hentries, hc.installedNames_take, ?_, ?_⟩
  · intro name entry hget
    constructor
    · have hmem : (name, entry) ∈ origin.standing h := by
        rw [← hentries]
        exact OrderedMap.get?_eq_some_iff.mp hget
      obtain ⟨before, step, later, rfl, hadded, hkept⟩ := exists_of_mem_standing hmem
      obtain ⟨hname, hbase, hb, hr⟩ := (horigin.after before).of_addition? hadded
      rw [folder_after] at hb
      refine ⟨before, step, later, rfl, hname, ?_, hb, hr, hkept⟩
      -- a start makes its request where nothing is installed
      unfold Context.base at hbase
      split at hbase
      · exact Or.inl ‹_›
      · exact Or.inr hbase
    · intro later step hkept hname hinit
      exact (hc.after later).take_of_installed (hc.get?_after hget hkept) hname hinit
  · intro step name hop
    obtain ⟨hcan, hcannot⟩ := hc.take_clear hop
    rw [CanForget, isLoaded_iff] at hcan hcannot
    refine ⟨fun hforget => ?_, hcannot⟩
    obtain ⟨hresult, hnames⟩ := hcan hforget
    refine ⟨hresult, hnames, ?_⟩
    intro later again answer hlater hname hinit before hanswer
    have hgone : name ∉ (ctx.take step).context.installedNames := by
      rw [hnames]
      simp
    have habsent := (hc.take step).not_mem_installedNames_after hgone hlater
    have hagain := ((hc.take step).after later).take_of_not_installed hname hinit habsent
    split at hagain
    · rw [hanswer] at hagain
      cases hagain.1
    · exact hagain.2
  · intro step name hname hinit hnew
    have hstep := hc.take_of_not_installed hname hinit hnew
    rw [folder_after] at hstep
    exact hstep

/-- A table loaded as "fr" answers a blank request in a system of that locale, when
its source has changed and another locale was loaded in between. When the name is
cleared and loaded again, it has the new text and stands behind all others. -/
theorem installed_history_stale :
    let memory := Memory.empty ⟨"."⟩
    let old := (memory.write "i18n/fr.json" (.ok "\x7b\"a\": \"1\"\x7d")).storage
    let edited := (memory.write "i18n/fr.json" (.ok "\x7b\"a\": \"2\"\x7d")).storage
    let origin := fresh {} (fun _ => none) Plural.Pluralizer.default
    let ctx := History.after origin [⟨old, "en", .load "fr"⟩]
    let other : Step := ⟨edited, "en", .load "de"⟩
    let again : Step := ⟨edited, "fr", .table " "⟩
    let both := History.after origin [⟨old, "en", .load "fr"⟩, other]
    let clear : Step := ⟨edited, "en", .clear "fr"⟩
    let cleared := (both.take clear).context
    let later : History := [⟨edited, "en", .load "es"⟩]
    let reloaded := ((History.after cleared later).take again).context
    (∃ entry, ctx.installed.get? "fr" = some entry ∧ entry.table.get? "a" = some "1" ∧
      ((History.after ctx [other]).take again).result = .ok (.table entry.table) ∧
      ((History.after ctx [other]).take again).accesses = []) ∧
    both.installedNames = ["fr", "de"] ∧ (both.take clear).result = .ok (.flag true) ∧
    cleared.installedNames = ["de"] ∧ reloaded.installedNames = ["de", "es", "fr"] ∧
    (reloaded.installed.get? "fr").bind (fun entry => entry.table.get? "a") = some "2" := by
  intro memory old edited origin ctx other again both clear cleared later reloaded
  obtain ⟨hsnapshot, _⟩ := installed_history {} (fun _ => none) Plural.Pluralizer.default
    [⟨old, "en", .load "fr"⟩]
  obtain ⟨_, _, _, hclear, _⟩ := installed_history {} (fun _ => none) Plural.Pluralizer.default
    [⟨old, "en", .load "fr"⟩, other]
  have hinit : again.operation ≠ .init := fun h => by cases h
  have hnames : both.installedNames = ["fr", "de"] := by decide +kernel
  have hforget : "fr" ∈ both.installedNames ∧ both.activeName ≠ some "fr" := by decide +kernel
  obtain ⟨hresult, hgone, hlast⟩ := (hclear clear "fr" rfl).1 hforget
  refine ⟨?_, hnames, hresult, ?_, ?_, by decide +kernel⟩
  · have htext : (ctx.installed.get? "fr").bind (fun entry => entry.table.get? "a") = some "1" := by
      decide +kernel
    obtain ⟨entry, hget, ha⟩ := Option.bind_eq_some_iff.mp htext
    have hkept : ∀ p ∈ ctx.record [other], p.forgets "fr" = false := by
      intro p hp
      rw [record_cons] at hp
      obtain rfl := List.mem_singleton.mp hp
      rfl
    obtain ⟨hresult, haccesses⟩ := (hsnapshot "fr" entry hget).2 [other] again hkept rfl hinit
    exact ⟨entry, hget, ha, hresult, haccesses⟩
  · calc
      _ = both.installedNames.filter (· ≠ "fr") := hgone
      _ = ["de"] := by rw [hnames]; rfl
  · have hother : ∀ step ∈ later, step.name? ≠ some "fr" := by
      intro step hstep
      obtain rfl := List.mem_singleton.mp hstep
      decide
    have hloaded : ((History.after cleared later).take again).result.toOption.any
        (fun _ => true) = true := by
      decide +kernel
    obtain ⟨answer, hanswer, -⟩ := exists_of_any_toOption hloaded
    have hbefore : (History.after cleared later).installedNames = ["de", "es"] := by
      decide +kernel
    calc
      _ = (History.after cleared later).installedNames ++ ["fr"] :=
        hlast later again answer hother rfl hinit hanswer
      _ = ["de", "es", "fr"] := by rw [hbefore]; rfl

end Context

end Phrasebook
