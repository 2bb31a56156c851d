import Phrasebook.Proofs.Context.Activation
/-!
# Failures leave no trace

A failure is seen in its answer and nowhere else. Whether a source stopped a load,
a switch went wrong after its load, or a plural was asked for in no locale at all:
the context is as it was before, so a history from which such steps are taken out
shows of all others what it showed before. Only a failed start has an effect, and
that is to leave nothing behind.
-/

namespace Phrasebook

/-- A step with all that is seen of it. -/
structure Observed where
  step : Step
  result : Except Error Answer
  /-- The warnings, and the questions to the plural service. -/
  events : List Event
  /-- The questions to the storage. -/
  accesses : List Access

namespace Observed

/-- Whether the answer is an error. Expanding a document in place answers with the
document beside it. -/
def failed (o : Observed) : Bool :=
  match o.result with
  | .error _ | .ok (.populated _ (.error _)) => true
  | _ => false

/-- Failures of all operations but a start. -/
def Erasable (o : Observed) : Prop := o.step.operation ≠ .init ∧ o.failed

theorem cases_of_failed {o : Observed} (h : o.failed) :
    (∃ e, o.result = .error e) ∨ ∃ document e, o.result = .ok (.populated document (.error e)) := by
  unfold failed at h
  split at h
  · exact Or.inl ⟨_, ‹_›⟩
  · exact Or.inr ⟨_, _, ‹_›⟩
  · cases h

end Observed

/-- A list without some of its elements, all of which satisfy `p`. -/
inductive Thinned {α : Type} (p : α → Prop) : List α → List α → Prop
  | nil : Thinned p [] []
  | keep (a : α) {l rest : List α} : Thinned p l rest → Thinned p (a :: l) (a :: rest)
  | drop {a : α} {l rest : List α} : p a → Thinned p l rest → Thinned p (a :: l) rest

theorem Performed.cases_of_failedStart {p : Performed} (h : p.failedStart) :
    p.operation = .init ∧ ∃ e, p.result = .error e := by
  unfold failedStart at h
  split at h
  · exact ⟨rfl, _, rfl⟩
  · cases h

namespace Context

variable {ctx : Context} {storage : Storage}

/-! ## One step -/

/-- A plural that fails is refused before its language is looked up. -/
theorem pluralizer_of_pluralizedString_error {p : Plural.Pluralizer} {table : LocaleTable}
    {locale id : String} {count : Plural.Count} {mode : Plural.Mode} {e : Error}
    (h : (p.pluralizedString table locale id count mode).answer = .error e) :
    (p.pluralizedString table locale id count mode).pluralizer = p := by
  unfold Plural.Pluralizer.pluralizedString at h ⊢
  split at h
  · rfl
  · simp only at h
    split at h <;> cases h

theorem pluralizer_of_pluralize_error {p : Plural.Pluralizer} {locale word : String}
    {count : Plural.Count} {mode : Plural.Mode} {e : Error}
    (h : (p.pluralize locale word count mode).answer = .error e) :
    (p.pluralize locale word count mode).pluralizer = p := by
  unfold Plural.Pluralizer.pluralize at h ⊢
  split at h
  · rfl
  · cases h

/-- A lookup that fails leaves the context as it is. -/
theorem context_of_lookup_error {op : Operation} (hop : op.handlesTables = false) {e : Error}
    (h : (ctx.perform storage op).result = .error e) :
    (ctx.perform storage op).context = ctx := by
  cases op with
  | init | load | setLocale | table | clear => cases hop
  | languages | regions => cases h
  | get id fallback warn =>
      simp only [perform, Outcome.map, get]
      cases ctx.activeTable <;> rfl
  | pluralized locale id count mode =>
      replace h : (ctx.pluralized locale id count mode).result = .error e := eq_error_of_map h
      simp only [perform, Outcome.map]
      unfold pluralized at h ⊢
      cases ht : ctx.activeTable with
      | error e' => rfl
      | ok table =>
          rw [ht] at h
          simp only [ofReply] at h ⊢
          rw [pluralizer_of_pluralizedString_error h]
  | pluralize locale word count mode =>
      replace h : (ctx.pluralize locale word count mode).result = .error e := eq_error_of_map h
      simp only [perform, Outcome.map]
      unfold pluralize at h ⊢
      cases ht : ctx.activeTable with
      | error e' => rfl
      | ok table =>
          rw [ht] at h
          simp only [ofReply] at h ⊢
          rw [pluralizer_of_pluralize_error h]
  | _ => rfl

/-- A request that fails leaves the context as it is. -/
theorem context_of_install_error {locale : String} {e : Error}
    (h : (ctx.install storage locale).result = .error e) :
    (ctx.install storage locale).context = ctx := by
  obtain ⟨entry, _, he⟩ | ⟨_, ⟨e', _, he⟩ | ⟨entry, _, he⟩⟩ := ctx.install_cases storage locale
  · rw [he] at h
    cases h
  · rw [he]
  · rw [he] at h
    cases h

/-- In a coherent context a switch that fails leaves the context as it is. -/
theorem Coherent.context_of_setLocale_error (hc : ctx.Coherent) {locale : String} {e : Error}
    (h : (ctx.setLocale storage locale).result = .error e) :
    (ctx.setLocale storage locale).context = ctx := by
  obtain ⟨e', hi, _, he⟩ | ⟨entry, _, hr, _⟩ := hc.setLocale_cases storage locale
  · rw [he]
    exact context_of_install_error hi
  · rw [hr] at h
    cases h

/-- In a coherent context every operation but a start leaves the context as it is
when it fails. -/
theorem Coherent.context_of_error (hc : ctx.Coherent) {op : Operation} (hinit : op ≠ .init)
    {e : Error} (h : (ctx.perform storage op).result = .error e) :
    (ctx.perform storage op).context = ctx := by
  cases hop : op.handlesTables with
  | false => exact context_of_lookup_error hop h
  | true =>
      cases op with
      | init => exact absurd rfl hinit
      | load locale => exact context_of_install_error (eq_error_of_map (eq_error_of_map h))
      | table locale => exact context_of_install_error (eq_error_of_map (eq_error_of_map h))
      | setLocale locale => exact hc.context_of_setLocale_error (eq_error_of_map h)
      | clear name => cases h
      | _ => cases hop

/-- A step with all that is seen of it in a context. -/
def observed (ctx : Context) (step : Step) : Observed :=
  ⟨step, (ctx.take step).result, (ctx.take step).events, (ctx.take step).accesses⟩

/-- In a coherent context a step that fails only takes note of the system locale,
unless it is a start. -/
theorem Coherent.context_of_erasable (hc : ctx.Coherent) {step : Step}
    (h : (ctx.observed step).Erasable) :
    (ctx.take step).context = { ctx with system := step.system } := by
  obtain ⟨hinit, hfailed⟩ := h
  obtain ⟨e, he⟩ | ⟨document, e, he⟩ := Observed.cases_of_failed hfailed
  · exact (hc.system step.system).context_of_error hinit he
  · -- expanding in place has no context to change
    obtain ⟨input, shallow, hop, _⟩ := populate_of_populated he
    rw [Context.take, hop]
    rfl

/-- A start that fails leaves nothing installed and nothing active. -/
theorem tables_of_failedStart {step : Step} (h : (ctx.performed step).failedStart) :
    (ctx.take step).context.installed = OrderedMap.empty ∧
      (ctx.take step).context.active = none := by
  obtain ⟨storage, system, op⟩ := step
  obtain ⟨hop, e, he⟩ := Performed.cases_of_failedStart h
  obtain rfl : op = .init := hop
  have hempty : Coherent { ctx with
      system := system, installed := OrderedMap.empty, active := none } :=
    coherent_of_empty rfl rfl
  have hcontext := hempty.context_of_setLocale_error (eq_error_of_map he)
  constructor
  · exact congrArg installed hcontext
  · exact congrArg active hcontext

/-! ## Histories -/

/-- The steps of a history with all that is seen of them. -/
def transcript (ctx : Context) (h : History) : List Observed :=
  List.zipWith (fun step out => ⟨step, out.result, out.events, out.accesses⟩) h
    (History.outcomes ctx h)

@[simp] theorem transcript_nil (ctx : Context) : ctx.transcript [] = [] := rfl

@[simp] theorem transcript_cons (ctx : Context) (step : Step) (h : History) :
    ctx.transcript (step :: h) = ctx.observed step :: (ctx.take step).context.transcript h :=
  rfl

/-- Every step comes with its own system locale. -/
theorem transcript_system (ctx : Context) (system : String) (h : History) :
    transcript { ctx with system := system } h = ctx.transcript h := by
  cases h with
  | nil => rfl
  | cons step h => rfl

/-- What is left of a transcript without some failures is the transcript of the
steps that are left. -/
theorem Coherent.transcript_thinned (hc : ctx.Coherent) {h : History} {rest : List Observed}
    (ht : Thinned Observed.Erasable (ctx.transcript h) rest) :
    ctx.transcript (rest.map Observed.step) = rest := by
  induction h generalizing ctx rest with
  | nil =>
      cases ht
      rfl
  | cons step h ih =>
      rw [transcript_cons] at ht
      cases ht with
      | @keep _ _ rest ht =>
          change ctx.transcript (step :: rest.map Observed.step) = _
          rw [transcript_cons, ih (hc.take step) ht]
      | drop herasable ht =>
          -- the later steps see the context as it was before the failure
          have hrest := ih (hc.take step) ht
          rw [hc.context_of_erasable herasable, transcript_system] at hrest
          exact hrest

/-- Whatever is asked of a new context, while sources and system locale change:
any failures of operations other than a start can be taken out of the history, and
all other operations show the same answers, warnings and accesses as before. A
start that fails leaves nothing installed and nothing active. -/
theorem transcript_erased (config : Config) (environment : String → Option String)
    (pluralizer : Plural.Pluralizer) (h : History) :
    let ctx := fresh config environment pluralizer
    (∀ rest, Thinned Observed.Erasable (ctx.transcript h) rest →
      ctx.transcript (rest.map Observed.step) = rest) ∧
    ∀ start, ((History.after ctx h).performed start).failedStart →
      ((History.after ctx h).take start).context.installed = OrderedMap.empty ∧
        ((History.after ctx h).take start).context.active = none := by
  intro ctx
  constructor
  · intro rest ht
    exact (coherent_fresh config environment pluralizer).transcript_thinned ht
  · intro start hfailed
    exact tables_of_failedStart hfailed

/-- A switch that a malformed source stops is taken out, and its retry shows the
same; a start on that source leaves nothing behind. -/
theorem transcript_erased_malformed :
    let memory := Memory.empty ⟨"."⟩
    let sound := (memory.write "i18n/common.json" (.ok "\x7b\"a\": \"1\"\x7d")).storage
    let malformed := (memory.write "i18n/common.json" (.ok "[]")).storage
    let start : Step := ⟨sound, "en", .init⟩
    let refused : Step := ⟨malformed, "en", .setLocale "fr"⟩
    let retry : Step := ⟨sound, "en", .setLocale "fr"⟩
    let restart : Step := ⟨malformed, "en", .init⟩
    let ctx := fresh {} (fun _ => none) Plural.Pluralizer.default
    let started := History.after ctx [start]
    (started.observed refused).Erasable ∧
    ctx.transcript [start, retry] =
      [ctx.observed start, (started.take refused).context.observed retry] ∧
    (started.performed restart).failedStart ∧
    (started.take restart).context.installed = OrderedMap.empty ∧
    (started.take restart).context.active = none := by
  intro memory sound malformed start refused retry restart ctx started
  have herasable : (started.observed refused).Erasable := ⟨nofun, by decide +kernel⟩
  have hthinned : Thinned Observed.Erasable (ctx.transcript [start, refused, retry])
      [ctx.observed start, (started.take refused).context.observed retry] := by
    rw [transcript_cons, transcript_cons, transcript_cons, transcript_nil]
    exact .keep _ (.drop herasable (.keep _ .nil))
  have hfailed : (started.performed restart).failedStart = true := by decide +kernel
  have hrest := (transcript_erased {} (fun _ => none) Plural.Pluralizer.default
    [start, refused, retry]).1 _ hthinned
  have hempty := (transcript_erased {} (fun _ => none) Plural.Pluralizer.default [start]).2
    restart hfailed
  have hstarted : started = History.after (fresh {} (fun _ => none) Plural.Pluralizer.default)
    [start] := rfl
  rw [← hstarted] at hempty
  exact ⟨herasable, hrest, hfailed, hempty⟩

end Context

end Phrasebook
