import Phrasebook.Proofs.Context.Coherence
import Phrasebook.Storage.Memory
/-!
# When lookups are refused

A context refuses its lookups while no table is active. A start or a switch that
succeeds makes a table active, only a failed start takes it away again, and a
failed switch keeps the one before. So what a context refuses is decided by the
last start or switch of its history that had an effect.

## Implementation notes

The record of a history keeps the operations with their results and forgets the
contexts in between: the theorems about refused lookups are about what a caller
of a context can see.
-/

namespace Phrasebook

/-- An operation with its result. -/
structure Performed where
  operation : Operation
  result : Except Error Answer

namespace Performed

/-- Whether it is a start or a switch that succeeded. -/
def activates : Performed → Bool
  | ⟨.init, .ok _⟩ | ⟨.setLocale _, .ok _⟩ => true
  | _ => false

/-- Whether it is a start that failed. -/
def failedStart : Performed → Bool
  | ⟨.init, .error _⟩ => true
  | _ => false

/-- Whether the answer is that no table is active. Expanding a document in place
answers with the document beside it. -/
def refused (p : Performed) : Bool :=
  match p.result with
  | .error .notInitialized | .ok (.populated _ (.error .notInitialized)) => true
  | _ => false

theorem cases_of_activates {p : Performed} (h : p.activates) :
    (p.operation = .init ∨ ∃ locale, p.operation = .setLocale locale) ∧
      ∃ answer, p.result = .ok answer := by
  unfold activates at h
  split at h
  · exact ⟨Or.inl rfl, _, rfl⟩
  · exact ⟨Or.inr ⟨_, rfl⟩, _, rfl⟩
  · cases h

theorem cases_of_refused {p : Performed} (h : p.refused) :
    p.result = .error .notInitialized ∨
      ∃ document, p.result = .ok (.populated document (.error .notInitialized)) := by
  unfold refused at h
  split at h
  · exact Or.inl ‹_›
  · exact Or.inr ⟨_, ‹_›⟩
  · cases h

end Performed

namespace Context

variable {ctx : Context}

/-! ## One step -/

/-- A step with the result that it has in a context. -/
def performed (ctx : Context) (step : Step) : Performed :=
  ⟨step.operation, (ctx.take step).result⟩

/-- A switch that succeeds leaves a table active. -/
theorem Coherent.active_of_setLocale (hc : ctx.Coherent) {storage : Storage} {locale : String}
    {stats : LoadStats} (h : (ctx.setLocale storage locale).result = .ok stats) :
    (ctx.setLocale storage locale).context.active ≠ none := by
  obtain ⟨e, _, hr, _⟩ | ⟨entry, _, _, he⟩ := hc.setLocale_cases storage locale
  · rw [hr] at h
    cases h
  · rw [he]
    exact Option.some_ne_none _

/-- A start or a switch that succeeds leaves a table active. -/
theorem Coherent.active_of_activates (hc : ctx.Coherent) {step : Step}
    (h : (ctx.performed step).activates) : (ctx.take step).context.active ≠ none := by
  obtain ⟨storage, system, op⟩ := step
  obtain ⟨rfl | ⟨locale, rfl⟩, answer, ha⟩ := Performed.cases_of_activates h
  · obtain ⟨stats, hs, _⟩ := exists_of_map_eq_ok ha
    exact (coherent_of_empty rfl rfl).active_of_setLocale hs
  · obtain ⟨stats, hs, _⟩ := exists_of_map_eq_ok ha
    exact (hc.system system).active_of_setLocale hs

/-- Every step but a start or a successful switch keeps the active table. -/
theorem Coherent.active_of_not_activates (hc : ctx.Coherent) {step : Step}
    (ha : (ctx.performed step).activates = false) (hf : (ctx.performed step).failedStart = false) :
    (ctx.take step).context.active = ctx.active := by
  obtain ⟨storage, system, op⟩ := step
  have hc' := hc.system system
  cases op with
  | init =>
      simp only [performed] at ha hf
      cases hr : (ctx.take ⟨storage, system, .init⟩).result with
      | error e => rw [hr] at hf; cases hf
      | ok answer => rw [hr] at ha; cases ha
  | setLocale locale =>
      obtain ⟨e, _, _, he⟩ | ⟨entry, _, hr, _⟩ := hc'.setLocale_cases storage locale
      · exact (congrArg active he).trans (active_install _ storage locale)
      · have hok : (ctx.take ⟨storage, system, .setLocale locale⟩).result =
            .ok (.stats entry.stats) := congrArg (Except.map Answer.stats) hr
        simp only [performed, hok] at ha
        cases ha
  | load locale => exact active_install _ storage locale
  | table locale => exact active_install _ storage locale
  | clear name => exact active_clear _ name
  | _ => exact (tables_of_lookup _ storage rfl).2

/-- Only a context without an active table refuses to expand in place. -/
theorem inactive_of_populated {storage : Storage} {op : Operation} {document : Json.Value}
    (h : (ctx.perform storage op).result = .ok (.populated document (.error .notInitialized))) :
    ctx.active = none := by
  obtain ⟨input, shallow, -, hp⟩ := populate_of_populated h
  have hfailed : (ctx.populate input shallow).2 = .error .notInitialized := congrArg Prod.snd hp
  unfold populate at hfailed
  cases ht : ctx.traversal shallow with
  | error e => exact (active_of_traversal_error ht).2
  | ok run =>
      rw [ht] at hfailed
      cases Document.populateAt_error hfailed

/-- Only a context without an active table refuses an operation. -/
theorem Coherent.inactive_of_refused (hc : ctx.Coherent) {step : Step}
    (h : (ctx.performed step).refused) : ctx.active = none := by
  obtain ⟨storage, system, op⟩ := step
  have hc' := hc.system system
  obtain h | ⟨document, h⟩ := Performed.cases_of_refused h
  · cases hop : op.handlesTables with
    | false =>
        obtain ⟨_, hnone⟩ | ⟨_, he⟩ | ⟨_, he⟩ := error_of_lookup hop h
        · exact hnone
        · cases he
        · cases he
    | true =>
        have hfile := hc'.file_of_error hop h
        cases hfile
  · have hnone := inactive_of_populated h
    exact hnone

/-! ## Histories -/

/-- The operations of a history with their results. -/
def record (ctx : Context) (h : History) : List Performed :=
  List.zipWith (fun step out => ⟨step.operation, out.result⟩) h (History.outcomes ctx h)

@[simp] theorem record_cons (ctx : Context) (step : Step) (h : History) :
    ctx.record (step :: h) = ctx.performed step :: (ctx.take step).context.record h :=
  rfl

/-- Where a history ends without an active table, a start has failed and nothing
was activated since, or there was no active table and nothing was activated. -/
theorem Coherent.inactive_cases (hc : ctx.Coherent) {h : History}
    (hnone : (History.after ctx h).active = none) :
    (∃ mid fail rest, ctx.record h = mid ++ fail :: rest ∧ fail.failedStart ∧
      ∀ p ∈ rest, p.activates = false) ∨
    ctx.active = none ∧ ∀ p ∈ ctx.record h, p.activates = false := by
  induction h generalizing ctx with
  | nil =>
      refine Or.inr ⟨hnone, ?_⟩
      intro p hp
      cases hp
  | cons step h ih =>
      rw [record_cons]
      obtain ⟨mid, fail, rest, hrecord, hfail, hrest⟩ | ⟨hinactive, hrest⟩ :=
        ih (hc.take step) hnone
      · refine Or.inl ⟨ctx.performed step :: mid, fail, rest, ?_, hfail, hrest⟩
        rw [hrecord, List.cons_append]
      · -- nothing was activated after the step, so the step decides
        by_cases hf : (ctx.performed step).failedStart
        · exact Or.inl ⟨[], ctx.performed step, _, rfl, hf, hrest⟩
        · have ha : (ctx.performed step).activates = false :=
            Bool.eq_false_iff.mpr fun ha => hc.active_of_activates ha hinactive
          apply Or.inr
          constructor
          · rw [← hc.active_of_not_activates ha (Bool.eq_false_iff.mpr hf)]
            exact hinactive
          · intro p hp
            obtain rfl | hp := List.mem_cons.mp hp
            · exact ha
            · exact hrest p hp

/-- A context before its first operation. -/
def fresh (config : Config) (environment : String → Option String)
    (pluralizer : Plural.Pluralizer) : Context :=
  { new config environment with pluralizer := pluralizer }

theorem coherent_fresh (config : Config) (environment : String → Option String)
    (pluralizer : Plural.Pluralizer) : (fresh config environment pluralizer).Coherent :=
  coherent_of_empty rfl rfl

/-- Whatever is asked of a new context, while sources and system locale change:
its tables are coherent, no activation misses its table, the active table is
never forgotten, and after an activation a lookup is refused only if a start has
failed and nothing was activated since. -/
theorem coherent_history (config : Config) (environment : String → Option String)
    (pluralizer : Plural.Pluralizer) (h : History) :
    let ctx := History.after (fresh config environment pluralizer) h
    ctx.installedNames.Nodup ∧ ctx.Coherent ∧
    (∀ step name, (ctx.take step).result ≠ .error (.notLoaded name)) ∧
    (∀ table name, ctx.active = some table →
      (ctx.clear name).context.active = some table ∧
      (ctx.clear name).context.installed.get? table.name = ctx.installed.get? table.name ∧
      (ctx.clear table.name).result = false) ∧
    ∀ activation later probe, (ctx.performed activation).activates →
      ((History.after (ctx.take activation).context later).performed probe).refused →
      ∃ mid fail rest, (ctx.take activation).context.record later = mid ++ fail :: rest ∧
        fail.failedStart ∧ ∀ p ∈ rest, p.activates = false := by
  intro ctx
  have hc : ctx.Coherent := (coherent_fresh config environment pluralizer).after h
  refine ⟨ctx.installed.nodup, hc, ?_, ?_, ?_⟩
  · intro step name
    exact hc.take_ne_notLoaded step name
  · intro table name ht
    exact clear_active ht name
  · intro activation later probe hactivates hrefused
    have hc' := hc.take activation
    have hnone := (hc'.after later).inactive_of_refused hrefused
    obtain hfailed | ⟨hinactive, _⟩ := hc'.inactive_cases hnone
    · exact hfailed
    · exact absurd hinactive (hc.active_of_activates hactivates)

/-- A start on a malformed source is what a later lookup is refused for. -/
theorem coherent_history_malformed :
    let memory := Memory.empty ⟨"."⟩
    let sound := (memory.write "i18n/common.json" (.ok "\x7b\"a\": \"1\"\x7d")).storage
    let malformed := (memory.write "i18n/common.json" (.ok "[]")).storage
    let ctx := History.after (fresh {} (fun _ => none) Plural.Pluralizer.default)
      [⟨sound, "en", .init⟩]
    let activation : Step := ⟨sound, "en", .setLocale "fr"⟩
    let later : History := [⟨malformed, "en", .init⟩]
    let probe : Step := ⟨sound, "en", .get "a" none false⟩
    (∃ table, ctx.active = some table ∧ (ctx.clear table.name).result = false) ∧
    (ctx.performed activation).activates ∧
    ((History.after (ctx.take activation).context later).performed probe).refused ∧
    ∃ mid fail rest, (ctx.take activation).context.record later = mid ++ fail :: rest ∧
      fail.failedStart ∧ ∀ p ∈ rest, p.activates = false := by
  intro memory sound malformed ctx activation later probe
  have h := coherent_history {} (fun _ => none) Plural.Pluralizer.default [⟨sound, "en", .init⟩]
  obtain ⟨_, _, _, hclear, hrefused⟩ := h
  have hactive : ctx.active.isSome = true := by decide +kernel
  have hactivates : (ctx.performed activation).activates = true := by decide +kernel
  have hprobe : ((History.after (ctx.take activation).context later).performed probe).refused =
      true := by decide +kernel
  obtain ⟨table, ht⟩ := Option.isSome_iff_exists.mp hactive
  exact ⟨⟨table, ht, (hclear table "" ht).2.2⟩, hactivates, hprobe,
    hrefused activation later probe hactivates hprobe⟩

end Context

end Phrasebook
