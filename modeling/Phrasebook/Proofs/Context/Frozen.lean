import Phrasebook.Proofs.Context.Snapshot
import Phrasebook.Proofs.Plural.Stability
/-!
# The active table is frozen

Lookups are answered from the active table, the depth of the configuration and what is
known of plurals. No operation but a start or a successful switch changes any of these in
a way that a lookup could see. So all answers to one lookup are the same until the next
start or switch, whatever happens to the sources and to the other tables.
-/

namespace Phrasebook

/-- The operations that are answered from the active table. -/
def Operation.isLookup : Operation → Bool
  | .activeTable | .has _ | .get _ _ _ | .template _ | .translate _ _ | .translateVia _ _
  | .populate _ _ | .pluralized _ _ _ _ | .pluralize _ _ _ _ => true
  | _ => false

namespace Context

variable {ctx ctx' ctx'' : Context}

/-- The second context answers lookups like the first. -/
structure Alike (ctx ctx' : Context) : Prop where
  active : ctx'.active = ctx.active
  config : ctx'.config = ctx.config
  pluralizer : ctx.pluralizer.Agrees ctx'.pluralizer

theorem Alike.refl (ctx : Context) : ctx.Alike ctx := ⟨rfl, rfl, .refl _⟩

theorem Alike.trans (h : ctx.Alike ctx') (h' : ctx'.Alike ctx'') : ctx.Alike ctx'' :=
  ⟨h'.active.trans h.active, h'.config.trans h.config, h.pluralizer.trans h'.pluralizer⟩

theorem Alike.activeTable_eq (h : ctx.Alike ctx') : ctx'.activeTable = ctx.activeTable := by
  rw [activeTable, activeTable, h.active]

theorem Alike.traversal_eq (h : ctx.Alike ctx') (shallow : Bool) :
    ctx'.traversal shallow = ctx.traversal shallow := by
  rw [traversal, traversal, h.activeTable_eq, h.config]

/-- A lookup has the same answer in both, whatever the storage and the system locale. -/
theorem Alike.result_take (h : ctx.Alike ctx') {step step' : Step}
    (hlookup : step.operation.isLookup = true) (hsame : step'.operation = step.operation) :
    (ctx'.take step').result = (ctx.take step).result := by
  obtain ⟨storage, system, op⟩ := step
  obtain ⟨storage', system', op'⟩ := step'
  obtain rfl : op' = op := hsame
  -- the system locale is no part of what lookups see
  replace h : Alike { ctx with system := system } { ctx' with system := system' } :=
    ⟨h.active, h.config, h.pluralizer⟩
  have htable := h.activeTable_eq
  have htraversal := h.traversal_eq
  simp only [take]
  generalize ({ ctx with system := system } : Context) = c at h htable htraversal
  generalize ({ ctx' with system := system' } : Context) = c' at h htable htraversal
  cases op' with
  | init | load | setLocale | table | isLoaded | loadStats | clear | languages | regions =>
      cases hlookup
  | activeTable => simp only [perform, still, htable]
  | has id => simp only [perform, still, has, htable]
  | template input => simp only [perform, still, expand, htable]
  | translate document shallow => simp only [perform, still, translate, htraversal]
  | translateVia document shallow => simp only [perform, still, translateVia, htraversal]
  | populate document shallow => simp only [perform, still, populate, htraversal]
  | get id fallback warn =>
      simp only [perform, Outcome.map, get, htable]
      cases c.activeTable <;> rfl
  | pluralized locale id count mode =>
      simp only [perform, Outcome.map, pluralized, htable]
      cases c.activeTable with
      | error e => rfl
      | ok table => simp only [ofReply, h.pluralizer.answer_pluralizedString]
  | pluralize locale word count mode =>
      simp only [perform, Outcome.map, pluralize, htable]
      cases c.activeTable with
      | error e => rfl
      | ok table => simp only [ofReply, h.pluralizer.answer_pluralize]

/-! ## Steps -/

theorem agrees_of_asked {p q : Plural.Pluralizer} (h : p.Asked q) : p.Agrees q := by
  cases h with
  | nothing => exact .refl p
  | stored => exact p.agrees_pluralizedString
  | literal => exact p.agrees_pluralize

/-- No operation changes what is known of plurals. -/
theorem agrees_perform (ctx : Context) (storage : Storage) (op : Operation) :
    ctx.pluralizer.Agrees (ctx.perform storage op).context.pluralizer := by
  cases hop : op.handlesTables with
  | true =>
      obtain ⟨installed, active, hcontext⟩ := ctx.context_of_tables storage hop
      rw [hcontext]
      exact .refl _
  | false =>
      obtain ⟨pluralizer, available, hcontext, hasked, -⟩ := ctx.context_of_lookup storage hop
      rw [hcontext]
      exact agrees_of_asked hasked

/-- Every step but a start or a successful switch leaves lookups their answers. -/
theorem Coherent.alike_take (hc : ctx.Coherent) {step : Step}
    (ha : (ctx.performed step).activates = false) (hf : (ctx.performed step).failedStart = false) :
    ctx.Alike (ctx.take step).context :=
  ⟨hc.active_of_not_activates ha hf, ctx.config_take step,
    agrees_perform { ctx with system := step.system } step.storage step.operation⟩

/-! ## Histories -/

theorem Coherent.alike_after (hc : ctx.Coherent) {h : History}
    (hquiet : ∀ p ∈ ctx.record h, p.activates = false ∧ p.failedStart = false) :
    ctx.Alike (History.after ctx h) := by
  induction h generalizing ctx with
  | nil => exact Alike.refl ctx
  | cons step h ih =>
      rw [record_cons, List.forall_mem_cons] at hquiet
      obtain ⟨⟨ha, hf⟩, hrest⟩ := hquiet
      exact (hc.alike_take ha hf).trans (ih (hc.take step) hrest)

/-- Every answer to a lookup is the one that it has at the start. -/
theorem Coherent.result_of_mem_record (hc : ctx.Coherent) {h : History}
    (hquiet : ∀ p ∈ ctx.record h, p.activates = false ∧ p.failedStart = false)
    {p : Performed} (hp : p ∈ ctx.record h) (hlookup : p.operation.isLookup = true)
    {probe : Step} (hprobe : probe.operation = p.operation) :
    p.result = (ctx.take probe).result := by
  induction h generalizing ctx with
  | nil => cases hp
  | cons step h ih =>
      rw [record_cons, List.forall_mem_cons] at hquiet
      obtain ⟨⟨ha, hf⟩, hrest⟩ := hquiet
      rw [record_cons, List.mem_cons] at hp
      have hlookup' : probe.operation.isLookup = true := hprobe ▸ hlookup
      rcases hp with rfl | hp
      · exact (Alike.refl ctx).result_take hlookup' hprobe.symm
      · exact (ih (hc.take step) hrest hp).trans ((hc.alike_take ha hf).result_take hlookup' rfl)

/-- Whatever is asked of a new context, while sources and system locale change: after a
start or a switch that succeeds, there is an active table, it stays the same until the
next start or successful switch, and until then every two lookups with the same arguments
have the same answer. -/
theorem lookups_frozen (config : Config) (environment : String → Option String)
    (pluralizer : Plural.Pluralizer) (h : History) (activation : Step) (later : History) :
    let ctx := History.after (fresh config environment pluralizer) h
    let start := (ctx.take activation).context
    (ctx.performed activation).activates = true →
    (∀ p ∈ start.record later, p.activates = false ∧ p.failedStart = false) →
    (∃ table, start.active = some table ∧ (History.after start later).active = some table) ∧
    ∀ p ∈ start.record later, ∀ q ∈ start.record later,
      p.operation.isLookup = true → q.operation = p.operation → q.result = p.result := by
  intro ctx start hactivates hquiet
  have hc : ctx.Coherent := (coherent_fresh config environment pluralizer).after h
  have hstart : start.Coherent := hc.take activation
  constructor
  · obtain ⟨table, htable⟩ := Option.ne_none_iff_exists'.mp (hc.active_of_activates hactivates)
    exact ⟨table, htable, (hstart.alike_after hquiet).active.trans htable⟩
  · intro p hp q hq hlookup hsame
    -- storage and system locale of the probe are of no account
    let probe : Step := ⟨activation.storage, activation.system, p.operation⟩
    have hlookup' : q.operation.isLookup = true := hsame ▸ hlookup
    calc
      q.result = (start.take probe).result :=
        hstart.result_of_mem_record hquiet hq hlookup' hsame.symm
      _ = p.result := (hstart.result_of_mem_record hquiet hp hlookup rfl).symm

/-- A form is looked up twice. In between, its source is edited, a switch fails, another
table is loaded and cleared, and the rules of another language are found missing. -/
theorem lookups_frozen_edited :
    let memory := Memory.empty ⟨"."⟩
    let old := (memory.write "i18n/fr.json" (.ok "\x7b\"a\": \"1\"\x7d")).storage
    let edited := ((memory.write "i18n/fr.json" (.ok "\x7b\x7d")).write "i18n/de.json"
      (.ok "[]")).storage
    let activation : Step := ⟨old, "en", .setLocale "fr"⟩
    let ctx := fresh {} (fun _ => none) Plural.Pluralizer.default
    let start := (ctx.take activation).context
    let lookup : Operation := .pluralized "fr" "a" 2 .ordinal
    let window : History := [⟨old, "en", lookup⟩, ⟨edited, "en", .setLocale "de"⟩,
      ⟨edited, "en", .load "it"⟩, ⟨edited, "en", .clear "it"⟩,
      ⟨edited, "en", .pluralize "it" "a" 2 .cardinal⟩]
    let again : Step := ⟨edited, "de", lookup⟩
    (ctx.performed activation).activates = true ∧
      (∀ p ∈ start.record (window ++ [again]), p.activates = false ∧ p.failedStart = false) ∧
      ((History.after start window).performed again).result =
        (start.performed ⟨old, "en", lookup⟩).result := by
  intro memory old edited activation ctx start lookup window again
  have hactivates : (ctx.performed activation).activates = true := by decide +kernel
  have hquiet : ∀ p ∈ start.record (window ++ [again]),
      p.activates = false ∧ p.failedStart = false := by
    decide +kernel
  obtain ⟨-, hanswers⟩ := lookups_frozen {} (fun _ => none) Plural.Pluralizer.default []
    activation (window ++ [again]) hactivates hquiet
  refine ⟨hactivates, hquiet, ?_⟩
  have hfirst : start.performed ⟨old, "en", lookup⟩ ∈ start.record (window ++ [again]) := by
    simp only [window, List.cons_append, record_cons, List.mem_cons, true_or]
  have hlast : (History.after start window).performed again ∈
      start.record (window ++ [again]) := by
    simp only [window, List.cons_append, List.nil_append, record_cons, List.mem_cons,
      History.after, List.foldl_cons, List.foldl_nil, or_true, true_or]
  exact hanswers _ hfirst _ hlast rfl (Eq.refl lookup)

end Context

end Phrasebook
