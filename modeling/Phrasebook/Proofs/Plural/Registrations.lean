import Phrasebook.Plural.Registry
/-!
# Registrations and requests in a row

Whatever was done with a registry before, a request finds what was registered last for its
language. A language is settled once it is named, be it registered or asked for: from then
on there is nothing to report about it. So a language without rules is reported by the first
request for it, and no language is reported twice.
-/

namespace Phrasebook.Plural.Registry

/-- What is done with a registry. -/
inductive Step
  | register (code : String) (rules : Rules)
  | resolve (code : String)

namespace Step

/-- The language that is named, in lower case. -/
def language : Step → String
  | .register code _ => code.toLower
  | .resolve code => code.toLower

/-- The rules that are registered for a language. -/
def rulesFor? (language : String) : Step → Option Rules
  | .register code rules => if code.toLower = language.toLower then some rules else none
  | .resolve _ => none

end Step

/-- The registry after a step. -/
def step (r : Registry) : Step → Registry
  | .register code rules => r.register code rules
  | .resolve code => (r.resolve code).2.2

/-- What is reported during a step. -/
def reports (r : Registry) : Step → List Warning
  | .register _ _ => []
  | .resolve code => (r.resolve code).2.1

/-- The registry after some steps, oldest first. -/
def after (r : Registry) (steps : List Step) : Registry := steps.foldl step r

/-- All that is reported during some steps. -/
def log (r : Registry) : List Step → List Warning
  | [] => []
  | s :: steps => r.reports s ++ (r.step s).log steps

/-- The rules that some steps register last for a language. -/
def latest? (steps : List Step) (language : String) : Option Rules :=
  steps.reverse.findSome? (Step.rulesFor? language)

/-- Some request for the language, in whatever case, finds nothing. -/
def HasMissed (r : Registry) (steps : List Step) (language : String) : Prop :=
  ∃ before code later, steps = before ++ .resolve code :: later ∧
    code.toLower = language.toLower ∧ ((r.after before).resolve code).1 = none

variable {r : Registry} {language : String}

/-! ## One step -/

theorem isSettled_step (r : Registry) (s : Step) :
    (r.step s).IsSettled language ↔ r.IsSettled language ∨ s.language = language := by
  cases s with
  | register code rules => exact r.isSettled_register code rules
  | resolve code => exact r.isSettled_resolve code

theorem find?_step (r : Registry) (s : Step) (language : String) :
    (r.step s).find? language = (s.rulesFor? language).or (r.find? language) := by
  cases s with
  | register code rules =>
      rw [step, find?_register, Step.rulesFor?]
      split <;> rfl
  | resolve code => rw [step, find?, rules_resolve, Step.rulesFor?, Option.none_or, find?]

theorem mem_keys_step (r : Registry) (s : Step) :
    language ∈ (r.step s).rules.keys ↔ language ∈ r.rules.keys ∨
      ∃ code rules, s = .register code rules ∧ code.toLower = language := by
  cases s with
  | register code rules => simp [step, mem_keys_register]
  | resolve code => simp [step, rules_resolve]

/-- A step reports at most the language that it names, and this if it is not settled. -/
theorem reports_eq (r : Registry) (s : Step) :
    r.reports s = [] ∨ r.reports s = [.noRules s.language] ∧ ¬ r.IsSettled s.language := by
  cases s with
  | register code rules => exact .inl rfl
  | resolve code =>
      rw [reports, warnings_resolve]
      split
      · exact .inl rfl
      · rename_i hnew
        exact .inr ⟨rfl, hnew⟩

/-! ## Steps in a row -/

theorem after_append (r : Registry) (before later : List Step) :
    r.after (before ++ later) = (r.after before).after later :=
  List.foldl_append

/-- A request finds what was registered last. -/
theorem find?_after (r : Registry) (steps : List Step) (language : String) :
    (r.after steps).find? language = (latest? steps language).or (r.find? language) := by
  induction steps generalizing r with
  | nil => rfl
  | cons s steps ih =>
      calc
        ((r.step s).after steps).find? language
          = (latest? steps language).or ((s.rulesFor? language).or (r.find? language)) := by
            rw [ih, find?_step]
        _ = (latest? (s :: steps) language).or (r.find? language) := by
            rw [latest?, latest?, List.reverse_cons, List.findSome?_append, ← Option.or_assoc]
            simp

/-- What is found stays there. -/
theorem find?_eq_none_of_append (r : Registry) (before : List Step) {later : List Step}
    (h : (r.after (before ++ later)).find? language = none) :
    (r.after before).find? language = none := by
  rw [after_append, find?_after, Option.or_eq_none_iff] at h
  exact h.2

theorem mem_keys_after (r : Registry) (steps : List Step) :
    language ∈ (r.after steps).rules.keys ↔ language ∈ r.rules.keys ∨
      ∃ code rules, .register code rules ∈ steps ∧ code.toLower = language := by
  induction steps generalizing r with
  | nil => simp [after]
  | cons s steps ih =>
      have hrest := ih (r.step s)
      rw [mem_keys_step] at hrest
      refine hrest.trans ?_
      simp only [List.mem_cons]
      grind

theorem isSettled_after (r : Registry) (steps : List Step) :
    (r.after steps).IsSettled language ↔
      r.IsSettled language ∨ ∃ s ∈ steps, s.language = language := by
  induction steps generalizing r with
  | nil => simp [after]
  | cons s steps ih =>
      have hrest := ih (r.step s)
      rw [isSettled_step] at hrest
      refine hrest.trans ?_
      simp only [List.mem_cons, exists_eq_or_imp, or_assoc]

/-- As long as nothing is registered for a language, it is settled by being missed. -/
theorem not_isSettled_after_iff (hreported : r.reported = []) (steps : List Step)
    (language : String) :
    ¬ (r.after steps).IsSettled language.toLower ↔
      (r.after steps).find? language = none ∧ ¬ r.HasMissed steps language := by
  constructor
  · intro hnew
    refine ⟨find?_eq_none_iff.mpr fun hkey => hnew (.inl hkey), ?_⟩
    rintro ⟨before, code, later, rfl, hcode, -⟩
    exact hnew ((r.isSettled_after _).mpr (.inr ⟨.resolve code, by simp, hcode⟩))
  · rintro ⟨hnone, hmissed⟩ hsettled
    obtain (hkey | hmember) | ⟨s, hs, hlanguage⟩ := (r.isSettled_after steps).mp hsettled
    · exact find?_eq_none_iff.mp (r.find?_eq_none_of_append [] hnone) hkey
    · rw [hreported] at hmember
      cases hmember
    · -- Nothing was registered for the language, so that it was asked for in vain.
      cases s with
      | register code rules =>
          exact find?_eq_none_iff.mp hnone
            ((r.mem_keys_after steps).mpr (.inr ⟨code, rules, hs, hlanguage⟩))
      | resolve code =>
          obtain ⟨before, later, rfl⟩ := List.mem_iff_append.mp hs
          have hcode : (r.after before).find? code = (r.after before).find? language :=
            congrArg (r.after before).rules.get? hlanguage
          refine hmissed ⟨before, code, later, rfl, hlanguage, ?_⟩
          rw [answer_resolve, hcode]
          exact r.find?_eq_none_of_append before hnone

/-- A settled language is not reported any more. -/
theorem not_mem_log_of_isSettled (h : r.IsSettled language) (steps : List Step) :
    .noRules language ∉ r.log steps := by
  induction steps generalizing r with
  | nil => exact List.not_mem_nil
  | cons s steps ih =>
      rw [log, List.mem_append, not_or]
      refine ⟨?_, ih ((r.isSettled_step s).mpr (.inl h))⟩
      rcases r.reports_eq s with hnone | ⟨hone, hnew⟩
      · rw [hnone]
        exact List.not_mem_nil
      · rw [hone, List.mem_singleton]
        rintro ⟨⟩
        exact hnew h

/-- No language is reported twice. -/
theorem count_log_le_one (r : Registry) (steps : List Step) (language : String) :
    (r.log steps).count (.noRules language) ≤ 1 := by
  induction steps generalizing r with
  | nil => exact Nat.zero_le 1
  | cons s steps ih =>
      rw [log, List.count_append]
      rcases r.reports_eq s with hnone | ⟨hone, -⟩
      · rw [hnone, List.count_nil, Nat.zero_add]
        exact ih _
      · by_cases hlanguage : s.language = language
        · have hsettled : (r.step s).IsSettled language := (r.isSettled_step s).mpr (.inr hlanguage)
          rw [hone, List.count_eq_zero.mpr (not_mem_log_of_isSettled hsettled steps)]
          exact List.count_le_length
        · have hother : .noRules language ∉ r.reports s := by
            rw [hone, List.mem_singleton]
            rintro ⟨⟩
            exact hlanguage rfl
          rw [List.count_eq_zero.mpr hother, Nat.zero_add]
          exact ih _

/-! ## From the start -/

/-- The registries that there are at first. -/
inductive Start
  | empty
  | bundled

namespace Start

def registry : Start → Registry
  | .empty => .empty
  | .bundled => .default

/-- What was registered already. -/
def registrations : Start → List Step
  | .empty => []
  | .bundled => [.register "en" English.rules]

theorem registry_eq (start : Start) :
    start.registry = Registry.empty.after start.registrations := by
  cases start <;> rfl

theorem reported_registry (start : Start) : start.registry.reported = [] := by
  cases start <;> rfl

end Start

/-- Whatever was registered and asked for before, a request finds what was registered last for
its language in any case. It reports the language if it finds nothing and no earlier request
for it found nothing. So no language is reported twice, and none after its registration. The
languages are listed in order, each of them once. -/
theorem resolve_after (start : Start) (before : List Step) (language : String) :
    let r := start.registry.after before
    let registered := start.registrations ++ before
    (r.resolve language).1 = latest? registered language ∧
    (∀ w, w ∈ (r.resolve language).2.1 ↔ w = .noRules language.toLower ∧
      (r.resolve language).1 = none ∧ ¬ start.registry.HasMissed before language) ∧
    (∀ other, (start.registry.log before).count (.noRules other) ≤ 1) ∧
    (∀ code rules, .register code rules ∈ registered →
      ∀ later, .noRules code.toLower ∉ r.log later) ∧
    r.languages.Pairwise (· < ·) ∧
    ∀ other, other ∈ r.languages ↔
      ∃ code rules, .register code rules ∈ registered ∧ code.toLower = other := by
  intro r registered
  have hregistered : r = Registry.empty.after registered := by
    rw [after_append, ← start.registry_eq]
  have hkeys : ∀ other, other ∈ r.rules.keys ↔
      ∃ code rules, .register code rules ∈ registered ∧ code.toLower = other := by
    intro other
    rw [hregistered, mem_keys_after, or_iff_right]
    exact List.not_mem_nil
  refine ⟨?_, fun w => ?_, count_log_le_one _ _, fun code rules hcode => ?_,
    r.pairwise_languages, fun other => mem_languages.trans (hkeys other)⟩
  · rw [answer_resolve, hregistered, find?_after]
    exact Option.or_none
  · have hnew : ¬ r.IsSettled language.toLower ↔
        r.find? language = none ∧ ¬ start.registry.HasMissed before language :=
      not_isSettled_after_iff start.reported_registry before language
    rw [warnings_resolve, answer_resolve, ← hnew]
    split
    · rename_i hsettled
      simp [hsettled]
    · rename_i hunsettled
      simp [hunsettled]
  · exact not_mem_log_of_isSettled (.inl ((hkeys _).mpr ⟨code, rules, hcode, rfl⟩))

end Phrasebook.Plural.Registry
