import Phrasebook.OrderedMap
import Phrasebook.LocaleTable
import Phrasebook.Plural.Rules
/-!
# The registry of plural rules

Rules are registered by language, in any ASCII case. A language without rules is
reported once; registering it takes the report back.
-/

namespace Phrasebook.Plural

/-- Rules by language, and the languages reported as having none. -/
structure Registry where
  rules : OrderedMap String Rules
  reported : List String

namespace Registry

/-- The registry without rules. -/
def empty : Registry := ⟨OrderedMap.empty, []⟩

/-- Registers rules, or replaces them. -/
def register (r : Registry) (language : String) (rules : Rules) : Registry :=
  ⟨r.rules.insert language.toLower rules, r.reported.filter (· ≠ language.toLower)⟩

/-- The registry with the rules of English. -/
def default : Registry := empty.register "en" English.rules

/-- The rules of a language. -/
def find? (r : Registry) (language : String) : Option Rules := r.rules.get? language.toLower

/-- The case of a language does not matter, and the last registration counts. -/
theorem find?_register (r : Registry) (language other : String) (rules : Rules) :
    (r.register language rules).find? other =
      if language.toLower = other.toLower then some rules else r.find? other :=
  r.rules.get?_insert ..

/-- Asks for the rules of a language: the rules, the report if it is due, and
the registry after that. -/
def resolve (r : Registry) (language : String) : Option Rules × List Warning × Registry :=
  match r.find? language with
  | some rules => (some rules, [], r)
  | none =>
    if r.reported.contains language.toLower then (none, [], r)
    else
      (none, [.noRules language.toLower], { r with reported := r.reported ++ [language.toLower] })

/-! ## What is left to report -/

/-- There is nothing to report about a language in lower case: it has rules, or it is
reported already. -/
def IsSettled (r : Registry) (language : String) : Prop :=
  language ∈ r.rules.keys ∨ language ∈ r.reported

instance (r : Registry) (language : String) : Decidable (r.IsSettled language) :=
  inferInstanceAs (Decidable (_ ∨ _))

variable {r : Registry} {language : String}

theorem find?_eq_none_iff : r.find? language = none ↔ language.toLower ∉ r.rules.keys := by
  rw [← OrderedMap.contains_iff_mem_keys, OrderedMap.contains, Option.not_isSome_iff_eq_none, find?]

/-- A request for a settled language changes nothing. Any other one reports the language and
puts it on record. -/
theorem resolve_eq (r : Registry) (language : String) :
    r.resolve language =
      if r.IsSettled language.toLower then (r.find? language, [], r)
      else (none, [.noRules language.toLower],
        { r with reported := r.reported ++ [language.toLower] }) := by
  unfold resolve
  cases hfound : r.find? language with
  | some rules =>
      have hkey : language.toLower ∈ r.rules.keys := by
        apply Decidable.of_not_not
        rw [← find?_eq_none_iff, hfound]
        exact Option.some_ne_none rules
      exact (if_pos (Or.inl hkey)).symm
  | none =>
      have hsettled : r.IsSettled language.toLower ↔ language.toLower ∈ r.reported :=
        or_iff_right (find?_eq_none_iff.mp hfound)
      simp only [List.contains_iff_mem, hsettled]

theorem answer_resolve (r : Registry) (language : String) :
    (r.resolve language).1 = r.find? language := by
  rw [resolve_eq]
  split
  · rfl
  · rename_i hnew
    exact (find?_eq_none_iff.mpr fun hkey => hnew (.inl hkey)).symm

theorem warnings_resolve (r : Registry) (language : String) :
    (r.resolve language).2.1 =
      if r.IsSettled language.toLower then [] else [.noRules language.toLower] := by
  rw [resolve_eq]
  split <;> rfl

theorem rules_resolve (r : Registry) (language : String) :
    (r.resolve language).2.2.rules = r.rules := by
  rw [resolve_eq]
  split <;> rfl

/-- A request settles its language. -/
theorem isSettled_resolve (r : Registry) (code : String) :
    (r.resolve code).2.2.IsSettled language ↔
      r.IsSettled language ∨ code.toLower = language := by
  rw [resolve_eq]
  split
  · rename_i hsettled
    rw [or_iff_left_of_imp]
    rintro rfl
    exact hsettled
  · simp only [IsSettled, List.mem_append, List.mem_singleton, or_assoc, eq_comm]

theorem mem_keys_register (r : Registry) (code : String) (rules : Rules) :
    language ∈ (r.register code rules).rules.keys ↔
      language ∈ r.rules.keys ∨ code.toLower = language :=
  r.rules.mem_keys_insert rules

/-- A registration settles its language. -/
theorem isSettled_register (r : Registry) (code : String) (rules : Rules) :
    (r.register code rules).IsSettled language ↔
      r.IsSettled language ∨ code.toLower = language := by
  unfold IsSettled
  rw [mem_keys_register]
  by_cases hcode : code.toLower = language
  · simp only [hcode, or_true, true_or]
  · simp [register, hcode, Ne.symm hcode]

/-! ## The languages -/

/-- The registered languages, sorted. -/
def languages (r : Registry) : List String :=
  r.rules.keys.mergeSort fun a b => decide (a ≤ b)

theorem mem_languages : language ∈ r.languages ↔ language ∈ r.rules.keys :=
  List.mem_mergeSort

theorem pairwise_languages (r : Registry) : r.languages.Pairwise (· < ·) := by
  have hsorted : r.languages.Pairwise fun a b => decide (a ≤ b) = true :=
    List.pairwise_mergeSort (by simpa using fun _ _ _ => String.le_trans)
      (by simpa using String.le_total) _
  have hnodup : r.languages.Pairwise (· ≠ ·) :=
    (List.mergeSort_perm ..).nodup_iff.mpr r.rules.nodup
  refine hsorted.imp₂ (fun a b hle hne => ?_) hnodup
  rw [← String.not_le]
  exact fun hge => hne (String.le_antisymm (of_decide_eq_true hle) hge)

end Registry

end Phrasebook.Plural
