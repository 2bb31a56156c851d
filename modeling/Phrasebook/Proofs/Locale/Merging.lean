import Phrasebook.Proofs.Locale.Spelling
/-!
# Filling a code from others

A code takes what it lacks from another one, which may lack parts itself. Written out and
read again, the result is what it was, so that codes can be filled in steps, through their
written forms and in any grouping.
-/

namespace Phrasebook.LocaleCode

open Text (isBlank)

/-! ### Codes -/

/-- The code that lacks both parts. -/
def blank : LocaleCode := ⟨"", none⟩

theorem parse_empty : parse "" = blank := by decide +kernel

theorem orElse_assoc (a b c : LocaleCode) : (a.orElse b).orElse c = a.orElse (b.orElse c) := by
  unfold orElse
  rw [LocaleCode.mk.injEq, Option.or_assoc]
  refine ⟨?_, rfl⟩
  by_cases h : a.language.isEmpty = true
  · simp only [h, if_true]
  · simp only [h, Bool.false_eq_true, if_false]

@[simp]
theorem blank_orElse (a : LocaleCode) : blank.orElse a = a := rfl

@[simp]
theorem orElse_blank (a : LocaleCode) : a.orElse blank = a := by
  obtain ⟨language, region⟩ := a
  by_cases h : language = ""
  · simp [orElse, blank, h]
  · simp [orElse, blank, h]

@[simp]
theorem orElse_self (a : LocaleCode) : a.orElse a = a := by
  obtain ⟨language, region⟩ := a
  simp [orElse]

/-- A code with both parts takes nothing from others. -/
theorem orElse_of_complete {a : LocaleCode} (hlanguage : a.language ≠ "")
    (hregion : a.region.isSome = true) (b : LocaleCode) : a.orElse b = a := by
  obtain ⟨language, region⟩ := a
  obtain ⟨region, rfl⟩ := Option.isSome_iff_exists.mp hregion
  have hnonempty : language.isEmpty = false := by simpa using hlanguage
  simp only [orElse, hnonempty, Bool.false_eq_true, if_false, Option.some_or]

/-- Each part of a filled code is a part of one of the two. -/
theorem IsCanonical.orElse {a b : LocaleCode} (ha : a.IsCanonical) (hb : b.IsCanonical) :
    (a.orElse b).IsCanonical := by
  have hregion : ∀ region, (a.orElse b).region = some region →
      a.region = some region ∨ b.region = some region := by
    intro region h
    rw [region_orElse, Option.or_eq_some_iff] at h
    exact h.imp_right And.right
  constructor
  · rw [language_orElse]
    split
    · exact hb.language_lower
    · exact ha.language_lower
  · rw [language_orElse]
    split
    · exact hb.language_subtag
    · exact ha.language_subtag
  · intro h
    rcases hregion "" h with h | h
    · exact ha.region_ne h
    · exact hb.region_ne h
  · intro region h
    rcases hregion region h with h | h
    · exact ha.region_upper region h
    · exact hb.region_upper region h
  · intro region h
    rcases hregion region h with h | h
    · exact ha.region_subtag region h
    · exact hb.region_subtag region h

/-! ### Texts -/

/-- No region that is found looks like a script. -/
theorem region_filter_resolve (a b : String) :
    ((resolve a b).region.filter fun r => !isScript r.toList) = (resolve a b).region := by
  rw [resolve, region_orElse]
  cases hregion : (parse a).region with
  | none => rw [Option.none_or, region_filter_parse]
  | some region => rw [Option.some_or, ← hregion, region_filter_parse]

/-- What two texts without blanks resolve to is read again from its written form. -/
theorem parse_text_resolve {a b : String} (ha : ∀ c ∈ a.toList, isBlank c = false)
    (hb : ∀ c ∈ b.toList, isBlank c = false) : parse (resolve a b).text = resolve a b := by
  have hcanonical : (resolve a b).IsCanonical :=
    (isCanonical_parse_of_unbroken ha).orElse (isCanonical_parse_of_unbroken hb)
  rw [parse_text hcanonical, region_filter_resolve]

/-- Texts without blanks are resolved one after another in any grouping, through the
written forms of what is resolved on the way. A text that lacks all parts changes nothing,
nor does the text itself, and nothing is added to a code with both parts. -/
theorem resolve_text_resolve {a b c : String} (ha : ∀ x ∈ a.toList, isBlank x = false)
    (hb : ∀ x ∈ b.toList, isBlank x = false) (hc : ∀ x ∈ c.toList, isBlank x = false) :
    resolve (resolve a b).text c = resolve a (resolve b c).text ∧
      resolve "" a = parse a ∧ resolve a "" = parse a ∧ resolve a a = parse a ∧
      ((resolve a b).language ≠ "" → (resolve a b).region.isSome = true →
        ∀ system, resolve (resolve a b).text system = resolve a b) := by
  have hread : ∀ system, resolve (resolve a b).text system =
      (resolve a b).orElse (parse system) := by
    intro system
    rw [resolve, parse_text_resolve ha hb]
  refine ⟨?_, ?_, ?_, ?_, ?_⟩
  · calc
      resolve (resolve a b).text c = ((parse a).orElse (parse b)).orElse (parse c) := hread c
      _ = (parse a).orElse ((parse b).orElse (parse c)) := orElse_assoc ..
      _ = (parse a).orElse (parse (resolve b c).text) := by rw [parse_text_resolve hb hc, resolve]
  · rw [resolve, parse_empty, blank_orElse]
  · rw [resolve, parse_empty, orElse_blank]
  · rw [resolve, orElse_self]
  · intro hlanguage hregion system
    rw [hread, orElse_of_complete hlanguage hregion]

/-- A region without a language, a language with a script, and a text with both parts. -/
theorem resolve_text_resolve_partial :
    resolve (resolve "_gb" "FR-latn").text "zh_Hant_TW" =
        resolve "_gb" (resolve "FR-latn" "zh_Hant_TW").text ∧
      resolve "_gb" "FR-latn" = ⟨"fr", some "GB"⟩ ∧
      resolve (resolve "_gb" "FR-latn").text "zh_Hant_TW" = ⟨"fr", some "GB"⟩ := by
  have hresolved : resolve "_gb" "FR-latn" = ⟨"fr", some "GB"⟩ := by decide +kernel
  have hunbroken : ∀ s : String, s.toList.any isBlank = false →
      ∀ x ∈ s.toList, isBlank x = false := by
    intro s h x hx
    exact Bool.eq_false_iff.mpr (List.any_eq_false.mp h x hx)
  obtain ⟨hgrouped, -, -, -, hkept⟩ := resolve_text_resolve (hunbroken "_gb" (by decide +kernel))
    (hunbroken "FR-latn" (by decide +kernel)) (hunbroken "zh_Hant_TW" (by decide +kernel))
  refine ⟨hgrouped, hresolved, ?_⟩
  rw [hkept (by rw [hresolved]; decide) (by rw [hresolved]; rfl), hresolved]

end Phrasebook.LocaleCode
