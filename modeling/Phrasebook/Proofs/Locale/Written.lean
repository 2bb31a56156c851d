import Phrasebook.Locale.Code
import Phrasebook.Text.Case
/-!
# Reading back a written code

A code is written as its subtags with a hyphen between them. Read again, it is the same
code, unless its region looks like a script: then the region is passed over.
-/

namespace Phrasebook.LocaleCode

variable {code : LocaleCode}

/-- Whether a text is one subtag, with no blank at its ends or elsewhere. -/
def IsSubtag (text : String) : Prop :=
  ∀ c ∈ text.toList, isSeparator c = false ∧ Text.isBlank c = false

/-- A code that is written in the case of its subtags, each of them in one piece. -/
structure IsCanonical (code : LocaleCode) : Prop where
  language_lower : code.language.toLower = code.language
  language_subtag : IsSubtag code.language
  region_ne : code.region ≠ some ""
  region_upper : ∀ region, code.region = some region → region.toUpper = region
  region_subtag : ∀ region, code.region = some region → IsSubtag region

theorem isSeparator_of_isAlphanum {c : Char} (h : c.isAlphanum = true) : isSeparator c = false := by
  have hne : ∀ d : Char, d.isAlphanum = false → c ≠ d := by
    rintro _ hd rfl
    rw [hd] at h
    cases h
  simp [isSeparator, hne '-' (by decide), hne '_' (by decide)]

theorem isSubtag_of_isAlphanum {text : String} (h : ∀ c ∈ text.toList, c.isAlphanum = true) :
    IsSubtag text :=
  fun c hc => ⟨isSeparator_of_isAlphanum (h c hc), Text.isBlank_of_isAlphanum (h c hc)⟩

/-- The subtags of a written code. -/
theorem split_text (h : code.IsCanonical) :
    Text.split isSeparator (Text.trimChars code.text.toList) =
      (code.language.toList, (code.region.map String.toList).toList) := by
  obtain ⟨language, region⟩ := code
  have hlanguage := Text.split_of_none fun c hc => (h.language_subtag c hc).1
  cases region with
  | none =>
      rw [text, Text.trimChars_of_none fun c hc => (h.language_subtag c hc).2]
      exact hlanguage
  | some region =>
      have hregion := h.region_subtag region rfl
      have htext : (text ⟨language, some region⟩).toList =
          language.toList ++ '-' :: region.toList := by
        simp [text]
      have hblank : ∀ c ∈ language.toList ++ '-' :: region.toList, Text.isBlank c = false := by
        intro c hc
        rcases List.mem_append.mp hc with hc | hc
        · exact (h.language_subtag c hc).2
        · rcases List.mem_cons.mp hc with rfl | hc
          · decide
          · exact (hregion c hc).2
      rw [htext, Text.trimChars_of_none hblank, Text.split_append_break _ _ (by decide), hlanguage,
        Text.pieces, Text.split_of_none fun c hc => (hregion c hc).1]
      rfl

/-- A written code is split into its parts, without a region that looks like a script. -/
theorem split_written (h : code.IsCanonical) :
    split code.text = (code.language, code.region.filter fun r => !isScript r.toList) := by
  have hsplit := split_text h
  obtain ⟨language, region⟩ := code
  unfold split splitChars
  rw [hsplit]
  cases region with
  | none => simp
  | some region =>
      have hne : region ≠ "" := fun e => h.region_ne (e ▸ rfl)
      cases hscript : isScript region.toList with
      | true => simp [hscript, Option.filter]
      | false => simp [hne, hscript, Option.filter]

/-- A written code is read as the same code, without a region that looks like a script. -/
theorem parse_text (h : code.IsCanonical) :
    parse code.text = ⟨code.language, code.region.filter fun r => !isScript r.toList⟩ := by
  obtain ⟨language, region⟩ := code
  have hlower : language.toLower = language := h.language_lower
  unfold parse ofParts
  rw [split_written h]
  cases region with
  | none => simp [hlower]
  | some region =>
      have hupper : region.toUpper = region := h.region_upper region rfl
      have hne : region ≠ "" := fun e => h.region_ne (e ▸ rfl)
      cases hscript : isScript region.toList with
      | true => simp [hlower, hscript, Option.filter]
      | false => simp [hlower, hupper, hne, hscript, Option.filter]

end Phrasebook.LocaleCode
