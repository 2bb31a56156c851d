import Phrasebook.Locale.System
import Phrasebook.Proofs.Locale.Written
/-!
# The detected locale

Whatever an environment holds, the locale detected in it is the written form of a code
with a language and a region. It is read back as that code unless the environment has a
script where the region belongs.
-/

namespace Phrasebook.SystemLocale

open LocaleCode (IsSubtag IsCanonical isScript)

/-- The language and region that the first variable with a locale names. -/
def named? (lookup : String → Option String) (names : List String) :
    Option (String × Option String) :=
  names.findSome? fun name => (lookup name).bind parse?

/-- The code of what is named, with the fallbacks for what is not. -/
def codeOf : Option (String × Option String) → LocaleCode
  | some (language, region) => ⟨language, some (region.getD fallbackRegion)⟩
  | none => ⟨fallbackLanguage, some fallbackRegion⟩

/-- Whether the value that decides has a script where its region belongs. -/
def namesScript (lookup : String → Option String) : Bool :=
  (named? lookup variableNames).any fun found => found.2.any fun region => isScript region.toList

theorem detectFrom_eq_text (lookup : String → Option String) (names : List String) :
    detectFrom lookup names = (codeOf (named? lookup names)).text := by
  induction names with
  | nil => rfl
  | cons name names ih =>
      rw [detectFrom, named?, List.findSome?_cons]
      cases (lookup name).bind parse? with
      | none => exact ih
      | some found => rfl

/-! ### Well-formed values -/

/-- A region of letters and digits, of any case, as it is taken over. -/
theorem region_upper (cs : List Char) (hne : cs ≠ []) (halnum : ∀ c ∈ cs, c.isAlphanum = true) :
    String.ofList (cs.map Char.toUpper) ≠ "" ∧
      (String.ofList (cs.map Char.toUpper)).toUpper = String.ofList (cs.map Char.toUpper) ∧
      IsSubtag (String.ofList (cs.map Char.toUpper)) := by
  refine ⟨by simpa using hne, Text.toUpper_ofList_map cs, ?_⟩
  apply LocaleCode.isSubtag_of_isAlphanum
  intro c hc
  rw [String.toList_ofList] at hc
  obtain ⟨d, hd, rfl⟩ := List.mem_map.mp hc
  rw [Text.isAlphanum_toUpper]
  exact halnum d hd

theorem language_lower (cs : List Char) (halpha : ∀ c ∈ cs, c.isAlpha = true) :
    (String.ofList (cs.map Char.toLower)).toLower = String.ofList (cs.map Char.toLower) ∧
      IsSubtag (String.ofList (cs.map Char.toLower)) := by
  refine ⟨Text.toLower_ofList_map cs, ?_⟩
  apply LocaleCode.isSubtag_of_isAlphanum
  intro c hc
  rw [String.toList_ofList] at hc
  obtain ⟨d, hd, rfl⟩ := List.mem_map.mp hc
  rw [Char.isAlphanum, Text.isAlpha_toLower, halpha d hd, Bool.true_or]

/-- What a value names is taken from its letters and digits. -/
theorem exists_of_parse? {value language : String} {region : Option String}
    (h : parse? value = some (language, region)) :
    (∃ cs : List Char, (cs.length = 2 ∨ cs.length = 3) ∧ (∀ c ∈ cs, c.isAlpha = true) ∧
        language = String.ofList (cs.map Char.toLower)) ∧
      ∀ r, region = some r → ∃ cs : List Char, cs ≠ [] ∧ (∀ c ∈ cs, c.isAlphanum = true) ∧
        r = String.ofList (cs.map Char.toUpper) := by
  unfold parse? at h
  dsimp only at h
  split at h
  · cases h
  · split at h
    · rename_i hlanguage
      simp only [Bool.and_eq_true, Bool.or_eq_true, beq_iff_eq, List.all_eq_true] at hlanguage
      obtain ⟨hlength, halpha⟩ := hlanguage
      simp only [Option.some.injEq, Prod.mk.injEq] at h
      obtain ⟨hlower, hregion⟩ := h
      refine ⟨⟨_, hlength, halpha, hlower.symm⟩, ?_⟩
      intro r hr
      rw [← hregion] at hr
      obtain ⟨subtag, hsubtag, rfl⟩ := Option.map_eq_some_iff.mp hr
      have hword := (Option.filter_eq_some_iff.mp hsubtag).2
      simp only [Bool.and_eq_true, Bool.not_eq_true', List.isEmpty_eq_false_iff,
        List.all_eq_true] at hword
      exact ⟨subtag, hword.1, hword.2, rfl⟩
    · cases h

theorem isCanonical_fallback : (codeOf none).IsCanonical := by
  have hlanguage : fallbackLanguage = String.ofList (['e', 'n'].map Char.toLower) := by decide
  have hregion : fallbackRegion = String.ofList (['U', 'S'].map Char.toUpper) := by decide
  have hlower := language_lower ['e', 'n'] (List.all_eq_true.mp (by decide))
  obtain ⟨hne, hupper, hsubtag⟩ := region_upper ['U', 'S'] (by simp)
    (List.all_eq_true.mp (by decide))
  rw [← hlanguage] at hlower
  rw [← hregion] at hne hupper hsubtag
  refine ⟨hlower.1, hlower.2, fun e => hne (Option.some.inj e), ?_, ?_⟩
  · rintro _ ⟨⟩
    exact hupper
  · rintro _ ⟨⟩
    exact hsubtag

/-- What a value names is canonical, with a language. -/
theorem isCanonical_of_parse? {value : String} {found : String × Option String}
    (h : parse? value = some found) :
    (codeOf (some found)).IsCanonical ∧ (codeOf (some found)).language ≠ "" := by
  obtain ⟨language, region⟩ := found
  obtain ⟨⟨cs, hlength, halpha, rfl⟩, hregion⟩ := exists_of_parse? h
  have hne : cs ≠ [] := List.ne_nil_of_length_pos (by omega)
  obtain ⟨hlower, hsubtag⟩ := language_lower _ halpha
  have hword : region.getD fallbackRegion ≠ "" ∧
      (region.getD fallbackRegion).toUpper = region.getD fallbackRegion ∧
      IsSubtag (region.getD fallbackRegion) := by
    cases region with
    | none =>
        have hfallback := isCanonical_fallback
        exact ⟨by decide, hfallback.region_upper _ rfl, hfallback.region_subtag _ rfl⟩
    | some region =>
        obtain ⟨ds, hds, halnum, rfl⟩ := hregion region rfl
        exact region_upper _ hds halnum
  refine ⟨⟨hlower, hsubtag, ?_, ?_, ?_⟩, by simpa [codeOf] using hne⟩
  · exact fun e => hword.1 (Option.some.inj e)
  · rintro _ ⟨⟩
    exact hword.2.1
  · rintro _ ⟨⟩
    exact hword.2.2

/-- Whatever the environment, the code of what it names is canonical, with a language. -/
theorem isCanonical_named? (lookup : String → Option String) (names : List String) :
    (codeOf (named? lookup names)).IsCanonical ∧ (codeOf (named? lookup names)).language ≠ "" := by
  cases h : named? lookup names with
  | none => exact ⟨isCanonical_fallback, by decide⟩
  | some found =>
      obtain ⟨name, -, hfound⟩ := List.exists_of_findSome?_eq_some h
      obtain ⟨value, -, hvalue⟩ := Option.bind_eq_some_iff.mp hfound
      exact isCanonical_of_parse? hvalue

/-! ### Reading the detected locale -/

theorem region_codeOf (found : Option (String × Option String)) :
    ∃ region, (codeOf found).region = some region := by
  cases found <;> exact ⟨_, rfl⟩

/-- What is written is read back, without its region where the deciding value has a script
there. The fallback region is no script. -/
theorem parse_detect_eq (lookup : String → Option String) :
    LocaleCode.parse (detect lookup) =
      ⟨(codeOf (named? lookup variableNames)).language,
        if namesScript lookup then none else (codeOf (named? lookup variableNames)).region⟩ := by
  have hfallback : isScript fallbackRegion.toList = false := by decide
  rw [detect, detectFrom_eq_text, LocaleCode.parse_text (isCanonical_named? lookup _).1,
    LocaleCode.mk.injEq, namesScript]
  refine ⟨rfl, ?_⟩
  rcases named? lookup variableNames with _ | ⟨language, _ | region⟩
  · simp [codeOf, Option.filter, hfallback]
  · simp [codeOf, Option.filter, hfallback]
  · cases hscript : isScript region.toList <;> simp [codeOf, Option.filter, hscript]

/-- The locale of an environment, read back: its language is not empty. It is the code that
was written, with a region that any request falls back on, exactly if the value that
decides has no script where its region belongs. -/
theorem parse_detect (lookup : String → Option String) :
    let system := detect lookup
    let code := LocaleCode.parse system
    code.language ≠ "" ∧
      (code.region.isSome ↔ namesScript lookup = false) ∧
      (code.text = system ↔ namesScript lookup = false) ∧
      ((∀ request, (LocaleCode.resolve request system).region.isSome) ↔
        namesScript lookup = false) := by
  intro system code
  have hsystem : system = (codeOf (named? lookup variableNames)).text := detectFrom_eq_text ..
  have hcode : code = ⟨(codeOf (named? lookup variableNames)).language,
      if namesScript lookup then none else (codeOf (named? lookup variableNames)).region⟩ :=
    parse_detect_eq lookup
  have hresolve : ∀ request, (LocaleCode.resolve request system).region =
      (LocaleCode.parse request).region.or code.region := by
    intro request
    rw [LocaleCode.resolve, LocaleCode.region_orElse]
  obtain ⟨region, hregion⟩ := region_codeOf (named? lookup variableNames)
  refine ⟨?_, ?_⟩
  · rw [hcode]
    exact (isCanonical_named? lookup variableNames).2
  cases hscript : namesScript lookup with
  | false =>
      have hwritten : code = codeOf (named? lookup variableNames) := by
        rw [hcode, hscript]
        rfl
      have hsome : code.region.isSome := by rw [hwritten, hregion, Option.isSome_some]
      refine ⟨iff_of_true hsome rfl, iff_of_true (by rw [hwritten, hsystem]) rfl,
        iff_of_true (fun request => ?_) rfl⟩
      rw [hresolve, Option.isSome_or, hsome, Bool.or_true]
  | true =>
      have hnone : code.region = none := by rw [hcode, hscript, if_pos rfl]
      refine ⟨iff_of_false (by simp [hnone]) (by simp), iff_of_false (fun htext => ?_) (by simp),
        iff_of_false (fun h => ?_) (by simp)⟩
      · -- the written code is longer by a hyphen and the script
        have hlanguage : code.language = (codeOf (named? lookup variableNames)).language := by
          rw [hcode]
        have hlength := congrArg String.length htext
        rw [hsystem, LocaleCode.text, LocaleCode.text, hnone, hregion, hlanguage] at hlength
        simp only [String.length_append] at hlength
        have hhyphen : "-".length = 1 := rfl
        omega
      · have hempty : (LocaleCode.parse "").region = none := by decide +kernel
        have hrequest := h ""
        rw [hresolve, hempty, hnone] at hrequest
        cases hrequest

/-- A value with a script names no region that is read back. -/
theorem parse_detect_script :
    ¬ ∀ lookup : String → Option String,
      (LocaleCode.parse (detect lookup)).region.isSome ∧
        (LocaleCode.parse (detect lookup)).text = detect lookup ∧
        ∀ request, (LocaleCode.resolve request (detect lookup)).region.isSome := by
  intro h
  have hregion := (h fun name => if name = "LC_ALL" then some "sr_Latn_RS" else none).1
  revert hregion
  decide +kernel

end Phrasebook.SystemLocale
