import Phrasebook.Proofs.Locale.Spelling
import Phrasebook.Proofs.Plural.Stability
/-!
# Tags read as codes

A mandatory locale is read as a tag, with each kind of subtag in its place; a requested
locale is read as a code, where four-letter subtags are passed over wherever they stand.
Both find the same language and the same region. Where a tag has variants only, the code
takes one of them for its region: the first that is not four letters long.
-/

namespace Phrasebook

namespace LanguageTag

/-! ## Subtags by their kinds -/

/-- Whether the subtags behind the language are those of a tag: its script, its region and
its variants as they are written. -/
structure IsLaidOut (tag : LanguageTag) (subtags : List (List Char))
    (script region : Option (List Char)) (variants : List (List Char)) : Prop where
  subtags_eq : subtags = script.toList ++ region.toList ++ variants
  isScript : ∀ s ∈ script, isScript s = true
  isRegion : ∀ s ∈ region, isRegion s = true
  isVariant : ∀ s ∈ variants, isVariant s = true
  /-- The first subtag is the script if it can be. -/
  script_first : script = none → ∀ s ∈ subtags.head?, LanguageTag.isScript s = false
  script_eq : tag.script = script.map title
  region_eq : tag.region = region.map upper
  mem_variants : ∀ v, v ∈ tag.variants ↔ ∃ s ∈ variants, lower s = v

/-- The next subtag is taken just if it is of the kind. -/
theorem optional_cases (kind : List Char → Bool) (subtags : List (List Char)) :
    (∃ s rest, subtags = s :: rest ∧ kind s = true ∧
        optional kind subtags = (some s, rest)) ∨
      (∀ s ∈ subtags.head?, kind s = false) ∧ optional kind subtags = (none, subtags) := by
  cases subtags with
  | nil => exact .inr ⟨by simp, rfl⟩
  | cons s rest =>
      have hnext : optional kind (s :: rest) =
          if kind s then (some s, rest) else (none, s :: rest) := rfl
      by_cases hs : kind s = true
      · exact .inl ⟨s, rest, rfl, hs, by rw [hnext, if_pos hs]⟩
      · refine .inr ⟨?_, by rw [hnext, if_neg hs]⟩
        rintro _ ⟨⟩
        exact Bool.eq_false_iff.mpr hs

/-- What is taken is of the kind, and stands in front of what is left. -/
theorem append_optional (kind : List Char → Bool) (subtags : List (List Char)) :
    (optional kind subtags).1.toList ++ (optional kind subtags).2 = subtags ∧
      ∀ s ∈ (optional kind subtags).1, kind s = true := by
  obtain ⟨s, rest, rfl, hs, htaken⟩ | ⟨-, hleft⟩ := optional_cases kind subtags
  · rw [htaken]
    refine ⟨rfl, ?_⟩
    rintro _ ⟨⟩
    exact hs
  · rw [hleft]
    exact ⟨rfl, by simp⟩

theorem kind_of_not_optional {kind : List Char → Bool} {subtags : List (List Char)}
    (h : (optional kind subtags).1 = none) : ∀ s ∈ subtags.head?, kind s = false := by
  obtain ⟨s, rest, -, -, htaken⟩ | ⟨hkind, -⟩ := optional_cases kind subtags
  · rw [htaken] at h
    cases h
  · exact hkind

/-- The subtags of a tag that is read stand in their places. -/
theorem exists_isLaidOut {first : List Char} {rest : List (List Char)} {tag : LanguageTag}
    (h : ofSubtags? first rest = some tag) :
    ∃ script region variants, IsLaidOut tag rest script region variants := by
  unfold ofSubtags? at h
  split at h
  · dsimp only at h
    split at h
    · rename_i hvariants
      cases h
      refine ⟨(optional isScript rest).1, (optional isRegion (optional isScript rest).2).1,
        (optional isRegion (optional isScript rest).2).2, ?_⟩
      constructor
      · rw [List.append_assoc, (append_optional isRegion _).1, (append_optional isScript rest).1]
      · exact (append_optional isScript rest).2
      · exact (append_optional isRegion _).2
      · exact List.all_eq_true.mp hvariants
      · exact kind_of_not_optional
      · rfl
      · rfl
      · intro v
        rw [List.mem_eraseDups, List.mem_mergeSort, List.mem_map]
    · cases h
  · cases h

variable {tag : LanguageTag} {subtags : List (List Char)} {script region : Option (List Char)}
  {variants : List (List Char)}

/-- The variants stand behind the script and the region. -/
theorem IsLaidOut.drop_eq (h : IsLaidOut tag subtags script region variants) :
    subtags.drop (tag.script.toList ++ tag.region.toList).length = variants := by
  have hlength : (tag.script.toList ++ tag.region.toList).length =
      (script.toList ++ region.toList).length := by
    rw [h.script_eq, h.region_eq, Option.toList_map, Option.toList_map]
    simp only [List.length_append, List.length_map]
  rw [hlength, h.subtags_eq, List.drop_left]

theorem isScript_of_isRegion {s : List Char} (h : isRegion s = true) :
    LocaleCode.isScript s = false ∧ s ≠ [] := by
  have hlength : s.length = 2 ∨ s.length = 3 := by
    simp only [isRegion, Bool.or_eq_true, Bool.and_eq_true, beq_iff_eq] at h
    exact h.imp And.left And.left
  refine ⟨?_, List.ne_nil_of_length_pos (by omega)⟩
  have hfour : (s.length == 4) = false := by
    rw [beq_eq_false_iff_ne]
    omega
  rw [LocaleCode.isScript, hfour, Bool.false_and]

theorem ne_nil_of_isVariant {s : List Char} (h : isVariant s = true) : s ≠ [] := by
  apply List.ne_nil_of_length_pos
  simp only [isVariant, Bool.and_eq_true, Bool.or_eq_true, decide_eq_true_eq, beq_iff_eq] at h
  omega

/-- The region of a code that is written as a tag is that of the tag, else its first variant
that is no script. -/
theorem IsLaidOut.regionOf_eq (h : IsLaidOut tag subtags script region variants) :
    LocaleCode.regionOf subtags =
      region.or (variants.find? fun s => !LocaleCode.isScript s) := by
  have hscript : script.toList.find? (fun s => !LocaleCode.isScript s) = none := by
    rw [List.find?_eq_none]
    intro s hs
    have hs : LocaleCode.isScript s = true := h.isScript s (Option.mem_toList.mp hs)
    simp [hs]
  have hregion : region.toList.find? (fun s => !LocaleCode.isScript s) = region := by
    cases region with
    | none => rfl
    | some s => simp [(isScript_of_isRegion (h.isRegion s rfl)).1]
  have hfound : ∀ s, region.or (variants.find? fun s => !LocaleCode.isScript s) = some s →
      s ≠ [] := by
    intro s hs
    rcases Option.or_eq_some_iff.mp hs with hs | ⟨-, hs⟩
    · exact (isScript_of_isRegion (h.isRegion s hs)).2
    · exact ne_nil_of_isVariant (h.isVariant s (List.mem_of_find?_eq_some hs))
  rw [LocaleCode.regionOf, h.subtags_eq, List.find?_append, List.find?_append, hscript, hregion,
    Option.none_or]
  cases hnamed : region.or (variants.find? fun s => !LocaleCode.isScript s) with
  | none => rfl
  | some s => rw [Option.filter_some, if_pos (by simpa using hfound s hnamed)]

/-- The variants of a text that is read as a tag, as they are written: the subtags behind the
language, the script and the region. -/
def writtenVariants (s : String) (tag : LanguageTag) : List (List Char) :=
  (LocaleCode.subtags s).2.drop (tag.script.toList ++ tag.region.toList).length

end LanguageTag

namespace Plural

open LanguageTag (writtenVariants upper lower)

/-- A text that is accepted as a locale names the same language when it is read as a code,
and the same region if it names one. Without a region, the variants that are four letters
long are passed over, and the first other one stands for the region; they can only be first
behind a script. -/
theorem parse_of_localeArgument {s : String} {tag : LanguageTag} (h : localeArgument s = .ok tag) :
    let code := LocaleCode.parse s
    let variants := writtenVariants s tag
    tag.language = some code.language ∧
      (∀ region, tag.region = some region → code.region = some region) ∧
      (tag.region = none → tag.variants = [] → code.region = none) ∧
      (tag.region = none →
        code.region = (variants.find? fun v => !LocaleCode.isScript v).map upper) ∧
      (tag.region = none → tag.script = none → code.region = variants.head?.map upper) ∧
      ∀ v, v ∈ tag.variants ↔ ∃ w ∈ variants, lower w = v := by
  intro code variants
  obtain ⟨hread, hsome⟩ : LanguageTag.ofSubtags? (LocaleCode.subtags s).1
      (LocaleCode.subtags s).2 = some tag ∧ tag.language.isSome = true :=
    LanguageTag.ofSubtags?_of_ofArgument? (localeArgument_eq_ok_iff.mp h)
  obtain ⟨script, region, written, hlaid⟩ := LanguageTag.exists_isLaidOut hread
  obtain rfl : variants = written := hlaid.drop_eq
  have hlanguage : tag.languageText = code.language := by
    rw [(LanguageTag.languageText_of_ofSubtags? hread).2, LocaleCode.language_parse, lower]
  have hregion : code.region =
      tag.region.or ((variants.find? fun v => !LocaleCode.isScript v).map upper) := by
    rw [hlaid.region_eq, ← Option.map_or, ← hlaid.regionOf_eq]
    exact congrArg LocaleCode.region (LocaleCode.parse_eq s)
  refine ⟨?_, ?_, ?_, ?_, ?_, hlaid.mem_variants⟩
  · obtain ⟨language, hlanguage'⟩ := Option.isSome_iff_exists.mp hsome
    rw [← hlanguage, LanguageTag.languageText, hlanguage', Option.getD_some]
  · intro region hsome
    rw [hregion, hsome, Option.some_or]
  · intro hnone hempty
    have hnil : variants = [] := by
      rw [List.eq_nil_iff_forall_not_mem]
      intro w hw
      have hmem := (hlaid.mem_variants (lower w)).mpr ⟨w, hw, rfl⟩
      rw [hempty] at hmem
      cases hmem
    rw [hregion, hnone, hnil]
    rfl
  · intro hnone
    rw [hregion, hnone, Option.none_or]
  · intro hnone hscript
    rw [hregion, hnone, Option.none_or]
    rw [hlaid.script_eq, Option.map_eq_none_iff] at hscript
    rw [hlaid.region_eq, Option.map_eq_none_iff] at hnone
    have hsubtags := hlaid.subtags_eq
    have hfirst := hlaid.script_first hscript
    subst hscript hnone
    rw [hsubtags] at hfirst
    cases hvariants : variants with
    | nil => rfl
    | cons v rest =>
        rw [hvariants] at hfirst
        have hv : LocaleCode.isScript v = false := hfirst v rfl
        rw [List.find?_cons_of_pos (by simp [hv]), List.head?_cons]

/-- Behind a script, the first of two variants is passed over. -/
theorem parse_of_localeArgument_variants :
    localeArgument " SL_latn-Abcd_Rozaj" =
        .ok ⟨some "sl", some "Latn", none, ["abcd", "rozaj"]⟩ ∧
      LocaleCode.parse " SL_latn-Abcd_Rozaj" = ⟨"sl", some "ROZAJ"⟩ := by
  have hsplit : Text.split LocaleCode.isSeparator (Text.trim " SL_latn-Abcd_Rozaj").toList =
      (['S', 'L'], [['l', 'a', 't', 'n'], ['A', 'b', 'c', 'd'], ['R', 'o', 'z', 'a', 'j']]) := by
    decide +kernel
  have hsorted : (["abcd", "rozaj"].mergeSort fun a b => decide (a ≤ b)) = ["abcd", "rozaj"] :=
    List.mergeSort_of_pairwise (by decide)
  have htag : LanguageTag.parse? (Text.trim " SL_latn-Abcd_Rozaj") = some ⟨some "sl", some "Latn",
      none, (["abcd", "rozaj"].mergeSort fun a b => decide (a ≤ b)).eraseDups⟩ := by
    rw [LanguageTag.parse?, hsplit]
    rfl
  have hread : localeArgument " SL_latn-Abcd_Rozaj" =
      .ok ⟨some "sl", some "Latn", none, ["abcd", "rozaj"]⟩ := by
    rw [hsorted] at htag
    apply localeArgument_eq_ok_iff.mpr
    unfold LanguageTag.ofArgument?
    rw [htag]
    rfl
  obtain ⟨hlanguage, -, -, hregion, -⟩ := parse_of_localeArgument hread
  have hnamed : (LocaleCode.parse " SL_latn-Abcd_Rozaj").region = some "ROZAJ" :=
    (hregion rfl).trans (by decide +kernel)
  refine ⟨hread, ?_⟩
  rw [LocaleCode.mk.injEq]
  exact ⟨(Option.some.inj hlanguage).symm, hnamed⟩

/-- A variant of four letters is not taken for the region, even if it is written first. -/
theorem parse_of_localeArgument_script :
    ¬ ∀ (s : String) (tag : LanguageTag), localeArgument s = .ok tag →
      tag.language = some (LocaleCode.parse s).language ∧
        (∀ region, tag.region = some region → (LocaleCode.parse s).region = some region) ∧
        (tag.region = none → tag.variants = [] → (LocaleCode.parse s).region = none) ∧
        (tag.region = none → ∀ first, (writtenVariants s tag).head? = some first →
          (LocaleCode.parse s).region = some (upper first)) := by
  intro h
  have hread : localeArgument "en-Latn-Latn" = .ok ⟨some "en", some "Latn", none, ["latn"]⟩ :=
    localeArgument_eq_ok_iff.mpr (by decide +kernel)
  have hregion := (h "en-Latn-Latn" _ hread).2.2.2 rfl ['L', 'a', 't', 'n'] (by decide +kernel)
  revert hregion
  decide +kernel

end Plural

end Phrasebook
