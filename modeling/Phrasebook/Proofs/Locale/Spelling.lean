import Mathlib.Logic.Relation
import Phrasebook.Proofs.Locale.Written
/-!
# Spellings of a locale code

Reading a code is lenient, so one locale can be requested under many texts. They are read
as the same code when they differ in the case of letters, in the separators, in scripts
behind the language, in what follows a region and in blanks around the whole. And what is
read of a text without blanks is read again from its written form.

## Implementation notes

`Respelled` has one constructor for each of these changes, and the spellings of a code are
its classes: a chain of changes may go through texts that are longer or shorter.
-/

namespace Phrasebook

namespace LocaleCode

open Text (isBlank trimChars)

/-! ## Subtags -/

/-- The subtags of a code, the first one apart. -/
def subtags (code : String) : List Char × List (List Char) :=
  Text.split isSeparator (trimChars code.toList)

/-- The subtag that names the region: the first that is no script, if it is not empty. -/
def regionOf (subtags : List (List Char)) : Option (List Char) :=
  (subtags.find? fun s => !isScript s).filter fun s => !s.isEmpty

/-- A code is read subtag by subtag. -/
theorem parse_eq (code : String) : parse code =
    ⟨String.ofList ((subtags code).1.map Char.toLower),
      (regionOf (subtags code).2).map fun s => String.ofList (s.map Char.toUpper)⟩ := by
  have hlower (cs : List Char) : (String.ofList cs).toLower = String.ofList (cs.map Char.toLower) :=
    String.toList_inj.mp (by simp)
  have hupper (cs : List Char) : (String.ofList cs).toUpper = String.ofList (cs.map Char.toUpper) :=
    String.toList_inj.mp (by simp)
  have hparse : parse code = ofParts (String.ofList (subtags code).1)
      ((regionOf (subtags code).2).map String.ofList) := rfl
  rw [hparse, ofParts, hlower]
  congr 1
  cases hregion : regionOf (subtags code).2 with
  | none => rfl
  | some region =>
      have hne : region ≠ [] := by simpa using (Option.filter_eq_some_iff.mp hregion).2
      simp [Option.filter, hne, hupper]

theorem language_parse (code : String) :
    (parse code).language = String.ofList ((subtags code).1.map Char.toLower) := by
  rw [parse_eq]

/-- A region is made of a subtag that is no script. -/
theorem exists_of_region {code region : String} (h : (parse code).region = some region) :
    ∃ s ∈ (subtags code).2, s ≠ [] ∧ isScript s = false ∧
      region = String.ofList (s.map Char.toUpper) := by
  rw [parse_eq, Option.map_eq_some_iff] at h
  obtain ⟨s, hs, rfl⟩ := h
  obtain ⟨hfind, hne⟩ := Option.filter_eq_some_iff.mp hs
  have hscript := List.find?_some hfind
  exact ⟨s, List.mem_of_find?_eq_some hfind, by simpa using hne, by simpa using hscript, rfl⟩

theorem parse_congr {a b : String} (h : subtags a = subtags b) : parse a = parse b := by
  rw [parse_eq, parse_eq, h]

theorem isSeparator_of_isAlpha {c : Char} (h : c.isAlpha = true) : isSeparator c = false :=
  isSeparator_of_isAlphanum (by rw [Char.isAlphanum, h, Bool.true_or])

/-- Languages and regions are pieces between separators, in one case. -/
theorem isSeparator_of_mem_language {code : String} {c : Char}
    (h : c ∈ (parse code).language.toList) : isSeparator c = false := by
  rw [language_parse, String.toList_ofList, List.mem_map] at h
  obtain ⟨d, hd, rfl⟩ := h
  rw [Text.apply_toLower fun c => isSeparator_of_isAlpha]
  exact (Text.of_mem_pieces List.mem_cons_self hd).2

theorem isSeparator_of_mem_region {code region : String} {c : Char}
    (hregion : (parse code).region = some region) (h : c ∈ region.toList) :
    isSeparator c = false := by
  obtain ⟨s, hs, -, -, rfl⟩ := exists_of_region hregion
  rw [String.toList_ofList, List.mem_map] at h
  obtain ⟨d, hd, rfl⟩ := h
  rw [Text.apply_toUpper fun c => isSeparator_of_isAlpha]
  exact (Text.of_mem_pieces (List.mem_cons_of_mem _ hs) hd).2

theorem isBlank_of_isSeparator {c : Char} (h : isSeparator c = true) : isBlank c = false := by
  rcases (by simpa [isSeparator] using h : c = '-' ∨ c = '_') with rfl | rfl
  · decide
  · decide

/-! ## Case and separators -/

theorem isScript_map {f : Char → Char} (hf : ∀ c, (f c).isAlpha = c.isAlpha) (s : List Char) :
    isScript (s.map f) = isScript s := by
  simp only [isScript, List.length_map, List.all_map, Function.comp_def, hf]

/-- The region is found in the same place, whatever the case of its letters. -/
theorem regionOf_map {f : Char → Char} (hf : ∀ c, (f c).isAlpha = c.isAlpha)
    (subtags : List (List Char)) :
    regionOf (subtags.map (List.map f)) = (regionOf subtags).map (List.map f) := by
  have hscript : (fun s => !isScript s) ∘ List.map f = fun s => !isScript s :=
    funext fun s => by simp [isScript_map hf]
  have hempty : (fun s : List Char => !s.isEmpty) ∘ List.map f = fun s => !s.isEmpty :=
    funext fun s => by simp
  rw [regionOf, List.find?_map, hscript, Option.filter_map, hempty, regionOf]

theorem parse_toLower (code : String) : parse code.toLower = parse code := by
  have hblank := Text.apply_toLower fun c => Text.isBlank_of_isAlpha
  have hseparator := Text.apply_toLower fun c => isSeparator_of_isAlpha
  have hsubtags : subtags code.toLower = ((subtags code).1.map Char.toLower,
      (subtags code).2.map (List.map Char.toLower)) := by
    rw [subtags, Text.toList_toLower, Text.trimChars_map hblank,
      Text.split_map hseparator, subtags]
  rw [parse_eq, parse_eq, hsubtags, regionOf_map Text.isAlpha_toLower]
  simp only [List.map_map, Option.map_map, Function.comp_def, Text.toLower_toLower,
    Text.toUpper_toLower]

/-- Writes every separator as a hyphen. -/
def hyphen (c : Char) : Char := if isSeparator c then '-' else c

theorem parse_hyphen (code : String) : parse (code.map hyphen) = parse code := by
  have hseparator : ∀ c, isSeparator (hyphen c) = isSeparator c := by
    intro c
    unfold hyphen
    split
    · rename_i hc
      exact hc.symm
    · rfl
  have hblank : ∀ c, isBlank (hyphen c) = isBlank c := by
    intro c
    unfold hyphen
    split
    · rename_i hc
      rw [isBlank_of_isSeparator hc, isBlank_of_isSeparator (c := '-') rfl]
    · rfl
  have hother : ∀ c, isSeparator c = false → hyphen c = c := by
    intro c hc
    rw [hyphen, hc, if_neg Bool.false_ne_true]
  apply parse_congr
  rw [subtags, String.toList_map, Text.trimChars_map hblank,
    Text.split_map_breaks hseparator hother, subtags]

/-! ## Scripts, further subtags and blanks -/

/-- A script behind the language is passed over. -/
theorem parse_script {language script tail : List Char} {separator : Char}
    (htrim : trimChars (language ++ tail) = language ++ tail)
    (hlanguage : ∀ c ∈ language, isSeparator c = false)
    (htail : ∀ c ∈ tail.head?, isSeparator c = true) (hseparator : isSeparator separator = true)
    (hscript : isScript script = true) :
    parse (String.ofList (language ++ separator :: script ++ tail)) =
      parse (String.ofList (language ++ tail)) := by
  have halpha : ∀ c ∈ script, c.isAlpha = true := by
    simp only [isScript, Bool.and_eq_true, List.all_eq_true] at hscript
    exact hscript.2
  have hinserted : ∀ c ∈ separator :: script, isBlank c = false := by
    rw [List.forall_mem_cons]
    exact ⟨isBlank_of_isSeparator hseparator, fun c hc => Text.isBlank_of_isAlpha (halpha c hc)⟩
  have hpiece : Text.pieces isSeparator (script ++ tail) =
      script :: (Text.split isSeparator tail).2 := by
    rw [Text.pieces, Text.split_append_of_none
      (fun c hc => isSeparator_of_isAlpha (halpha c hc)) htail]
  have hshort : subtags (String.ofList (language ++ tail)) =
      (language, (Text.split isSeparator tail).2) := by
    rw [subtags, String.toList_ofList, htrim, Text.split_append_of_none hlanguage htail]
  have hlong : subtags (String.ofList (language ++ separator :: script ++ tail)) =
      (language, script :: (Text.split isSeparator tail).2) := by
    rw [subtags, String.toList_ofList, Text.trimChars_insert htrim hinserted, List.append_assoc,
      List.cons_append, Text.split_append_break _ _ hseparator, hpiece,
      Text.split_of_none hlanguage, List.nil_append]
  have hregion : ∀ rest, regionOf (script :: rest) = regionOf rest := by
    intro rest
    rw [regionOf, List.find?_cons_of_neg (by simp [hscript]), regionOf]
  rw [parse_eq, parse_eq, hshort, hlong, hregion]

/-- What follows a region is passed over. -/
theorem parse_further {code : String} {separator : Char} (htrim : Text.trim code = code)
    (hregion : (parse code).region.isSome = true) (hseparator : isSeparator separator = true)
    (further : List Char) :
    parse (code ++ String.ofList (separator :: further)) = parse code := by
  replace htrim : trimChars code.toList = code.toList := by
    simpa [Text.trim] using congrArg String.toList htrim
  obtain ⟨hstart, -⟩ := Text.trimChars_eq_self_iff.mp htrim
  obtain ⟨kept, hkept⟩ := Text.exists_trimChars_append_cons hstart
    (isBlank_of_isSeparator hseparator) further
  have hsubtags : subtags (code ++ String.ofList (separator :: further)) =
      ((subtags code).1, (subtags code).2 ++ Text.pieces isSeparator kept) := by
    rw [subtags, String.toList_append, String.toList_ofList, hkept,
      Text.split_append_break _ _ hseparator, subtags, htrim]
  have hfound : regionOf ((subtags code).2 ++ Text.pieces isSeparator kept) =
      regionOf (subtags code).2 := by
    rw [parse_eq] at hregion
    obtain ⟨region, hregion⟩ := Option.isSome_iff_exists.mp (Option.isSome_map ▸ hregion)
    obtain ⟨hfind, -⟩ := Option.filter_eq_some_iff.mp hregion
    rw [regionOf, List.find?_append, hfind, Option.some_or, ← hfind, regionOf]
  rw [parse_eq, parse_eq, hsubtags, hfound]

/-- Blanks around a code are passed over. -/
theorem parse_blanks {front back : List Char} (hfront : ∀ c ∈ front, isBlank c = true)
    (hback : ∀ c ∈ back, isBlank c = true) (code : String) :
    parse (String.ofList front ++ code ++ String.ofList back) = parse code := by
  apply parse_congr
  rw [subtags, String.toList_append, String.toList_append, String.toList_ofList,
    String.toList_ofList, Text.trimChars_blanks hfront hback, subtags]

/-! ## Spellings -/

/-- One change of a code that does not change what is read. -/
inductive Respelled : String → String → Prop
  /-- The case of letters. -/
  | recased {a b : String} (h : a.toLower = b.toLower) : Respelled a b
  /-- The characters that separate subtags. -/
  | separated {a b : String} (h : a.map hyphen = b.map hyphen) : Respelled a b
  /-- A script directly behind the language. -/
  | script {language tail : List Char} {separator : Char} {script : List Char}
    (htrim : trimChars (language ++ tail) = language ++ tail)
    (hlanguage : ∀ c ∈ language, isSeparator c = false)
    (htail : ∀ c ∈ tail.head?, isSeparator c = true) (hseparator : isSeparator separator = true)
    (hscript : isScript script = true) :
    Respelled (String.ofList (language ++ tail))
      (String.ofList (language ++ separator :: script ++ tail))
  /-- Anything behind a region and a separator. -/
  | further {code : String} {separator : Char} (further : List Char)
    (htrim : Text.trim code = code) (hregion : (parse code).region.isSome = true)
    (hseparator : isSeparator separator = true) :
    Respelled code (code ++ String.ofList (separator :: further))
  /-- Blanks around the whole. -/
  | blanks {front back : List Char} (code : String) (hfront : ∀ c ∈ front, isBlank c = true)
    (hback : ∀ c ∈ back, isBlank c = true) :
    Respelled code (String.ofList front ++ code ++ String.ofList back)

theorem parse_of_respelled {a b : String} (h : Respelled a b) : parse a = parse b := by
  cases h with
  | recased h => rw [← parse_toLower a, h, parse_toLower]
  | separated h => rw [← parse_hyphen a, h, parse_hyphen]
  | script htrim hlanguage htail hseparator hscript =>
      exact (parse_script htrim hlanguage htail hseparator hscript).symm
  | further more htrim hregion hseparator =>
      exact (parse_further htrim hregion hseparator more).symm
  | blanks code hfront hback => exact (parse_blanks hfront hback a).symm

/-- Texts that are spellings of one code. -/
def SameSpelling : String → String → Prop := Relation.EqvGen Respelled

/-- All spellings of a code are read alike. -/
theorem parse_of_sameSpelling {a b : String} (h : SameSpelling a b) : parse a = parse b := by
  induction h with
  | rel a b h => exact parse_of_respelled h
  | refl a => rfl
  | symm a b _ ih => exact ih.symm
  | trans a b c _ _ hab hbc => exact hab.trans hbc

/-! ## Reading twice -/

/-- A region is not empty and no script. -/
theorem ne_of_region {code region : String} (h : (parse code).region = some region) :
    region ≠ "" ∧ isScript region.toList = false := by
  obtain ⟨s, -, hne, hscript, rfl⟩ := exists_of_region h
  rw [String.toList_ofList, isScript_map Text.isAlpha_toUpper]
  exact ⟨fun he => hne (by simpa using congrArg String.toList he), hscript⟩

/-- What is read is written in the case of its parts, and can be read again if each part
is one subtag. -/
theorem isCanonical_parse {code : String} (hlanguage : IsSubtag (parse code).language)
    (hregion : ∀ region, (parse code).region = some region → IsSubtag region) :
    (parse code).IsCanonical := by
  constructor
  · rw [language_parse, Text.toLower_ofList_map]
  · exact hlanguage
  · exact fun hempty => (ne_of_region hempty).1 rfl
  · intro region hsome
    obtain ⟨s, -, -, -, rfl⟩ := exists_of_region hsome
    exact Text.toUpper_ofList_map s
  · exact hregion

theorem region_filter_parse (code : String) :
    ((parse code).region.filter fun r => !isScript r.toList) = (parse code).region := by
  cases hregion : (parse code).region with
  | none => rfl
  | some region =>
      rw [Option.filter_some, (ne_of_region hregion).2]
      rfl

/-- What is read of a text without blanks can be read again. -/
theorem isCanonical_parse_of_unbroken {code : String}
    (h : ∀ c ∈ code.toList, isBlank c = false) : (parse code).IsCanonical := by
  have hblank : ∀ piece ∈ (subtags code).1 :: (subtags code).2, ∀ c ∈ piece, isBlank c = false :=
    fun piece hpiece c hc => h c (Text.mem_of_mem_trimChars (Text.of_mem_pieces hpiece hc).1)
  have hlanguage : IsSubtag (parse code).language := by
    intro c hc
    refine ⟨isSeparator_of_mem_language hc, ?_⟩
    rw [language_parse, String.toList_ofList, List.mem_map] at hc
    obtain ⟨d, hd, rfl⟩ := hc
    rw [Text.apply_toLower fun c => Text.isBlank_of_isAlpha]
    exact hblank _ List.mem_cons_self d hd
  have hregion : ∀ region, (parse code).region = some region → IsSubtag region := by
    intro region hsome c hc
    refine ⟨isSeparator_of_mem_region hsome hc, ?_⟩
    obtain ⟨s, hs, -, -, rfl⟩ := exists_of_region hsome
    rw [String.toList_ofList, List.mem_map] at hc
    obtain ⟨d, hd, rfl⟩ := hc
    rw [Text.apply_toUpper fun c => Text.isBlank_of_isAlpha]
    exact hblank s (List.mem_cons_of_mem _ hs) d hd
  exact isCanonical_parse hlanguage hregion

/-- What is read of a text without blanks is read again from its written form. -/
theorem parse_text_parse {code : String} (h : ∀ c ∈ code.toList, isBlank c = false) :
    parse (parse code).text = parse code := by
  rw [parse_text (isCanonical_parse_of_unbroken h), region_filter_parse]

/-- A text with a language is not blank. -/
theorem isBlankText_of_language {code : String} (h : (parse code).language ≠ "") :
    Text.isBlankText code = false := by
  rw [← Bool.not_eq_true]
  intro hblank
  have htrim := Text.trimChars_blanks (List.all_eq_true.mp hblank)
    (List.forall_mem_nil fun c => isBlank c = true) []
  rw [List.append_nil, List.append_nil] at htrim
  apply h
  rw [language_parse, subtags, htrim]
  rfl

theorem toList_text (code : LocaleCode) :
    code.text.toList = code.language.toList ++ code.region.elim [] fun r => '-' :: r.toList := by
  obtain ⟨language, _ | region⟩ := code
  · simp [text]
  · simp [text]

/-- There are no blanks around what is the written form of what is read of it. -/
theorem trimChars_of_text_parse {code : String} (h : (parse code).text = code) :
    trimChars code.toList = code.toList := by
  apply (Text.trimChars_sublist code.toList).eq_of_length_le
  have hlanguage : (parse code).language.toList.length = (subtags code).1.length := by
    rw [language_parse, String.toList_ofList, List.length_map]
  -- all that is read stands in the trimmed text
  have hroom : (parse code).text.toList.length ≤ (trimChars code.toList).length := by
    rw [toList_text, List.length_append, hlanguage]
    cases hregion : (parse code).region with
    | none => exact Text.length_split_le isSeparator _
    | some region =>
        obtain ⟨s, hs, -, -, rfl⟩ := exists_of_region hregion
        have hlength := Text.length_of_mem_split hs
        simpa [subtags, Nat.add_assoc, Nat.add_comm 1] using hlength
  rwa [h] at hroom

/-- Such a text is split into the parts that are read of it, in the case that they have. -/
theorem split_of_text_parse {code : String} (h : (parse code).text = code) :
    split code = ((parse code).language, (parse code).region) := by
  have hlanguage : ∀ c ∈ (parse code).language.toList, isSeparator c = false :=
    fun _ => isSeparator_of_mem_language
  have hsubtags : subtags code = ((parse code).language.toList,
      ((parse code).region.map String.toList).toList) := by
    have hchars := toList_text (parse code)
    rw [h] at hchars
    rw [subtags, trimChars_of_text_parse h, hchars]
    cases hregion : (parse code).region with
    | none => simpa using Text.split_of_none hlanguage
    | some region =>
        have hpiece := Text.split_of_none fun c => isSeparator_of_mem_region hregion (c := c)
        refine (Text.split_append_break _ _ rfl).trans ?_
        rw [Text.split_of_none hlanguage, Text.pieces, hpiece]
        rfl
  have hsplit : split code = (String.ofList (subtags code).1,
      (regionOf (subtags code).2).map String.ofList) := rfl
  rw [hsplit, hsubtags]
  cases hregion : (parse code).region with
  | none => simp [regionOf]
  | some region =>
      obtain ⟨hne, hscript⟩ := ne_of_region hregion
      have hfound : regionOf [region.toList] = some region.toList := by
        simp [regionOf, hscript, Option.filter, hne]
      simp [hfound]

theorem resolve_of_sameSpelling {a b : String} (h : SameSpelling a b) (system : String) :
    resolve a system = resolve b system := by
  rw [resolve, resolve, parse_of_sameSpelling h]

/-- A code with a region is respelled in all ways. -/
theorem sameSpelling_padded : SameSpelling "fr_CA" " FR-Latn-ca-x " := by
  have hlower : "fr_CA".toLower = "FR_ca".toLower := by
    rw [← String.toList_inj, Text.toList_toLower, Text.toList_toLower]
    decide
  have hhyphen : "FR_ca".map LocaleCode.hyphen = "FR-ca".map LocaleCode.hyphen := by
    rw [← String.toList_inj, String.toList_map, String.toList_map]
    decide
  have hscript := @Respelled.script ['F', 'R'] ['-', 'c', 'a'] '-' ['L', 'a', 't', 'n']
    (by decide) (by simp [isSeparator]) (by simp [isSeparator]) rfl rfl
  have hfurther := @Respelled.further "FR-Latn-ca" '-' ['x'] (by decide +kernel)
    (by decide +kernel) rfl
  have hblanks := @Respelled.blanks [' '] [' '] "FR-Latn-ca-x" (List.forall_mem_singleton.mpr rfl)
    (List.forall_mem_singleton.mpr rfl)
  rw [show String.ofList (['F', 'R'] ++ ['-', 'c', 'a']) = "FR-ca" by decide +kernel,
    show String.ofList (['F', 'R'] ++ '-' :: ['L', 'a', 't', 'n'] ++ ['-', 'c', 'a']) =
      "FR-Latn-ca" by decide +kernel] at hscript
  rw [show "FR-Latn-ca" ++ String.ofList ['-', 'x'] = "FR-Latn-ca-x" by decide +kernel] at hfurther
  rw [show String.ofList [' '] ++ "FR-Latn-ca-x" ++ String.ofList [' '] = " FR-Latn-ca-x " by
    decide +kernel] at hblanks
  have hfirst := (Relation.EqvGen.rel _ _ (Respelled.recased hlower)).trans _ _ _
    (.rel _ _ (Respelled.separated hhyphen))
  have hlast := (Relation.EqvGen.rel _ _ hfurther).trans _ _ _ (.rel _ _ hblanks)
  exact (hfirst.trans _ _ _ (.rel _ _ hscript)).trans _ _ _ hlast

end LocaleCode

end Phrasebook
