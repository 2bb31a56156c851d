import Phrasebook.Proofs.Locale.Tags
import Mathlib.Data.List.Basic
/-!
# Tags are told by their texts

The text of a tag holds its subtags, each behind a hyphen. A variant may hold a hyphen of its
own if it is four characters long, so that the text does not show where its subtags end. It
still belongs to one tag only: a variant that was cut at its hyphen would leave a hyphen in
front of the next one, and so on up to the end, where nothing is left to take it up.
-/

namespace Phrasebook.LanguageTag

/-- Whether the subtags of a tag are of their kinds and in their case. -/
structure IsWellFormed (tag : LanguageTag) : Prop where
  language : ∀ s ∈ tag.language, isLanguage s.toList = true ∧ s.toLower = s ∧ s ≠ "und"
  script : ∀ s ∈ tag.script, isScript s.toList = true ∧ title s.toList = s
  region : ∀ s ∈ tag.region, isRegion s.toList = true ∧ s.toUpper = s
  variants : ∀ s ∈ tag.variants, isVariant s.toList = true ∧ s.toLower = s

/-! ## Subtags behind hyphens -/

/-- Each subtag behind a hyphen. -/
def hyphenated (subtags : List (List Char)) : List Char := subtags.flatMap ('-' :: ·)

@[simp]
theorem hyphenated_nil : hyphenated [] = [] := rfl

@[simp]
theorem hyphenated_cons (s : List Char) (subtags : List (List Char)) :
    hyphenated (s :: subtags) = '-' :: (s ++ hyphenated subtags) := rfl

theorem toList_intercalate (first : String) (rest : List String) :
    (String.intercalate "-" (first :: rest)).toList =
      first.toList ++ hyphenated (rest.map String.toList) := by
  induction rest generalizing first with
  | nil => simp
  | cons next rest ih =>
      rw [String.intercalate_cons_cons, String.toList_append, String.toList_append, ih]
      simp

variable {p q s : List Char} {P Q : List (List Char)}

/-- What is hyphenated starts with a hyphen. -/
theorem exists_of_hyphenated_eq_append {a rest : List Char} (h : hyphenated P = a ++ rest)
    (ha : a ≠ []) : ∃ a', a = '-' :: a' := by
  obtain ⟨c, a', rfl⟩ := List.exists_cons_of_ne_nil ha
  cases P with
  | nil => cases h
  | cons p P =>
      rw [hyphenated_cons, List.cons_append, List.cons.injEq] at h
      exact ⟨a', by rw [h.1]⟩

/-- Of two subtags that start the same text, one is the other or goes on with a hyphen behind
the other. -/
theorem cases_of_append_hyphenated (h : p ++ hyphenated P = q ++ hyphenated Q) :
    (p = q ∧ hyphenated P = hyphenated Q) ∨
      (∃ rest, q = p ++ '-' :: rest ∧ hyphenated P = '-' :: rest ++ hyphenated Q) ∨
      ∃ rest, p = q ++ '-' :: rest ∧ hyphenated Q = '-' :: rest ++ hyphenated P := by
  rcases List.append_eq_append_iff.mp h with ⟨a, hq, hP⟩ | ⟨a, hp, hQ⟩
  · by_cases ha : a = []
    · subst ha
      exact .inl ⟨by simpa using hq.symm, hP⟩
    · obtain ⟨rest, rfl⟩ := exists_of_hyphenated_eq_append hP ha
      exact .inr (.inl ⟨rest, hq, hP⟩)
  · by_cases ha : a = []
    · subst ha
      exact .inl ⟨by simpa using hp, hQ.symm⟩
    · obtain ⟨rest, rfl⟩ := exists_of_hyphenated_eq_append hQ ha
      exact .inr (.inr ⟨rest, hp, hQ⟩)

/-! ## The kinds of subtags -/

theorem length_of_isVariant (h : isVariant s = true) : 4 ≤ s.length := by
  simp only [isVariant, Bool.and_eq_true, Bool.or_eq_true, decide_eq_true_eq, beq_iff_eq] at h
  omega

/-- A variant with a hyphen is four characters long, and unless the hyphen is its first
character, this is a digit. -/
theorem of_hyphen_mem_variant (h : isVariant s = true) (hhyphen : '-' ∈ s) :
    s.length = 4 ∧ ('-' ∈ s.drop 1 → (s.take 1).all Char.isDigit = true) := by
  have hnot : ∀ l : List Char, '-' ∈ l → l.all Char.isAlphanum = false := by
    intro l hl
    rw [List.all_eq_false]
    exact ⟨'-', hl, by decide⟩
  simp only [isVariant, Bool.and_eq_true, Bool.or_eq_true, decide_eq_true_eq, beq_iff_eq,
    hnot s hhyphen, Bool.false_eq_true, and_false, false_or] at h
  refine ⟨h.2.1, fun hrest => h.2.2.resolve_right ?_⟩
  rw [hnot _ hrest]
  exact Bool.false_ne_true

theorem length_of_isRegion (h : isRegion s = true) : s.length = 2 ∨ s.length = 3 := by
  simp only [isRegion, Bool.or_eq_true, Bool.and_eq_true, beq_iff_eq] at h
  exact h.imp And.left And.left

theorem hyphen_not_mem_region (h : isRegion s = true) : '-' ∉ s := by
  simp only [isRegion, Bool.or_eq_true, Bool.and_eq_true, List.all_eq_true] at h
  intro hmem
  rcases h with ⟨-, h⟩ | ⟨-, h⟩
  · exact absurd (h '-' hmem) (by decide)
  · exact absurd (h '-' hmem) (by decide)

theorem length_of_isScript (h : isScript s = true) : s.length = 4 := by
  simp only [isScript, Bool.and_eq_true, beq_iff_eq] at h
  exact h.1

theorem hyphen_not_mem_script (h : isScript s = true) : '-' ∉ s := by
  simp only [isScript, Bool.and_eq_true, List.all_eq_true] at h
  exact fun hmem => absurd (h.2 '-' hmem) (by decide)

/-- A region whose first character is a digit is three characters long. -/
theorem length_of_region_digit (h : isRegion s = true)
    (hdigit : (s.take 1).all Char.isDigit = true) : s.length = 3 := by
  simp only [isRegion, Bool.or_eq_true, Bool.and_eq_true, beq_iff_eq] at h
  rcases h with ⟨hlength, halpha⟩ | ⟨hlength, -⟩
  · cases s with
    | nil => cases hlength
    | cons c s =>
        have hc : c.isAlpha = true := by
          rw [List.all_cons, Bool.and_eq_true] at halpha
          exact halpha.1
        have hd : c.isDigit = true := by simpa using hdigit
        rw [Text.isAlpha_iff] at hc
        rw [Text.isDigit_iff] at hd
        omega
  · exact hlength

/-- Behind three characters and a hyphen nothing is left of four. -/
theorem eq_nil_of_length {rest : List Char} (hp : p.length = 3)
    (h : (p ++ '-' :: rest).length = 4) : rest = [] := by
  apply List.eq_nil_of_length_eq_zero
  simp only [List.length_append, List.length_cons] at h
  omega

/-! ## One text, one tag -/

/-- Variants cannot take up a hyphen that stands too much in front of others. -/
theorem hyphenated_variants_ne_cons (hP : ∀ s ∈ P, isVariant s = true)
    (hQ : ∀ s ∈ Q, isVariant s = true) : hyphenated P ≠ '-' :: hyphenated Q := by
  induction P generalizing Q with
  | nil => simp
  | cons p P ih =>
      intro h
      have hp := hP p List.mem_cons_self
      have hlength := length_of_isVariant hp
      rw [hyphenated_cons, List.cons.injEq] at h
      cases Q with
      | nil =>
          have hnil : p = [] := (List.append_eq_nil_iff.mp h.2).1
          simp [hnil] at hlength
      | cons q Q =>
          have hq := hQ q List.mem_cons_self
          obtain ⟨c, p, rfl⟩ := List.exists_cons_of_ne_nil (ne_nil_of_isVariant hp)
          obtain ⟨rfl, htail⟩ : c = '-' ∧ p ++ hyphenated P = q ++ hyphenated Q := by
            simpa using h.2
          -- The first variant starts with the hyphen, the second one ends in the next hyphen.
          have hfour : p.length = 3 := by simpa using (of_hyphen_mem_variant hp (by simp)).1
          have hqlength := length_of_isVariant hq
          rcases cases_of_append_hyphenated htail with ⟨rfl, -⟩ | ⟨rest, rfl, hP'⟩ | ⟨rest, rfl, -⟩
          · omega
          · have hqfour := (of_hyphen_mem_variant hq (by simp)).1
            rw [eq_nil_of_length hfour hqfour] at hP'
            exact ih (fun s hs => hP s (List.mem_cons_of_mem _ hs))
              (fun s hs => hQ s (List.mem_cons_of_mem _ hs)) hP'
          · simp only [List.length_append, List.length_cons] at hfour
            omega

theorem eq_of_hyphenated_variants (hP : ∀ s ∈ P, isVariant s = true)
    (hQ : ∀ s ∈ Q, isVariant s = true) (h : hyphenated P = hyphenated Q) : P = Q := by
  -- A variant of more than four characters has no hyphen.
  have hshort : ∀ {p q rest : List Char}, isVariant p = true → isVariant q = true →
      q ≠ p ++ '-' :: rest := by
    rintro p q rest hp hq rfl
    have hplength := length_of_isVariant hp
    have hqlength := (of_hyphen_mem_variant hq (by simp)).1
    simp only [List.length_append, List.length_cons] at hqlength
    omega
  induction P generalizing Q with
  | nil =>
      cases Q with
      | nil => rfl
      | cons q Q => cases h
  | cons p P ih =>
      cases Q with
      | nil => cases h
      | cons q Q =>
          have hp := hP p List.mem_cons_self
          have hq := hQ q List.mem_cons_self
          rw [hyphenated_cons, hyphenated_cons, List.cons.injEq] at h
          rcases cases_of_append_hyphenated h.2 with ⟨rfl, hrest⟩ | ⟨_, hcut, -⟩ | ⟨_, hcut, -⟩
          · rw [ih (fun s hs => hP s (List.mem_cons_of_mem _ hs))
              (fun s hs => hQ s (List.mem_cons_of_mem _ hs)) hrest]
          · exact absurd hcut (hshort hp hq)
          · exact absurd hcut (hshort hq hp)

/-- Variants are not read as a region and variants. -/
theorem hyphenated_region_ne (hs : isRegion s = true) (hP : ∀ s ∈ P, isVariant s = true)
    (hQ : ∀ s ∈ Q, isVariant s = true) : hyphenated (s :: P) ≠ hyphenated Q := by
  intro h
  have hslength := length_of_isRegion hs
  cases Q with
  | nil => cases h
  | cons q Q =>
      have hq := hQ q List.mem_cons_self
      have hqlength := length_of_isVariant hq
      rw [hyphenated_cons, hyphenated_cons, List.cons.injEq] at h
      rcases cases_of_append_hyphenated h.2 with ⟨rfl, -⟩ | ⟨rest, rfl, hP'⟩ | ⟨rest, rfl, -⟩
      · omega
      · -- The region is what stands in front of the hyphen of a variant: three digits.
        obtain ⟨hfour, hdigit⟩ := of_hyphen_mem_variant hq (by simp)
        obtain ⟨c, s, rfl⟩ := List.exists_cons_of_ne_nil (isScript_of_isRegion hs).2
        have hthree := length_of_region_digit hs (by simpa using hdigit (by simp))
        rw [eq_nil_of_length hthree hfour] at hP'
        exact hyphenated_variants_ne_cons hP (fun s hs => hQ s (List.mem_cons_of_mem _ hs)) hP'
      · simp only [List.length_append, List.length_cons] at hslength
        omega

theorem eq_of_hyphenated_region {r r' : Option (List Char)} (hr : ∀ s ∈ r, isRegion s = true)
    (hr' : ∀ s ∈ r', isRegion s = true) (hP : ∀ s ∈ P, isVariant s = true)
    (hQ : ∀ s ∈ Q, isVariant s = true)
    (h : hyphenated (r.toList ++ P) = hyphenated (r'.toList ++ Q)) : r = r' ∧ P = Q := by
  cases r with
  | none =>
      cases r' with
      | none => exact ⟨rfl, eq_of_hyphenated_variants hP hQ h⟩
      | some s' => exact absurd h.symm (hyphenated_region_ne (hr' s' rfl) hQ hP)
  | some s =>
      cases r' with
      | none => exact absurd h (hyphenated_region_ne (hr s rfl) hP hQ)
      | some s' =>
          have hs := hyphen_not_mem_region (hr s rfl)
          have hs' := hyphen_not_mem_region (hr' s' rfl)
          simp only [Option.toList_some, List.singleton_append, hyphenated_cons,
            List.cons.injEq] at h
          rcases cases_of_append_hyphenated h.2 with ⟨rfl, hrest⟩ | ⟨_, rfl, -⟩ | ⟨_, rfl, -⟩
          · exact ⟨rfl, eq_of_hyphenated_variants hP hQ hrest⟩
          · exact absurd (by simp) hs'
          · exact absurd (by simp) hs

/-- A script starts in upper case, a variant does not. -/
theorem not_isVariant_script {rest : List Char} (hs : isScript s = true)
    (htitle : (title s).toList = s) (hlower : (s ++ rest).map Char.toLower = s ++ rest) :
    False := by
  have hlength := length_of_isScript hs
  obtain ⟨c, s, rfl⟩ := List.exists_cons_of_ne_nil (List.ne_nil_of_length_pos (l := s) (by omega))
  have hupper : c.toUpper = c := by
    rw [title, String.toList_ofList] at htitle
    exact (List.cons.inj htitle).1
  have hlower : c.toLower = c := (List.cons.inj hlower).1
  have halpha : c.isAlpha = true := by
    simp only [isScript, Bool.and_eq_true, List.all_cons] at hs
    exact hs.2.1
  rw [← Char.toNat_inj, Text.toNat_toUpper] at hupper
  rw [← Char.toNat_inj, Text.toNat_toLower] at hlower
  rw [Text.isAlpha_iff] at halpha
  split at hupper
  · omega
  · split at hlower <;> omega

/-- A region and variants are not read as a script and what is behind it. -/
theorem hyphenated_script_ne {r : Option (List Char)} (hs : isScript s = true)
    (htitle : (title s).toList = s) (hr : ∀ s ∈ r, isRegion s = true)
    (hQ : ∀ s ∈ Q, isVariant s = true ∧ s.map Char.toLower = s) :
    hyphenated (s :: P) ≠ hyphenated (r.toList ++ Q) := by
  intro h
  have hfour := length_of_isScript hs
  have hhyphen := hyphen_not_mem_script hs
  cases r with
  | none =>
      cases Q with
      | nil => cases h
      | cons q Q =>
          obtain ⟨hq, hlower⟩ := hQ q List.mem_cons_self
          simp only [Option.toList_none, List.nil_append, hyphenated_cons, List.cons.injEq] at h
          rcases cases_of_append_hyphenated h.2 with ⟨rfl, -⟩ | ⟨_, rfl, -⟩ | ⟨_, rfl, -⟩
          · rw [← List.append_nil s] at hlower
            exact not_isVariant_script hs htitle hlower
          · exact not_isVariant_script hs htitle hlower
          · exact hhyphen (by simp)
  | some r =>
      have hlength := length_of_isRegion (hr r rfl)
      simp only [Option.toList_some, List.singleton_append, hyphenated_cons, List.cons.injEq] at h
      rcases cases_of_append_hyphenated h.2 with ⟨rfl, -⟩ | ⟨_, rfl, -⟩ | ⟨_, rfl, -⟩
      · omega
      · simp only [List.length_append, List.length_cons] at hlength
        omega
      · exact hhyphen (by simp)

theorem eq_of_hyphenated_script {s s' r r' : Option (List Char)}
    (hs : ∀ t ∈ s, isScript t = true ∧ (title t).toList = t)
    (hs' : ∀ t ∈ s', isScript t = true ∧ (title t).toList = t)
    (hr : ∀ t ∈ r, isRegion t = true) (hr' : ∀ t ∈ r', isRegion t = true)
    (hP : ∀ t ∈ P, isVariant t = true ∧ t.map Char.toLower = t)
    (hQ : ∀ t ∈ Q, isVariant t = true ∧ t.map Char.toLower = t)
    (h : hyphenated (s.toList ++ (r.toList ++ P)) = hyphenated (s'.toList ++ (r'.toList ++ Q))) :
    s = s' ∧ r = r' ∧ P = Q := by
  have hrest : hyphenated (r.toList ++ P) = hyphenated (r'.toList ++ Q) → r = r' ∧ P = Q :=
    eq_of_hyphenated_region hr hr' (fun t ht => (hP t ht).1) fun t ht => (hQ t ht).1
  cases s with
  | none =>
      cases s' with
      | none => exact ⟨rfl, hrest h⟩
      | some t' =>
          obtain ⟨hscript, htitle⟩ := hs' t' rfl
          exact (hyphenated_script_ne hscript htitle hr hP h.symm).elim
  | some t =>
      obtain ⟨hscript, htitle⟩ := hs t rfl
      cases s' with
      | none => exact (hyphenated_script_ne hscript htitle hr' hQ h).elim
      | some t' =>
          have hhyphen := hyphen_not_mem_script hscript
          have hhyphen' := hyphen_not_mem_script (hs' t' rfl).1
          simp only [Option.toList_some, List.singleton_append, hyphenated_cons,
            List.cons.injEq] at h
          rcases cases_of_append_hyphenated h.2 with ⟨rfl, hbehind⟩ | ⟨_, rfl, -⟩ | ⟨_, rfl, -⟩
          · exact ⟨rfl, hrest hbehind⟩
          · exact absurd (by simp) hhyphen'
          · exact absurd (by simp) hhyphen

/-- The subtags of a tag behind its language. -/
theorem toList_text (tag : LanguageTag) :
    tag.text.toList = tag.languageText.toList ++
      hyphenated ((tag.script.map String.toList).toList ++
        ((tag.region.map String.toList).toList ++ tag.variants.map String.toList)) := by
  rw [text, toList_intercalate, Option.toList_map, Option.toList_map, List.map_append,
    List.map_append, List.append_assoc]

variable {tag other : LanguageTag}

theorem IsWellFormed.isSubtag (h : tag.IsWellFormed) : LocaleCode.IsSubtag tag.languageText := by
  apply LocaleCode.isSubtag_of_isAlphanum
  unfold languageText
  cases hlanguage : tag.language with
  | none => exact List.all_eq_true.mp (by decide)
  | some s =>
      have hs := (h.language s hlanguage).1
      simp only [isLanguage, Bool.and_eq_true, List.all_eq_true] at hs
      intro c hc
      rw [Char.isAlphanum, hs.2 c hc, Bool.true_or]

/-- The language `und` stands for none. -/
theorem IsWellFormed.language_eq (h : tag.IsWellFormed) (hother : other.IsWellFormed)
    (htext : tag.languageText = other.languageText) : tag.language = other.language := by
  unfold languageText at htext
  cases hs : tag.language with
  | none =>
      cases ht : other.language with
      | none => rfl
      | some t =>
          rw [hs, ht] at htext
          exact absurd htext.symm (hother.language t ht).2.2
  | some s =>
      cases ht : other.language with
      | none =>
          rw [hs, ht] at htext
          exact absurd htext (h.language s hs).2.2
      | some t =>
          rw [hs, ht] at htext
          rw [← Option.getD_some (a := s) (b := "und"), htext, Option.getD_some]

/-- Well-formed tags with the same text are the same. -/
theorem IsWellFormed.eq_of_text (h : tag.IsWellFormed) (hother : other.IsWellFormed)
    (htext : tag.text = other.text) : tag = other := by
  have hlanguage := languageText_congr h.isSubtag hother.isSubtag htext
  have hrest : hyphenated ((tag.script.map String.toList).toList ++
      ((tag.region.map String.toList).toList ++ tag.variants.map String.toList)) =
      hyphenated ((other.script.map String.toList).toList ++
        ((other.region.map String.toList).toList ++ other.variants.map String.toList)) := by
    have htoList := congrArg String.toList htext
    rw [toList_text, toList_text, hlanguage] at htoList
    exact List.append_cancel_left htoList
  have hscript {t : LanguageTag} (ht : t.IsWellFormed) : ∀ s ∈ t.script.map String.toList,
      isScript s = true ∧ (title s).toList = s := by
    intro s hs
    obtain ⟨script, hscript, rfl⟩ := Option.map_eq_some_iff.mp hs
    exact (ht.script script hscript).imp_right (congrArg String.toList)
  have hregion {t : LanguageTag} (ht : t.IsWellFormed) : ∀ s ∈ t.region.map String.toList,
      isRegion s = true := by
    intro s hs
    obtain ⟨region, hregion, rfl⟩ := Option.map_eq_some_iff.mp hs
    exact (ht.region region hregion).1
  have hvariants {t : LanguageTag} (ht : t.IsWellFormed) : ∀ s ∈ t.variants.map String.toList,
      isVariant s = true ∧ s.map Char.toLower = s := by
    intro s hs
    obtain ⟨variant, hvariant, rfl⟩ := List.mem_map.mp hs
    refine (ht.variants variant hvariant).imp_right fun hlower => ?_
    rw [← Text.toList_toLower, hlower]
  obtain ⟨hscripts, hregions, hvariants⟩ := eq_of_hyphenated_script (hscript h) (hscript hother)
    (hregion h) (hregion hother) (hvariants h) (hvariants hother) hrest
  have hinjective : Function.Injective String.toList := fun _ _ => String.toList_inj.mp
  obtain ⟨language, script, region, variants⟩ := tag
  rw [mk.injEq]
  exact ⟨h.language_eq hother hlanguage, Option.map_injective hinjective hscripts,
    Option.map_injective hinjective hregions, List.map_injective_iff.mpr hinjective hvariants⟩

/-! ## Tags that are read -/

theorem isVariant_lower (s : List Char) : isVariant (s.map Char.toLower) = isVariant s := by
  have hplain : ∀ c : Char, isPlain c.toLower = isPlain c := by
    intro c
    rw [Bool.eq_iff_iff]
    simp only [isPlain, Text.toNat_toLower, Bool.and_eq_true, decide_eq_true_eq]
    split <;> omega
  simp only [isVariant, List.all_map, List.length_map, ← List.map_take, ← List.map_drop,
    Function.comp_def, hplain, Text.isAlphanum_toLower, Text.isDigit_toLower]

theorem isScript_title (s : List Char) (h : isScript s = true) :
    isScript (title s).toList = true ∧ title (title s).toList = title s := by
  simp only [isScript, Bool.and_eq_true, beq_iff_eq, List.all_eq_true] at h
  obtain ⟨c, s, rfl⟩ := List.exists_cons_of_ne_nil (List.ne_nil_of_length_pos (l := s) (by omega))
  have htitle : ∀ d t, (title (d :: t)).toList = d.toUpper :: t.map Char.toLower := by
    intro d t
    rw [title, String.toList_ofList]
    rfl
  constructor
  · simp only [htitle, isScript, Bool.and_eq_true, beq_iff_eq, List.all_cons, List.all_map,
      List.length_cons, List.length_map, Function.comp_def, Text.isAlpha_toUpper,
      Text.isAlpha_toLower, List.all_eq_true]
    exact ⟨h.1, h.2 c List.mem_cons_self, fun d hd => h.2 d (List.mem_cons_of_mem c hd)⟩
  · rw [← String.toList_inj, htitle, htitle, Text.toUpper_toUpper, List.map_map]
    congr 1
    exact List.map_congr_left fun d _ => Text.toLower_toLower d

theorem language_of_ofSubtags? {first : List Char} {rest : List (List Char)} {s : String}
    (h : ofSubtags? first rest = some tag) (hs : tag.language = some s) :
    s = lower first ∧ s ≠ "und" := by
  unfold ofSubtags? at h
  split at h
  · dsimp only at h
    split at h
    · cases h
      dsimp only at hs
      split at hs
      · cases hs
      · cases hs
        exact ⟨rfl, ‹_›⟩
    · cases h
  · cases h

/-- A tag that is read is well-formed. -/
theorem isWellFormed_of_ofSubtags? {first : List Char} {rest : List (List Char)}
    (h : ofSubtags? first rest = some tag) : tag.IsWellFormed := by
  obtain ⟨script, region, variants, hlaid⟩ := exists_isLaidOut h
  constructor
  · intro s hs
    obtain ⟨rfl, hne⟩ := language_of_ofSubtags? h hs
    have hfirst := (languageText_of_ofSubtags? h).1
    refine ⟨?_, Text.toLower_ofList_map first, hne⟩
    simpa only [lower, String.toList_ofList, isLanguage, List.length_map, List.all_map,
      Function.comp_def, Text.isAlpha_toLower] using hfirst
  · intro s hs
    rw [hlaid.script_eq] at hs
    obtain ⟨t, ht, rfl⟩ := Option.map_eq_some_iff.mp hs
    exact isScript_title t (hlaid.isScript t ht)
  · intro s hs
    rw [hlaid.region_eq] at hs
    obtain ⟨t, ht, rfl⟩ := Option.map_eq_some_iff.mp hs
    have hregion := hlaid.isRegion t ht
    refine ⟨?_, Text.toUpper_ofList_map t⟩
    simpa only [upper, String.toList_ofList, isRegion, List.length_map, List.all_map,
      Function.comp_def, Text.isAlpha_toUpper, Text.isDigit_toUpper] using hregion
  · intro s hs
    obtain ⟨t, ht, rfl⟩ := (hlaid.mem_variants s).mp hs
    have hvariant := hlaid.isVariant t ht
    refine ⟨?_, Text.toLower_ofList_map t⟩
    rwa [lower, String.toList_ofList, isVariant_lower]

theorem isWellFormed_of_parse? {s : String} (h : parse? s = some tag) : tag.IsWellFormed :=
  isWellFormed_of_ofSubtags? h

end Phrasebook.LanguageTag
