import Phrasebook.Proofs.Locale.Detection
/-!
# Which variable decides

The first variable whose value names a locale decides on the locale of an environment; those
before it are passed over, those behind it are not looked at. The result has a language in
small letters and a region in capitals and digits. Such a text names itself, so that an
environment that holds it for its first variable has it for its locale.
-/

namespace Phrasebook.SystemLocale

/-- Whether a text is a language of two or three small letters. -/
def IsLanguage (text : String) : Prop :=
  (text.length = 2 ∨ text.length = 3) ∧ ∀ c ∈ text.toList, c.isLower = true

/-- Whether a text is a region of capitals and digits. -/
def IsRegion (text : String) : Prop :=
  text ≠ "" ∧ ∀ c ∈ text.toList, c.isUpper = true ∨ c.isDigit = true

instance (text : String) : Decidable (IsLanguage text) :=
  decidable_of_iff ((text.length = 2 ∨ text.length = 3) ∧ text.toList.all Char.isLower = true)
    (and_congr_right fun _ => List.all_eq_true)

instance (text : String) : Decidable (IsRegion text) :=
  decidable_of_iff (text ≠ "" ∧ (text.toList.all fun c => c.isUpper || c.isDigit) = true)
    (and_congr_right fun _ => by simp only [List.all_eq_true, Bool.or_eq_true])

/-! ## What a value names -/

/-- A value names a language and, if it names one, a region. -/
theorem isLanguage_of_parse? {value language : String} {region : Option String}
    (h : parse? value = some (language, region)) :
    IsLanguage language ∧ ∀ r ∈ region, IsRegion r := by
  obtain ⟨⟨cs, hlength, halpha, rfl⟩, hregion⟩ := exists_of_parse? h
  refine ⟨⟨?_, ?_⟩, ?_⟩
  · rwa [String.length_ofList, List.length_map]
  · intro c hc
    rw [String.toList_ofList] at hc
    obtain ⟨d, hd, rfl⟩ := List.mem_map.mp hc
    have hletter := halpha d hd
    rw [Text.isAlpha_iff] at hletter
    rw [Text.isLower_iff, Text.toNat_toLower]
    split <;> omega
  · intro r hr
    obtain ⟨ds, hne, halnum, rfl⟩ := hregion r hr
    refine ⟨by simpa using hne, fun c hc => ?_⟩
    rw [String.toList_ofList] at hc
    obtain ⟨d, hd, rfl⟩ := List.mem_map.mp hc
    have hword := halnum d hd
    rw [Char.isAlphanum, Bool.or_eq_true, Text.isAlpha_iff, Text.isDigit_iff] at hword
    rw [Text.isUpper_iff, Text.isDigit_iff, Text.toNat_toUpper]
    split <;> omega

/-- What a value names depends on the part before its codeset and modifier. -/
theorem parse?_congr {value other : String} (h : base value = base other) :
    parse? value = parse? other := by
  unfold parse?
  rw [h]

/-- The characters in front of a codeset or a modifier. -/
theorem takeWhile_append {cs : List Char} (h : ∀ c ∈ cs, c ≠ '.' ∧ c ≠ '@') (rest : List Char) :
    (cs ++ rest).takeWhile (fun c => c ≠ '.' && c ≠ '@') =
      cs ++ rest.takeWhile fun c => c ≠ '.' && c ≠ '@' := by
  apply List.takeWhile_append_of_pos
  simpa using h

theorem base_eq {value : String} (h : ∀ c ∈ value.toList, c ≠ '.' ∧ c ≠ '@') :
    base value = Text.trimChars value.toList := by
  have hwhole := takeWhile_append h []
  rw [List.append_nil, List.takeWhile_nil, List.append_nil] at hwhole
  rw [base, hwhole]

/-- A codeset or a modifier behind a value without either changes nothing. -/
theorem base_append {value mark : String} (h : ∀ c ∈ value.toList, c ≠ '.' ∧ c ≠ '@')
    (hmark : mark = "." ∨ mark = "@") (rest : String) :
    base (value ++ mark ++ rest) = base value := by
  obtain ⟨d, hd, hstop⟩ : ∃ d, mark.toList = [d] ∧ (d = '.' ∨ d = '@') := by
    rcases hmark with rfl | rfl
    · exact ⟨'.', rfl, .inl rfl⟩
    · exact ⟨'@', rfl, .inr rfl⟩
  rw [base_eq h, base, String.toList_append, String.toList_append, hd, List.append_assoc,
    takeWhile_append h, List.singleton_append, List.takeWhile_cons_of_neg, List.append_nil]
  rcases hstop with rfl | rfl <;> simp

/-- A hyphen shows that a value is not neutral. -/
theorem isNeutral_of_hyphen {cs : List Char} (h : '-' ∈ cs) : isNeutral cs = false := by
  have hyphen : '-' ∈ cs.map Char.toLower := List.mem_map.mpr ⟨'-', h, by decide⟩
  have hne : ∀ word : List Char, '-' ∉ word → (cs.map Char.toLower == word) = false := by
    intro word hword
    rw [beq_eq_false_iff_ne]
    rintro rfl
    exact hword hyphen
  rw [isNeutral, hne _ (by decide), hne _ (by decide),
    List.isEmpty_eq_false_iff.mpr (List.ne_nil_of_mem h)]
  rfl

theorem letter_of_isLanguage {text : String} (h : IsLanguage text) {c : Char}
    (hc : c ∈ text.toList) : c.isAlpha = true ∧ c.toLower = c := by
  have hlower := h.2 c hc
  rw [Text.isLower_iff] at hlower
  refine ⟨Text.isAlpha_iff.mpr (.inr hlower), ?_⟩
  rw [← Char.toNat_inj, Text.toNat_toLower]
  exact if_neg (by omega)

theorem letter_of_isRegion {text : String} (h : IsRegion text) {c : Char}
    (hc : c ∈ text.toList) : c.isAlphanum = true ∧ c.toUpper = c := by
  have hupper := h.2 c hc
  rw [Text.isUpper_iff, Text.isDigit_iff] at hupper
  constructor
  · rw [Char.isAlphanum, Bool.or_eq_true, Text.isAlpha_iff, Text.isDigit_iff]
    omega
  · rw [← Char.toNat_inj, Text.toNat_toUpper]
    exact if_neg (by omega)

variable {language region : String}

/-- A language and a region are a code as it is written. -/
theorem isCanonical_of_isLanguage (hlanguage : IsLanguage language) (hregion : IsRegion region) :
    LocaleCode.IsCanonical ⟨language, some region⟩ where
  language_lower := by
    rw [← String.toList_inj, Text.toList_toLower]
    exact (List.map_congr_left fun c hc => (letter_of_isLanguage hlanguage hc).2).trans
      (List.map_id' _)
  language_subtag := LocaleCode.isSubtag_of_isAlphanum fun c hc => by
    rw [Char.isAlphanum, (letter_of_isLanguage hlanguage hc).1, Bool.true_or]
  region_ne e := hregion.1 (Option.some.inj e)
  region_upper := by
    rintro _ ⟨⟩
    rw [← String.toList_inj, Text.toList_toUpper]
    exact (List.map_congr_left fun c hc => (letter_of_isRegion hregion hc).2).trans
      (List.map_id' _)
  region_subtag := by
    rintro _ ⟨⟩
    exact LocaleCode.isSubtag_of_isAlphanum fun c hc => (letter_of_isRegion hregion hc).1

/-- What stands in front of a codeset and a modifier is all of a written code. -/
theorem base_text (hlanguage : IsLanguage language) (hregion : IsRegion region) :
    '-' ∈ base (language ++ "-" ++ region) ∧
      Text.split LocaleCode.isSeparator (base (language ++ "-" ++ region)) =
        (language.toList, [region.toList]) := by
  have hcanonical := isCanonical_of_isLanguage hlanguage hregion
  have htext : (language ++ "-" ++ region).toList = language.toList ++ '-' :: region.toList := by
    simp
  have hbase : base (language ++ "-" ++ region) =
      Text.trimChars (language.toList ++ '-' :: region.toList) := by
    rw [← htext]
    refine base_eq fun c hc => ?_
    have hword : c.isAlphanum = true ∨ c = '-' := by
      rw [htext, List.mem_append, List.mem_cons] at hc
      rcases hc with hc | rfl | hc
      · rw [Char.isAlphanum, (letter_of_isLanguage hlanguage hc).1, Bool.true_or]
        exact .inl rfl
      · exact .inr rfl
      · exact .inl (letter_of_isRegion hregion hc).1
    constructor <;> rintro rfl <;> exact absurd hword (by decide)
  have hsplit := LocaleCode.split_text hcanonical
  have hwritten : LocaleCode.text ⟨language, some region⟩ = language ++ "-" ++ region := rfl
  rw [hwritten, htext] at hsplit
  obtain ⟨rest, hrest⟩ : ∃ rest, Text.trimChars (language.toList ++ '-' :: region.toList) =
      language.toList ++ '-' :: rest :=
    Text.exists_trimChars_append_cons
      (fun c hc => (hcanonical.language_subtag c (List.mem_of_mem_head? hc)).2) (by decide) _
  rw [hbase]
  refine ⟨?_, hsplit⟩
  rw [hrest]
  exact List.mem_append_right _ List.mem_cons_self

/-- The text of a language and a region names them. -/
theorem parse?_text (hlanguage : IsLanguage language) (hregion : IsRegion region) :
    parse? (language ++ "-" ++ region) = some (language, some region) := by
  have hcanonical := isCanonical_of_isLanguage hlanguage hregion
  obtain ⟨hhyphen, hsplit⟩ := base_text hlanguage hregion
  have hlength : language.toList.length = 2 ∨ language.toList.length = 3 := hlanguage.1
  have halpha : ∀ c ∈ language.toList, c.isAlpha = true := fun c hc =>
    (letter_of_isLanguage hlanguage hc).1
  have halnum : ∀ c ∈ region.toList, c.isAlphanum = true := fun c hc =>
    (letter_of_isRegion hregion hc).1
  have hlower : String.ofList (language.toList.map Char.toLower) = language := by
    rw [← Text.toList_toLower, hcanonical.language_lower, String.ofList_toList]
  have hupper : String.ofList (region.toList.map Char.toUpper) = region := by
    rw [← Text.toList_toUpper, hcanonical.region_upper region rfl, String.ofList_toList]
  unfold parse?
  generalize base (language ++ "-" ++ region) = cs at hhyphen hsplit
  have haccepted : ((language.toList.length == 2 || language.toList.length == 3) &&
      language.toList.all Char.isAlpha) = true := by
    simpa only [Bool.and_eq_true, Bool.or_eq_true, beq_iff_eq, List.all_eq_true] using
      And.intro hlength halpha
  have hkept : (!region.toList.isEmpty && region.toList.all Char.isAlphanum) = true := by
    simpa using And.intro hregion.1 halnum
  simp only [isNeutral_of_hyphen hhyphen, hsplit, haccepted, hlower, List.head?_cons,
    Option.filter_some, hkept, hupper, Option.map_some, Bool.false_eq_true, if_false, if_true]

/-! ## What an environment names -/

/-- The locale of what is named; both parts are present. -/
theorem detect_eq (lookup : String → Option String) :
    detect lookup = (codeOf (named? lookup variableNames)).text :=
  detectFrom_eq_text lookup variableNames

theorem isLanguage_codeOf (lookup : String → Option String) (names : List String) :
    ∃ l r, codeOf (named? lookup names) = ⟨l, some r⟩ ∧ IsLanguage l ∧ IsRegion r := by
  have hfallback : IsRegion fallbackRegion := by decide
  cases hnamed : named? lookup names with
  | none => exact ⟨_, _, rfl, by decide, hfallback⟩
  | some found =>
      obtain ⟨language, region⟩ := found
      obtain ⟨name, -, hfound⟩ := List.exists_of_findSome?_eq_some hnamed
      obtain ⟨value, -, hvalue⟩ := Option.bind_eq_some_iff.mp hfound
      obtain ⟨hlanguage, hregion⟩ := isLanguage_of_parse? hvalue
      refine ⟨_, _, rfl, hlanguage, ?_⟩
      cases region with
      | none => exact hfallback
      | some region => exact hregion region rfl

/-- The first variable whose value is accepted decides. -/
theorem named?_append {lookup : String → Option String} {before after : List String}
    {name : String} {found : String × Option String}
    (hbefore : ∀ n ∈ before, (lookup n).bind parse? = none)
    (hname : (lookup name).bind parse? = some found) :
    named? lookup (before ++ name :: after) = some found := by
  rw [named?, List.findSome?_append, List.findSome?_eq_none_iff.mpr hbefore, Option.none_or,
    List.findSome?_cons, hname]

/-- The locale of an environment is a language of two or three small letters, a hyphen and a
region of capitals and digits. It is what the first accepted value of `LC_ALL`, `LC_MESSAGES`
and `LANG` names, with the region `US` if it names none, whatever the variables behind it hold;
and `en-US` if no value is accepted. An environment with this text for its `LC_ALL` has it for
its locale. What a value names does not depend on a codeset or a modifier behind it. -/
theorem detect_names (lookup : String → Option String) :
    (∃ l r, detect lookup = l ++ "-" ++ r ∧
      (l.length = 2 ∨ l.length = 3) ∧ (∀ c ∈ l.toList, c.isLower = true) ∧
      r ≠ "" ∧ ∀ c ∈ r.toList, c.isUpper = true ∨ c.isDigit = true) ∧
    (∀ before name after l r, ["LC_ALL", "LC_MESSAGES", "LANG"] = before ++ name :: after →
      (∀ n ∈ before, (lookup n).bind parse? = none) →
      (lookup name).bind parse? = some (l, r) → detect lookup = l ++ "-" ++ r.getD "US") ∧
    ((∀ n ∈ ["LC_ALL", "LC_MESSAGES", "LANG"], (lookup n).bind parse? = none) →
      detect lookup = "en-US") ∧
    (∀ other : String → Option String, other "LC_ALL" = some (detect lookup) →
      detect other = detect lookup) ∧
    ∀ value mark rest : String, (∀ c ∈ value.toList, c ≠ '.' ∧ c ≠ '@') →
      mark = "." ∨ mark = "@" → parse? (value ++ mark ++ rest) = parse? value := by
  obtain ⟨l, r, hcode, hlanguage, hregion⟩ := isLanguage_codeOf lookup variableNames
  have htext : detect lookup = l ++ "-" ++ r := by
    rw [detect_eq, hcode]
    rfl
  refine ⟨⟨l, r, htext, hlanguage.1, hlanguage.2, hregion⟩, ?_, ?_, ?_, ?_⟩
  · intro before name after l r hnames hbefore hname
    have hnames : variableNames = before ++ name :: after := hnames
    rw [detect_eq, hnames, named?_append hbefore hname]
    rfl
  · intro hnone
    have hnamed : named? lookup variableNames = none := List.findSome?_eq_none_iff.mpr hnone
    rw [detect_eq, hnamed]
    decide
  · intro other hother
    have hfound : (other "LC_ALL").bind parse? = some (l, some r) := by
      rw [hother, htext]
      exact parse?_text hlanguage hregion
    have hnamed : named? other variableNames = some (l, some r) :=
      named?_append (List.forall_mem_nil _) hfound
    rw [detect_eq, hnamed, htext]
    rfl
  · intro value mark rest hvalue hmark
    exact parse?_congr (base_append hvalue hmark rest)

example : detect (fun name => if name = "LANG" then some "fr_ca.UTF-8@euro" else some "POSIX") =
    "fr-CA" := by
  decide +kernel

end Phrasebook.SystemLocale
