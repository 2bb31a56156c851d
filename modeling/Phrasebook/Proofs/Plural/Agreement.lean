import Phrasebook.Proofs.Plural.Ordinals
import Phrasebook.Proofs.Plural.Reports
/-!
# Stored words and literal words

The form of a word is found under an identifier, or asked for the word itself. Both agree
where the rules have the last word: on positions, and on counts for which no form is stored.
English rules always do. What they give is never one of the marks for something not found,
so that an answer that looks like a mark is a text of the table.
-/

namespace Phrasebook.Plural

/-- Whether a text is a mark for something not found: for a language without plurals, or for
an identifier without an entry. -/
def IsMark (text : String) : Prop :=
  (∃ language, text = noPluralsMarker language) ∨ ∃ id, text = placeholder id

/-- Marks have a percent sign at both ends. -/
theorem IsMark.ends {text : String} (h : IsMark text) :
    text.toList.head? = some '%' ∧ text.toList.getLast? = some '%' := by
  have hframe : ∀ opening inner closing : String, opening.toList.head? = some '%' →
      closing.toList.getLast? = some '%' →
      (opening ++ inner ++ closing).toList.head? = some '%' ∧
        (opening ++ inner ++ closing).toList.getLast? = some '%' := by
    intro opening inner closing hopening hclosing
    simp only [String.toList_append, List.head?_append, List.getLast?_append, hopening, hclosing,
      Option.some_or, and_self]
  obtain ⟨language, rfl⟩ | ⟨id, rfl⟩ := h
  · exact hframe "%$<NO PLURALS " language ">$%" (by decide) (by decide)
  · exact hframe "%$$>" id "<$$%" (by decide) (by decide)

namespace English

variable {table : LocaleTable} {id word : String} {count : Count} {mode : Mode}

/-! ### What English rules give -/

/-- An ordinal starts with a letter, a digit or a sign. -/
theorem exists_head?_ordinalNumber (count : Count) :
    ∃ c, (ordinalNumber count).toList.head? = some c ∧ c ≠ '%' := by
  obtain ⟨c, rest, htext⟩ := List.exists_cons_of_ne_nil (ordinalNumber_ne_nil count)
  refine ⟨c, by rw [htext, List.head?_cons], ?_⟩
  rintro rfl
  have hfirst : '%' ∈ (ordinalNumber count).toList := htext ▸ List.mem_cons_self
  exact absurd (of_mem_ordinalNumber hfirst) (by decide)

theorem not_isMark_makeOrdinal (word : String) (count : Count) :
    ¬ IsMark (makeOrdinal word count) := by
  intro h
  obtain ⟨c, hc, hne⟩ := exists_head?_ordinalNumber count
  have hfirst := h.ends.1
  rw [makeOrdinal, String.toList_append, String.toList_append, List.append_assoc,
    List.head?_append, hc, Option.some_or] at hfirst
  exact hne (Option.some.inj hfirst)

/-- A plural ends in `s`. -/
theorem not_isMark_pluralize (h : count ≠ 1) (word : String) : ¬ IsMark (pluralize word count) := by
  intro hmark
  have hlast := hmark.ends.2
  rw [pluralize, if_neg h] at hlast
  split at hlast
  · simp at hlast
  · simp at hlast

/-- All that is found under an identifier with English rules. -/
def formIn (table : LocaleTable) (id : String) (count : Count) (mode : Mode) : String :=
  match table.get? id, mode with
  | none, _ => ""
  | some word, .ordinal => makeOrdinal word count
  | some word, .cardinal =>
    if count = 1 then word
    else (table.get? (pluralId id "plural")).getD (pluralize word count)

theorem formIn_of_absent (h : table.get? id = none) : formIn table id count mode = "" := by
  simp only [formIn, h]

theorem formIn_ordinal (h : table.get? id = some word) :
    formIn table id count .ordinal = makeOrdinal word count := by
  simp only [formIn, h]

theorem formIn_cardinal (h : table.get? id = some word) :
    formIn table id count .cardinal =
      if count = 1 then word
      else (table.get? (pluralId id "plural")).getD (pluralize word count) := by
  simp only [formIn, h]

/-- Without a stored plural, the word is put as a literal word is. -/
theorem formIn_of_unstored (h : table.get? id = some word)
    (hstored : table.get? (pluralId id "plural") = none) :
    formIn table id count mode = Pluralizer.wordForm (some rules) word count mode := by
  cases mode with
  | ordinal => exact formIn_ordinal h
  | cardinal =>
      have hword : Pluralizer.wordForm (some rules) word count .cardinal = pluralize word count :=
        rfl
      rw [formIn_cardinal h, hstored, hword, Option.getD_none]
      by_cases hcount : count = 1
      · rw [if_pos hcount, pluralize, if_pos hcount]
      · rw [if_neg hcount]

/-- A mark is not found unless it is stored in the table. -/
theorem stored_of_isMark (h : IsMark (formIn table id count mode)) :
    table.get? id = some (formIn table id count mode) ∨
      table.get? (pluralId id "plural") = some (formIn table id count mode) := by
  cases hword : table.get? id with
  | none =>
      rw [formIn_of_absent hword] at h
      cases h.ends.1
  | some word =>
      cases mode with
      | ordinal =>
          rw [formIn_ordinal hword] at h
          exact absurd h (not_isMark_makeOrdinal word count)
      | cardinal =>
          rw [formIn_cardinal hword] at h ⊢
          by_cases hcount : count = 1
          · rw [if_pos hcount]
            exact .inl rfl
          · rw [if_neg hcount] at h ⊢
            cases hstored : table.get? (pluralId id "plural") with
            | none =>
                rw [hstored] at h
                exact absurd h (not_isMark_pluralize hcount word)
            | some text => exact .inr rfl

end English

namespace Pluralizer

variable {p : Pluralizer} {table : LocaleTable} {rules : Option Rules} {id word : String}
  {count : Count} {mode : Mode} {category : Category} {locale : String} {tag : LanguageTag}

/-! ### Forms by the rules -/

/-- A position is phrased as it is for the literal word. -/
theorem form_eq_wordForm_ordinal (h : table.get? id = some word) :
    (form table rules id count .ordinal category).1 = wordForm rules word count .ordinal := by
  rw [form_ordinal h]
  rfl

/-- A count is put as it is for the literal word, if the rules decide. -/
theorem form_eq_wordForm_cardinal (h : table.get? id = some word) (hcategory : category ≠ .one)
    (hstored : ∀ suffix, category.suffix? = some suffix → table.get? (pluralId id suffix) = none)
    (hformed : (rules.bind fun r => r.pluralize word count).isSome = true) :
    (form table rules id count .cardinal category).1 = wordForm rules word count .cardinal := by
  obtain ⟨text, htext⟩ := Option.isSome_iff_exists.mp hformed
  cases hsuffix : category.suffix? with
  | none => exact absurd (Category.suffix?_eq_none_iff.mp hsuffix) hcategory
  | some suffix =>
      have hword : wordForm rules word count .cardinal = text := by
        unfold wordForm
        simp only [htext, Option.getD_some]
      rw [form_plural h hsuffix, hstored suffix hsuffix, Option.none_or, htext, hword]

/-- English rules find a form, and nothing missing. -/
theorem form_english (table : LocaleTable) (id : String) (count : Count) (mode : Mode) :
    form table (some English.rules) id count mode (English.select count mode) =
      (English.formIn table id count mode, []) := by
  cases hword : table.get? id with
  | none => rw [form_of_absent hword, English.formIn_of_absent hword]
  | some word =>
      cases mode with
      | ordinal =>
          rw [form_ordinal hword, English.formIn_ordinal hword]
          rfl
      | cardinal =>
          rw [English.formIn_cardinal hword]
          by_cases hcount : count = 1
          · have hone : English.select count .cardinal = .one := if_pos hcount
            rw [hone, form_one hword, if_pos hcount]
          · have hother : English.select count .cardinal = .other := if_neg hcount
            have hsuffix : Category.other.suffix? = some "plural" := rfl
            rw [hother, form_plural hword hsuffix, if_neg hcount]
            cases table.get? (pluralId id "plural") with
            | none => rfl
            | some text => rfl

/-! ### Answers -/

theorem answer_of_categoryOf (h : localeArgument locale = .ok tag)
    (hcategory : categoryOf (p.registry.find? tag.languageText) p.service tag count mode =
      some category) :
    (p.pluralizedString table locale id count mode).answer =
      .ok (form table (p.registry.find? tag.languageText) id count mode category).1 := by
  rw [pluralizedString_eq p h, answer_selection, hcategory]

theorem answer_category (h : localeArgument locale = .ok tag) :
    (p.category locale count mode).answer =
      .ok (categoryOf (p.registry.find? tag.languageText) p.service tag count mode) := by
  rw [← answer_selection]
  unfold category selection
  simp only [h]

/-- Rules that know the category and the form leave nothing to ask and nothing to report. -/
theorem events_of_rules {r : Rules} (h : localeArgument locale = .ok tag)
    (hrules : p.registry.find? tag.languageText = some r)
    (hcategory : r.select count mode = some category)
    (hform : (form table (some r) id count mode category).2 = []) :
    (p.pluralizedString table locale id count mode).events = [] := by
  have hfound : (p.rulesFor tag.languageText).events = [] := by
    rw [events_rulesFor p (toLower_of_localeArgument h), hrules]
    exact if_neg (by simp)
  have hselected : (p.selection tag count mode).events = [] := by
    rw [selection, hfound, events_selectCategory, answer_rulesFor, hrules, Option.bind_some,
      hcategory]
    rfl
  have hanswer : (p.selection tag count mode).answer = some category := by
    rw [answer_selection, hrules, categoryOf, Option.bind_some, hcategory, Option.some_or]
  rw [pluralizedString_eq p h, hanswer]
  simp only [hselected, hrules, hform, List.map_nil, List.append_nil]

/-- Where there is a category, a position is answered alike under an identifier and for the
literal word, and so is a count whose form is not stored and which the rules form. With
English rules both are alike wherever no plural is stored. They always have a category and
ask and report nothing, and no mark is answered that the table does not hold. -/
theorem pluralizedString_eq_pluralize (p : Pluralizer) (table : LocaleTable) {locale : String}
    {tag : LanguageTag} (h : localeArgument locale = .ok tag) (id : String) (count : Count) :
    let rules := p.registry.find? tag.languageText
    (∀ word mode category, table.get? id = some word →
      categoryOf rules p.service tag count mode = some category →
      (mode = .cardinal → category ≠ .one ∧
        (∀ suffix, category.suffix? = some suffix → table.get? (pluralId id suffix) = none) ∧
        (rules.bind fun r => r.pluralize word count).isSome = true) →
      (p.pluralizedString table locale id count mode).answer =
        (p.pluralize locale word count mode).answer) ∧
    (tag.language = some "en" → p.registry.find? "en" = some English.rules → ∀ mode,
      (∀ word, table.get? id = some word → table.get? (pluralId id "plural") = none →
        (p.pluralizedString table locale id count mode).answer =
          (p.pluralize locale word count mode).answer) ∧
      (p.category locale count mode).answer = .ok (some (English.select count mode)) ∧
      (p.pluralizedString table locale id count mode).events = [] ∧
      ∃ text, (p.pluralizedString table locale id count mode).answer = .ok text ∧
        (IsMark text → table.get? id = some text ∨
          table.get? (pluralId id "plural") = some text)) := by
  intro rules
  have hliteral : ∀ word mode, (p.pluralize locale word count mode).answer =
      .ok (wordForm rules word count mode) :=
    fun _ _ => congrArg Reply.answer (pluralize_eq h)
  constructor
  · intro word mode category hword hcategory hcardinal
    rw [hliteral, answer_of_categoryOf h hcategory]
    cases mode with
    | ordinal => rw [form_eq_wordForm_ordinal hword]
    | cardinal =>
        obtain ⟨hone, hstored, hformed⟩ := hcardinal rfl
        rw [form_eq_wordForm_cardinal hword hone hstored hformed]
  · intro hlanguage hbundled mode
    have hrules : p.registry.find? tag.languageText = some English.rules := by
      rw [LanguageTag.languageText, hlanguage]
      exact hbundled
    have hcategory : categoryOf (p.registry.find? tag.languageText) p.service tag count mode =
        some (English.select count mode) := by
      rw [hrules]
      rfl
    have hanswer : (p.pluralizedString table locale id count mode).answer =
        .ok (English.formIn table id count mode) := by
      rw [answer_of_categoryOf h hcategory, hrules, form_english]
    refine ⟨?_, ?_, ?_, _, hanswer, English.stored_of_isMark⟩
    · intro word hword hstored
      have hword' : (p.pluralize locale word count mode).answer =
          .ok (wordForm (some English.rules) word count mode) := hrules ▸ hliteral word mode
      rw [hanswer, hword', English.formIn_of_unstored hword hstored]
    · rw [answer_category h, hcategory]
    · have hselect : English.rules.select count mode = some (English.select count mode) := rfl
      apply events_of_rules h hrules hselect
      rw [form_english]

/-- A language whose rules form words, with a service that says `few`, and English. -/
theorem pluralizedString_eq_pluralize_mixed :
    let forming : Rules := ⟨fun _ _ => none, fun word _ => some (word ++ "y"), fun _ _ => none⟩
    let p : Pluralizer :=
      ⟨Registry.default.register "PL" forming, some (.given "few" fun _ _ _ => some .few)⟩
    let table : LocaleTable := ⟨"pl", ⟨"pl", none⟩,
      (StringTable.empty.set "cow" "krow").set "cow.plural" "%$$>cow<$$%"⟩
    (p.pluralizedString table "pl_PL" "cow" 3 .cardinal).answer =
        (p.pluralize "pl_PL" "krow" 3 .cardinal).answer ∧
      (p.pluralizedString table " EN-gb" "cow" (-1) .cardinal).events = [] ∧
      (p.pluralizedString table " EN-gb" "cow.plural" 21 .ordinal).answer =
        (p.pluralize " EN-gb" "%$$>cow<$$%" 21 .ordinal).answer := by
  intro forming p table
  let polish : LanguageTag := ⟨some "pl", none, some "PL", []⟩
  have hpolish : localeArgument "pl_PL" = .ok polish :=
    localeArgument_eq_ok_iff.mpr (by decide +kernel)
  have henglish : localeArgument " EN-gb" = .ok ⟨some "en", none, some "GB", []⟩ :=
    localeArgument_eq_ok_iff.mpr (by decide +kernel)
  have hforming : p.registry.find? polish.languageText = some forming := by
    have hlower : "PL".toLower = polish.languageText.toLower := by
      rw [← String.toList_inj, Text.toList_toLower, Text.toList_toLower]
      decide
    rw [Registry.find?_register, if_pos hlower]
  have hbundled : p.registry.find? "en" = some English.rules := by
    have hother : ¬ "PL".toLower = "en".toLower := by
      rw [← String.toList_inj, Text.toList_toLower, Text.toList_toLower]
      decide
    rw [Registry.find?_register, if_neg hother, Registry.default, Registry.find?_register,
      if_pos rfl]
  have hunstored : ∀ suffix, Category.few.suffix? = some suffix →
      table.get? (pluralId "cow" suffix) = none := by
    rintro _ ⟨⟩
    rfl
  obtain ⟨hagree, -⟩ := pluralizedString_eq_pluralize p table hpolish "cow" 3
  have hcow := (pluralizedString_eq_pluralize p table henglish "cow" (-1)).2 rfl hbundled
  have hplural := (pluralizedString_eq_pluralize p table henglish "cow.plural" 21).2 rfl hbundled
  refine ⟨hagree "krow" .cardinal .few rfl ?_ fun _ => ⟨by decide, hunstored, ?_⟩,
    (hcow .cardinal).2.2.1, (hplural .ordinal).1 _ rfl rfl⟩
  · rw [hforming]
    rfl
  · rw [hforming]
    rfl

end Pluralizer

end Phrasebook.Plural
