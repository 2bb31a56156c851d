import Phrasebook.Plural.Pluralizer
/-!
# The form of a word

The category of a count comes from the rules of its language, else from the service,
which is asked only then. The form is found with at most two entries of the table: the
word itself, and its form for the category.
-/

namespace Phrasebook

/-- Whether an event is a request to the plural service. -/
def Event.isAsked : Event → Bool
  | .warning _ => false
  | .asked _ _ _ => true

namespace Plural

variable {table other : LocaleTable} {rules : Option Rules} {id : String} {count : Count}
  {mode : Mode} {category : Category}

/-- The texts that are accepted as locales are those that are read as tags. -/
theorem localeArgument_eq_ok_iff {locale : String} {tag : LanguageTag} :
    localeArgument locale = .ok tag ↔ LanguageTag.ofArgument? locale = some tag := by
  unfold localeArgument
  cases LanguageTag.ofArgument? locale <;> simp

/-- The identifier under which the form for a category is stored. -/
def pluralId (id suffix : String) : String := id ++ "." ++ suffix

/-- What a form of the word under an identifier has to be, once its category is known. -/
structure IsForm (table : LocaleTable) (rules : Option Rules) (id : String) (count : Count)
    (mode : Mode) (category : Category) (text : String) : Prop where
  /-- There is no word, whatever forms are stored for it. -/
  absent : table.get? id = none → text = ""
  /-- A position is phrased by the rules. -/
  ordinal : ∀ word, table.get? id = some word → mode = .ordinal →
    text = (rules.bind fun r => r.makeOrdinal word count).getD word
  /-- One thing goes by the word itself. -/
  single : ∀ word, table.get? id = some word → mode = .cardinal → category = .one → text = word
  /-- Other counts go by the stored form, else by the form of the rules. -/
  plural : ∀ word, table.get? id = some word → mode = .cardinal →
    ∀ suffix, category.suffix? = some suffix →
      text = ((table.get? (pluralId id suffix)).or
        (rules.bind fun r => r.pluralize word count)).getD (placeholder (pluralId id suffix))

/-- The identifiers that a form is looked up under. -/
def consulted (id : String) (mode : Mode) : Option Category → List String
  | none => []
  | some category =>
    match mode, category.suffix? with
    | .cardinal, some suffix => [id, pluralId id suffix]
    | _, _ => [id]

/-- Only `one` has no stored form. -/
theorem Category.suffix?_eq_none_iff : category.suffix? = none ↔ category = .one := by
  cases category <;> simp [suffix?]

/-- The word itself is always looked up. -/
theorem mem_consulted : id ∈ consulted id mode (some category) := by
  cases mode with
  | ordinal => simp [consulted]
  | cardinal => cases hsuffix : category.suffix? <;> simp [consulted, hsuffix]

namespace Pluralizer

/-! ### The outcomes of a form -/

theorem form_of_absent (h : table.get? id = none) :
    form table rules id count mode category = ("", []) := by
  simp only [form, h]

theorem form_ordinal {word : String} (h : table.get? id = some word) :
    form table rules id count .ordinal category =
      ((rules.bind fun r => r.makeOrdinal word count).getD word, []) := by
  simp only [form, h, wordForm]

theorem form_one {word : String} (h : table.get? id = some word) :
    form table rules id count .cardinal .one = (word, []) := by
  simp only [form, h, Category.suffix?]

/-- The stored form comes before that of the rules. Where there is neither, the missing
entry is shown and reported. -/
theorem form_plural {word suffix : String} (h : table.get? id = some word)
    (hsuffix : category.suffix? = some suffix) :
    form table rules id count .cardinal category =
      match (table.get? (pluralId id suffix)).or (rules.bind fun r => r.pluralize word count) with
      | some text => (text, [])
      | none => (placeholder (pluralId id suffix),
          [.missingString table.name (pluralId id suffix) (placeholder (pluralId id suffix))]) := by
  have hid : id ++ "." ++ suffix = pluralId id suffix := rfl
  simp only [form, h, hsuffix, hid]
  cases hstored : table.get? (pluralId id suffix) with
  | some text => rfl
  | none =>
      cases rules.bind fun r => r.pluralize word count with
      | some text => rfl
      | none =>
          have hmissing : table.contains (pluralId id suffix) = false :=
            Option.isSome_eq_false_iff.mpr (Option.isNone_iff_eq_none.mpr hstored)
          simp [LocaleTable.resolve, LocaleTable.missing, LocaleTable.substitute, hstored, hmissing]

/-- What `form` finds is the form of the word. -/
theorem isForm_form : IsForm table rules id count mode category
    (form table rules id count mode category).1 where
  absent h := by rw [form_of_absent h]
  ordinal word h hmode := by rw [hmode, form_ordinal h]
  single word h hmode hone := by rw [hmode, hone, form_one h]
  plural word h hmode suffix hsuffix := by
    rw [hmode, form_plural h hsuffix]
    cases (table.get? (pluralId id suffix)).or (rules.bind fun r => r.pluralize word count) <;> rfl

/-- Tables of one name that agree on the identifiers looked up yield the same form and
the same reports. -/
theorem form_congr (hname : other.name = table.name)
    (h : ∀ i ∈ consulted id mode (some category), other.get? i = table.get? i) :
    form other rules id count mode category = form table rules id count mode category := by
  have hword : other.get? id = table.get? id := h id mem_consulted
  cases htable : table.get? id with
  | none => rw [form_of_absent htable, form_of_absent (hword.trans htable)]
  | some word =>
      cases mode with
      | ordinal => rw [form_ordinal htable, form_ordinal (hword.trans htable)]
      | cardinal =>
          cases hsuffix : category.suffix? with
          | none =>
              obtain rfl := Category.suffix?_eq_none_iff.mp hsuffix
              rw [form_one htable, form_one (hword.trans htable)]
          | some suffix =>
              have hstored : other.get? (pluralId id suffix) = table.get? (pluralId id suffix) := by
                apply h
                simp [consulted, hsuffix]
              rw [form_plural htable hsuffix, form_plural (hword.trans htable) hsuffix, hstored,
                hname]

/-! ### The source of a category -/

variable (p : Pluralizer) (tag : LanguageTag) (language : String)

@[simp]
theorem answer_rulesFor : (p.rulesFor language).answer = p.registry.find? language :=
  p.registry.answer_resolve language

@[simp]
theorem service_rulesFor : (p.rulesFor language).pluralizer.service = p.service := rfl

/-- Asking for the rules of a language does not reach the service. -/
theorem not_isAsked_of_mem_rulesFor {event : Event} (h : event ∈ (p.rulesFor language).events) :
    event.isAsked = false := by
  obtain ⟨warning, -, rfl⟩ := List.mem_map.mp h
  rfl

/-- The category of a count: from the rules, else from the service. -/
def categoryOf (rules : Option Rules) (service : Option Service) (tag : LanguageTag)
    (count : Count) (mode : Mode) : Option Category :=
  (rules.bind fun r => r.select count mode).or
    (service.bind fun s => (s.select tag mode count).1)

theorem answer_selectCategory (rules : Option Rules) (count : Count) (mode : Mode) :
    (p.selectCategory tag rules count mode).answer = categoryOf rules p.service tag count mode := by
  unfold selectCategory categoryOf
  cases rules.bind fun r => r.select count mode with
  | some category => rfl
  | none =>
      unfold askService
      cases p.service with
      | none => rfl
      | some service => rfl

/-- The service, if there is one, is asked once where the rules decline, and else not. -/
theorem events_selectCategory (rules : Option Rules) (count : Count) (mode : Mode) :
    (p.selectCategory tag rules count mode).events =
      match rules.bind fun r => r.select count mode with
      | some _ => []
      | none => p.service.toList.map fun _ => .asked tag mode count := by
  unfold selectCategory
  cases rules.bind fun r => r.select count mode with
  | some category => rfl
  | none =>
      unfold askService
      cases p.service with
      | none => rfl
      | some service => rfl

/-- The category of a count with all that happens on the way to it. -/
def selection (p : Pluralizer) (tag : LanguageTag) (count : Count) (mode : Mode) :
    Reply (Option Category) :=
  let found := p.rulesFor tag.languageText
  let selected := found.pluralizer.selectCategory tag found.answer count mode
  ⟨selected.answer, found.events ++ selected.events, selected.pluralizer⟩

theorem answer_selection (count : Count) (mode : Mode) :
    (p.selection tag count mode).answer =
      categoryOf (p.registry.find? tag.languageText) p.service tag count mode := by
  rw [selection, answer_selectCategory, answer_rulesFor, service_rulesFor]

theorem asked_selection (count : Count) (mode : Mode) :
    (p.selection tag count mode).events.filter Event.isAsked =
      match (p.registry.find? tag.languageText).bind fun r => r.select count mode with
      | some _ => []
      | none => p.service.toList.map fun _ => .asked tag mode count := by
  have hfound : (p.rulesFor tag.languageText).events.filter Event.isAsked = [] := by
    rw [List.filter_eq_nil_iff]
    intro event hevent
    simp [not_isAsked_of_mem_rulesFor p tag.languageText hevent]
  rw [selection, List.filter_append, hfound, List.nil_append, events_selectCategory,
    answer_rulesFor, service_rulesFor]
  split
  · rfl
  · cases p.service <;> rfl

/-- A request first finds the category, and then the form in the table. -/
theorem pluralizedString_eq {locale : String} {tag : LanguageTag}
    (h : localeArgument locale = .ok tag) :
    p.pluralizedString table locale id count mode =
      match (p.selection tag count mode).answer with
      | none => { p.selection tag count mode with answer := .ok (noPluralsMarker tag.languageText) }
      | some category =>
        let found := form table (p.registry.find? tag.languageText) id count mode category
        ⟨.ok found.1, (p.selection tag count mode).events ++ found.2.map .warning,
          (p.selection tag count mode).pluralizer⟩ := by
  rw [← answer_rulesFor]
  unfold pluralizedString selection
  cases hselected : ((p.rulesFor tag.languageText).pluralizer.selectCategory tag
      (p.rulesFor tag.languageText).answer count mode).answer with
  | none => simp only [h, hselected]
  | some category => simp only [h, hselected]

/-- A request asks the service just where the rules of its language leave the category
open. Without a category it ends in the marker; otherwise the answer is the form of the
word. Nothing else in the table has an effect, on the answer or on anything beside it. -/
theorem pluralizedString_reply (p : Pluralizer) (table : LocaleTable) {locale : String}
    {tag : LanguageTag} (h : localeArgument locale = .ok tag) (id : String) (count : Count)
    (mode : Mode) :
    let rules := p.registry.find? tag.languageText
    let category := categoryOf rules p.service tag count mode
    let reply := p.pluralizedString table locale id count mode
    (reply.events.filter Event.isAsked =
      match rules.bind fun r => r.select count mode with
      | some _ => []
      | none => p.service.toList.map fun _ => .asked tag mode count) ∧
    (match category with
      | none => reply.answer = .ok (noPluralsMarker tag.languageText)
      | some category => ∃ text, reply.answer = .ok text ∧
          IsForm table rules id count mode category text) ∧
    ∀ other, other.name = table.name →
      (∀ i ∈ consulted id mode category, other.get? i = table.get? i) →
      p.pluralizedString other locale id count mode = reply := by
  intro rules category reply
  have hanswer : (p.selection tag count mode).answer = category := answer_selection p tag count mode
  have hasked := asked_selection p tag count mode
  have hreply : ∀ t, p.pluralizedString t locale id count mode = _ := fun _ =>
    p.pluralizedString_eq h
  cases hcategory : category with
  | none =>
      rw [hcategory] at hanswer
      simp only [hanswer] at hreply
      refine ⟨?_, ?_, ?_⟩
      · rw [← hasked]
        exact congrArg (fun r => r.events.filter Event.isAsked) (hreply table)
      · exact congrArg Reply.answer (hreply table)
      · intro other _ _
        exact (hreply other).trans (hreply table).symm
  | some category =>
      rw [hcategory] at hanswer
      simp only [hanswer] at hreply
      refine ⟨?_, ⟨_, congrArg Reply.answer (hreply table), isForm_form⟩, ?_⟩
      · rw [← hasked]
        refine (congrArg (fun r => r.events.filter Event.isAsked) (hreply table)).trans ?_
        simp [Event.isAsked]
      · intro other hname hagree
        refine (hreply other).trans (Eq.trans ?_ (hreply table).symm)
        rw [form_congr hname hagree]

/-- A language without rules and a service that says `few`: the word is there, and its
form is not. -/
theorem pluralizedString_reply_unformed :
    let p : Pluralizer := ⟨Registry.empty, some (.given "few" fun _ _ _ => some .few)⟩
    let table : LocaleTable := ⟨"fr-CA", ⟨"fr", some "CA"⟩, StringTable.empty.set "cow" "vache"⟩
    localeArgument "fr_CA" = .ok ⟨some "fr", none, some "CA", []⟩ ∧
      (p.pluralizedString table "fr_CA" "cow" 3 .cardinal).answer = .ok "%$$>cow.few<$$%" := by
  intro p table
  have h : localeArgument "fr_CA" = .ok ⟨some "fr", none, some "CA", []⟩ :=
    localeArgument_eq_ok_iff.mpr (by decide +kernel)
  obtain ⟨-, ⟨text, hanswer, hform⟩, -⟩ := pluralizedString_reply p table h "cow" 3 .cardinal
  have htext : text = "%$$>cow.few<$$%" := hform.plural "vache" (by decide) rfl "few" rfl
  exact ⟨h, htext ▸ hanswer⟩

end Pluralizer

end Plural

end Phrasebook
