import Phrasebook.Proofs.Locale.Written
import Phrasebook.Proofs.Plural.Forms
/-!
# What plural requests leave as it is

A request may report a language in the registry and fill the memory of the service.
Neither is seen by later requests: the rules found for a language and the category that
the service selects for a tag stay what they were, and with them every answer.

## Implementation notes

The service remembers rules under the text of a tag, while it finds them by the text and
by the language of the tag. It never confuses two tags that are read from a text, as the
text of such a tag shows its language.
-/

namespace Phrasebook

/-! ## The language of a tag -/

namespace LanguageTag

open LocaleCode (IsSubtag isSeparator)

/-- A tag that is read has its first subtag as its language, in lower case. -/
theorem languageText_of_ofSubtags? {first : List Char} {rest : List (List Char)}
    {tag : LanguageTag} (h : ofSubtags? first rest = some tag) :
    isLanguage first = true ∧ tag.languageText = lower first := by
  unfold ofSubtags? at h
  split at h
  · rename_i hfirst
    dsimp only at h
    split at h
    · cases h
      refine ⟨hfirst, ?_⟩
      have hlanguage : (if lower first = "und" then none else some (lower first)).getD "und" =
          lower first := by
        split
        · exact Eq.symm ‹_›
        · rfl
      exact hlanguage
    · cases h
  · cases h

/-- A locale argument is read from its subtags, the blanks around them apart. -/
theorem ofSubtags?_of_ofArgument? {s : String} {tag : LanguageTag} (h : ofArgument? s = some tag) :
    let subtags := Text.split isSeparator (Text.trimChars s.toList)
    ofSubtags? subtags.1 subtags.2 = some tag ∧ tag.language.isSome = true := by
  intro subtags
  unfold ofArgument? at h
  split at h
  · rename_i t ht
    rw [parse?, Text.trim, String.toList_ofList] at ht
    split at h
    · rename_i language hlanguage
      split at h
      · cases h
        exact ⟨ht, by rw [hlanguage, Option.isSome_some]⟩
      · cases h
    · cases h
  · cases h

/-- The language of a tag that is read from a text is a single subtag. -/
theorem isSubtag_of_ofArgument? {s : String} {tag : LanguageTag} (h : ofArgument? s = some tag) :
    IsSubtag tag.languageText := by
  obtain ⟨hfirst, hlanguage⟩ := languageText_of_ofSubtags? (ofSubtags?_of_ofArgument? h).1
  have halpha : ∀ c ∈ (Text.split isSeparator (Text.trimChars s.toList)).1, c.isAlpha = true := by
    simp only [isLanguage, Bool.and_eq_true, List.all_eq_true] at hfirst
    exact hfirst.2
  rw [hlanguage]
  refine LocaleCode.isSubtag_of_isAlphanum ?_
  simp only [lower, String.toList_ofList, List.mem_map, forall_exists_index, and_imp,
    forall_apply_eq_imp_iff₂]
  intro c hc
  rw [Char.isAlphanum, Text.isAlpha_toLower, halpha c hc, Bool.true_or]

/-- The language of a tag that is read from a text is in lower case. -/
theorem toLower_of_ofArgument? {s : String} {tag : LanguageTag} (h : ofArgument? s = some tag) :
    tag.languageText.toLower = tag.languageText := by
  rw [(languageText_of_ofSubtags? (ofSubtags?_of_ofArgument? h).1).2]
  exact Text.toLower_ofList_map _

/-- The text of a tag starts with its language. -/
theorem split_text {tag : LanguageTag} (h : IsSubtag tag.languageText) :
    (Text.split isSeparator tag.text.toList).1 = tag.languageText.toList := by
  have hlanguage := Text.split_of_none fun c hc => (h c hc).1
  unfold text
  cases hrest : tag.script.toList ++ tag.region.toList ++ tag.variants with
  | nil => rw [String.intercalate_singleton, hlanguage]
  | cons next rest =>
      have htext : (String.intercalate "-" (tag.languageText :: next :: rest)).toList =
          tag.languageText.toList ++ '-' :: (String.intercalate "-" (next :: rest)).toList := by
        rw [String.intercalate_cons_cons]
        simp
      rw [htext, Text.split_append_break _ _ (by decide), hlanguage]

/-- Tags with the same text have the same language. -/
theorem languageText_congr {s t : LanguageTag} (hs : IsSubtag s.languageText)
    (ht : IsSubtag t.languageText) (h : s.text = t.text) : s.languageText = t.languageText := by
  rw [← String.toList_inj, ← split_text hs, ← split_text ht, h]

end LanguageTag

namespace Plural

open LocaleCode (IsSubtag)

/-! ## The memory of the service -/

namespace Cldr

/-- The rules of a tag depend on its text. -/
theorem rules?_congr {s t : LanguageTag} (hs : IsSubtag s.languageText)
    (ht : IsSubtag t.languageText) (h : s.text = t.text) (mode : Mode) :
    book.rules? s mode = book.rules? t mode := by
  have hrules : ∀ tag : LanguageTag, book.rules? tag mode =
      (listed? mode tag.text).or (listed? mode tag.languageText) := fun _ => rfl
  rw [hrules, hrules, h, LanguageTag.languageText_congr hs ht h]

end Cldr

/-- A request does not change what a service selects. -/
theorem Service.select_select (s : Service) {asked tag : LanguageTag}
    (hasked : IsSubtag asked.languageText) (htag : IsSubtag tag.languageText)
    (askedMode mode : Mode) (askedCount count : Count) :
    ((s.select asked askedMode askedCount).2.select tag mode count).1 =
      (s.select tag mode count).1 := by
  cases s with
  | given label f => rfl
  | cldr service =>
      change ((service.lookup Cldr.book asked askedMode).2.lookup Cldr.book tag mode).1.bind _ =
        (service.lookup Cldr.book tag mode).1.bind _
      rw [Lookups.answer_lookup, Lookups.answer_lookup,
        service.found_lookup fun htext => Cldr.rules?_congr hasked htag htext mode]

/-! ## Pluralizers with the same answers -/

/-- Pluralizers that find the same rules and select the same categories. -/
structure Pluralizer.Agrees (p q : Pluralizer) : Prop where
  rules : ∀ language, p.registry.find? language = q.registry.find? language
  service : ∀ tag : LanguageTag, IsSubtag tag.languageText → ∀ mode count,
    p.service.bind (fun s => (s.select tag mode count).1) =
      q.service.bind fun s => (s.select tag mode count).1

namespace Pluralizer

variable {p q r : Pluralizer}

theorem Agrees.refl (p : Pluralizer) : p.Agrees p := ⟨fun _ => rfl, fun _ _ _ _ => rfl⟩

theorem Agrees.trans (h : p.Agrees q) (h' : q.Agrees r) : p.Agrees r where
  rules language := (h.rules language).trans (h'.rules language)
  service tag htag mode count :=
    (h.service tag htag mode count).trans (h'.service tag htag mode count)

/-- A report changes no rules. -/
theorem agrees_rulesFor (p : Pluralizer) (language : String) :
    p.Agrees (p.rulesFor language).pluralizer := by
  refine ⟨fun other => ?_, fun _ _ _ _ => rfl⟩
  have hrules : (p.rulesFor language).pluralizer.registry.rules = p.registry.rules :=
    p.registry.rules_resolve language
  rw [Registry.find?, Registry.find?, hrules]

theorem agrees_selectCategory (p : Pluralizer) {tag : LanguageTag}
    (htag : IsSubtag tag.languageText) (rules : Option Rules) (count : Count) (mode : Mode) :
    p.Agrees (p.selectCategory tag rules count mode).pluralizer := by
  unfold selectCategory
  split
  · exact Agrees.refl p
  · unfold askService
    split
    · exact Agrees.refl p
    · rename_i service hservice
      refine ⟨fun _ => rfl, fun other hother mode' count' => ?_⟩
      simp only [hservice, Option.bind_some]
      exact (service.select_select htag hother mode mode' count count').symm

theorem agrees_selection (p : Pluralizer) {tag : LanguageTag} (htag : IsSubtag tag.languageText)
    (count : Count) (mode : Mode) : p.Agrees (p.selection tag count mode).pluralizer :=
  (p.agrees_rulesFor _).trans (agrees_selectCategory _ htag _ _ _)

variable {table : LocaleTable} {locale id word : String} {count : Count} {mode : Mode}

theorem isSubtag_of_localeArgument {tag : LanguageTag} (h : localeArgument locale = .ok tag) :
    IsSubtag tag.languageText :=
  LanguageTag.isSubtag_of_ofArgument? (localeArgument_eq_ok_iff.mp h)

/-- A text that is no locale is refused, whatever is asked of it. -/
theorem pluralizedString_of_error {e : Error} (h : localeArgument locale = .error e) :
    p.pluralizedString table locale id count mode = ⟨.error e, [], p⟩ := by
  unfold pluralizedString
  simp only [h]

theorem pluralize_of_error {e : Error} (h : localeArgument locale = .error e) :
    p.pluralize locale word count mode = ⟨.error e, [], p⟩ := by
  unfold pluralize
  simp only [h]

theorem pluralize_eq {tag : LanguageTag} (h : localeArgument locale = .ok tag) :
    p.pluralize locale word count mode =
      { p.rulesFor tag.languageText with
        answer := .ok (wordForm (p.registry.find? tag.languageText) word count mode) } := by
  unfold pluralize
  simp only [h, answer_rulesFor]

theorem agrees_pluralizedString (p : Pluralizer) :
    p.Agrees (p.pluralizedString table locale id count mode).pluralizer := by
  cases hlocale : localeArgument locale with
  | error e =>
      rw [pluralizedString_of_error hlocale]
      exact Agrees.refl p
  | ok tag =>
      have hselection := p.agrees_selection (isSubtag_of_localeArgument hlocale) count mode
      rw [pluralizedString_eq p hlocale]
      split
      · exact hselection
      · exact hselection

theorem agrees_pluralize (p : Pluralizer) :
    p.Agrees (p.pluralize locale word count mode).pluralizer := by
  cases hlocale : localeArgument locale with
  | error e =>
      rw [pluralize_of_error hlocale]
      exact Agrees.refl p
  | ok tag =>
      rw [pluralize_eq hlocale]
      exact p.agrees_rulesFor tag.languageText

/-- Pluralizers that agree give the same form of an entry. -/
theorem Agrees.answer_pluralizedString (h : p.Agrees q) :
    (q.pluralizedString table locale id count mode).answer =
      (p.pluralizedString table locale id count mode).answer := by
  cases hlocale : localeArgument locale with
  | error e => rw [pluralizedString_of_error hlocale, pluralizedString_of_error hlocale]
  | ok tag =>
      have hrules := h.rules tag.languageText
      have hselection : (q.selection tag count mode).answer =
          (p.selection tag count mode).answer := by
        rw [answer_selection, answer_selection, categoryOf, categoryOf, hrules,
          h.service tag (isSubtag_of_localeArgument hlocale)]
      rw [pluralizedString_eq p hlocale, pluralizedString_eq q hlocale, hselection, hrules]
      split <;> rfl

/-- Pluralizers that agree give the same form of a word. -/
theorem Agrees.answer_pluralize (h : p.Agrees q) :
    (q.pluralize locale word count mode).answer = (p.pluralize locale word count mode).answer := by
  cases hlocale : localeArgument locale with
  | error e => rw [pluralize_of_error hlocale, pluralize_of_error hlocale]
  | ok tag => rw [pluralize_eq hlocale, pluralize_eq hlocale, h.rules tag.languageText]

end Pluralizer

end Plural

end Phrasebook
