import Phrasebook.Proofs.Plural.Stability
import Mathlib.Logic.Basic
/-!
# Plural requests in a row

However many requests came before, a pluralizer answers like one that was never asked. Of
all that happens beside the answers, only the reports of languages without rules tell of
earlier requests: such a language is reported by the first request for it, and then never
again.
-/

namespace Phrasebook

/-- Whether an event reports a language without rules. -/
def Event.isReport : Event → Bool
  | .warning (.noRules _) => true
  | _ => false

/-- The wording of a warning. -/
def Event.message? : Event → Option String
  | .warning w => some w.message
  | .asked _ _ _ => none

/-- No other warning is worded like the report of a language. -/
theorem Warning.message_eq_iff {w : Warning} {language : String} :
    w.message = "No plural rules registered for language '" ++ language ++ "'" ↔
      w = .noRules language := by
  constructor
  · intro h
    have hfirst : w.message.toList.head? = some 'N' := by
      rw [h, String.append_assoc, String.toList_append]
      rfl
    cases w with
    | noRules other =>
        have htext : "No plural rules registered for language '" ++ other ++ "'" =
            "No plural rules registered for language '" ++ language ++ "'" := h
        rw [String.append_left_inj, String.append_right_inj] at htext
        rw [htext]
    | missingString locale id value =>
        have hshown : (">> i18n default" : String).toList.head? = some 'N' := hfirst
        simp at hshown
    | keptActive locale =>
        have hshown : ("Refusing to clear active locale " ++ locale).toList.head? = some 'N' :=
          hfirst
        rw [String.toList_append] at hshown
        simp at hshown
  · rintro rfl
    rfl

theorem Event.message?_eq_iff {event : Event} {language : String} :
    event.message? = some ("No plural rules registered for language '" ++ language ++ "'") ↔
      event = .warning (.noRules language) := by
  cases event with
  | warning w => simp [message?, Warning.message_eq_iff]
  | asked tag mode count => simp [message?]

namespace Plural

open LocaleCode (IsSubtag)

/-! ## Requests -/

/-- What a form is wanted of. -/
inductive Subject
  /-- The word under an identifier. -/
  | stored (table : LocaleTable) (id : String)
  /-- A literal word. -/
  | literal (word : String)

/-- A request for one form. -/
structure Request where
  locale : String
  subject : Subject
  count : Count
  mode : Mode

/-- The language that a request is for; none where its locale is refused. -/
def Request.language? (request : Request) : Option String :=
  (localeArgument request.locale).toOption.map LanguageTag.languageText

namespace Pluralizer

/-- Answers a request. -/
def ask (p : Pluralizer) (request : Request) : Reply (Except Error String) :=
  match request.subject with
  | .stored table id => p.pluralizedString table request.locale id request.count request.mode
  | .literal word => p.pluralize request.locale word request.count request.mode

/-- The pluralizer after requests, oldest first. -/
def after (p : Pluralizer) (requests : List Request) : Pluralizer :=
  requests.foldl (fun p request => (p.ask request).pluralizer) p

/-- The same rules and the same service, with no language reported yet. -/
def fresh (p : Pluralizer) : Pluralizer :=
  { p with registry := { p.registry with reported := [] } }

/-- What happens during a request besides a report: the service may be asked, and a form may
be missing. -/
def remarks (p : Pluralizer) (tag : LanguageTag) (request : Request) : List Event :=
  match request.subject with
  | .literal _ => []
  | .stored table id =>
    let rules := p.registry.find? tag.languageText
    let missing := match categoryOf rules p.service tag request.count request.mode with
      | none => []
      | some category => (form table rules id request.count request.mode category).2
    (p.selectCategory tag rules request.count request.mode).events ++ missing.map .warning

variable {p q : Pluralizer} {request : Request} {tag : LanguageTag} {language : String}

/-! ## One request -/

/-- A request that is refused leaves no trace. -/
theorem ask_of_error {e : Error} (h : localeArgument request.locale = .error e) :
    p.ask request = ⟨.error e, [], p⟩ := by
  unfold ask
  split
  · exact pluralizedString_of_error h
  · exact pluralize_of_error h

theorem registry_selectCategory (p : Pluralizer) (tag : LanguageTag) (rules : Option Rules)
    (count : Count) (mode : Mode) :
    (p.selectCategory tag rules count mode).pluralizer.registry = p.registry := by
  unfold selectCategory
  split
  · rfl
  · unfold askService
    split <;> rfl

theorem isSome_service_selectCategory (p : Pluralizer) (tag : LanguageTag) (rules : Option Rules)
    (count : Count) (mode : Mode) :
    (p.selectCategory tag rules count mode).pluralizer.service.isSome = p.service.isSome := by
  unfold selectCategory
  split
  · rfl
  · unfold askService
    split <;> simp_all

/-- Asking the service is seen alike, whichever service there is. -/
theorem events_selectCategory_congr (h : q.service.isSome = p.service.isSome) (tag : LanguageTag)
    (rules : Option Rules) (count : Count) (mode : Mode) :
    (q.selectCategory tag rules count mode).events =
      (p.selectCategory tag rules count mode).events := by
  rw [events_selectCategory, events_selectCategory]
  split
  · rfl
  · cases hp : p.service <;> cases hq : q.service <;> simp_all

/-- A request asks for the rules of its language first. This alone changes the registry, and
only the memory of the service may change besides. -/
theorem ask_eq (p : Pluralizer) (h : localeArgument request.locale = .ok tag) :
    (p.ask request).events = (p.rulesFor tag.languageText).events ++ p.remarks tag request ∧
      (p.ask request).pluralizer.registry = (p.rulesFor tag.languageText).pluralizer.registry ∧
      (p.ask request).pluralizer.service.isSome = p.service.isSome := by
  unfold ask remarks
  cases request.subject with
  | literal word =>
      simp only [pluralize_eq h, service_rulesFor, List.append_nil, and_self]
  | stored table id =>
      have hregistry : (p.selection tag request.count request.mode).pluralizer.registry =
          (p.rulesFor tag.languageText).pluralizer.registry := registry_selectCategory _ _ _ _ _
      have hservice : (p.selection tag request.count request.mode).pluralizer.service.isSome =
          p.service.isSome := isSome_service_selectCategory _ _ _ _ _
      have hevents : (p.selection tag request.count request.mode).events =
          (p.rulesFor tag.languageText).events ++ (p.selectCategory tag
            (p.registry.find? tag.languageText) request.count request.mode).events := by
        rw [selection, answer_rulesFor]
        exact congrArg _ (events_selectCategory_congr (by rw [service_rulesFor]) _ _ _ _)
      simp only [pluralizedString_eq p h, answer_selection, hevents]
      cases categoryOf (p.registry.find? tag.languageText) p.service tag request.count
          request.mode with
      | none => exact ⟨by simp, hregistry, hservice⟩
      | some category => exact ⟨by simp, hregistry, hservice⟩

/-! ## What remains the same -/

/-- The second pluralizer gives the answers of the first, and has a service to ask where the
first has one. -/
structure Resembles (p q : Pluralizer) : Prop where
  agrees : p.Agrees q
  service : q.service.isSome = p.service.isSome

theorem Resembles.trans {r : Pluralizer} (h : p.Resembles q) (h' : q.Resembles r) :
    p.Resembles r :=
  ⟨h.agrees.trans h'.agrees, h'.service.trans h.service⟩

theorem resembles_fresh (p : Pluralizer) : p.fresh.Resembles p :=
  ⟨⟨fun _ => rfl, fun _ _ _ _ => rfl⟩, rfl⟩

theorem resembles_ask (p : Pluralizer) (request : Request) :
    p.Resembles (p.ask request).pluralizer := by
  constructor
  · unfold ask
    split
    · exact p.agrees_pluralizedString
    · exact p.agrees_pluralize
  · cases hlocale : localeArgument request.locale with
    | error e => rw [ask_of_error hlocale]
    | ok tag => exact (p.ask_eq hlocale).2.2

theorem Resembles.answer_ask (h : p.Resembles q) (request : Request) :
    (q.ask request).answer = (p.ask request).answer := by
  unfold ask
  split
  · exact h.agrees.answer_pluralizedString
  · exact h.agrees.answer_pluralize

theorem Resembles.remarks_eq (h : p.Resembles q) (htag : IsSubtag tag.languageText)
    (request : Request) : q.remarks tag request = p.remarks tag request := by
  have hcategory : ∀ rules, categoryOf rules q.service tag request.count request.mode =
      categoryOf rules p.service tag request.count request.mode := by
    intro rules
    rw [categoryOf, categoryOf, h.agrees.service tag htag]
  unfold remarks
  simp only [hcategory, h.agrees.rules, events_selectCategory_congr h.service]

/-! ## Reports -/

/-- The forms of a word are not reported on but as missing. -/
theorem isReport_of_mem_form {table : LocaleTable} {rules : Option Rules} {id : String}
    {count : Count} {mode : Mode} {category : Category} {w : Warning}
    (h : w ∈ (form table rules id count mode category).2) :
    (Event.warning w).isReport = false := by
  cases hword : table.get? id with
  | none => simp [form_of_absent hword] at h
  | some word =>
      cases mode with
      | ordinal => simp [form_ordinal hword] at h
      | cardinal =>
          cases hsuffix : category.suffix? with
          | none =>
              obtain rfl := Category.suffix?_eq_none_iff.mp hsuffix
              simp [form_one hword] at h
          | some suffix =>
              rw [form_plural hword hsuffix] at h
              split at h
              · cases h
              · rw [List.mem_singleton.mp h]
                rfl

theorem isReport_of_mem_remarks {event : Event} (h : event ∈ p.remarks tag request) :
    event.isReport = false := by
  unfold remarks at h
  split at h
  · cases h
  · rcases List.mem_append.mp h with h | h
    · rw [events_selectCategory] at h
      split at h
      · cases h
      · obtain ⟨_, -, rfl⟩ := List.mem_map.mp h
        rfl
    · obtain ⟨w, hw, rfl⟩ := List.mem_map.mp h
      split at hw
      · cases hw
      · exact isReport_of_mem_form hw

theorem events_rulesFor (p : Pluralizer) (h : language.toLower = language) :
    (p.rulesFor language).events =
      if p.registry.find? language = none ∧ language ∉ p.registry.reported then
        [.warning (.noRules language)]
      else [] := by
  have hevents : (p.rulesFor language).events =
      (p.registry.resolve language).2.1.map .warning := rfl
  have hnew : ¬ p.registry.IsSettled language ↔
      p.registry.find? language = none ∧ language ∉ p.registry.reported := by
    rw [Registry.find?_eq_none_iff, h, Registry.IsSettled, not_or]
  rw [hevents, Registry.warnings_resolve, h]
  by_cases hsettled : p.registry.IsSettled language
  · rw [if_pos hsettled, if_neg fun hdue => hnew.mpr hdue hsettled, List.map_nil]
  · rw [if_neg hsettled, if_pos (hnew.mp hsettled), List.map_singleton]

theorem mem_reported_rulesFor (p : Pluralizer) (h : language.toLower = language) {other : String} :
    other ∈ (p.rulesFor language).pluralizer.registry.reported ↔
      other ∈ p.registry.reported ∨ other = language ∧ p.registry.find? language = none := by
  simp only [rulesFor, Registry.resolve, h]
  cases p.registry.find? language with
  | some rules => simp
  | none =>
      by_cases hknown : language ∈ p.registry.reported
      · simp only [List.contains_iff_mem, hknown, if_true, and_true, iff_self_or]
        rintro rfl
        exact hknown
      · simp [hknown]

theorem toLower_of_localeArgument {locale : String} (h : localeArgument locale = .ok tag) :
    tag.languageText.toLower = tag.languageText :=
  LanguageTag.toLower_of_ofArgument? (localeArgument_eq_ok_iff.mp h)

/-- A request puts its language on record, if that has no rules. -/
theorem mem_reported_ask (p : Pluralizer) :
    language ∈ (p.ask request).pluralizer.registry.reported ↔ language ∈ p.registry.reported ∨
      p.registry.find? language = none ∧ request.language? = some language := by
  unfold Request.language?
  cases hlocale : localeArgument request.locale with
  | error e => simp [ask_of_error hlocale, Except.toOption]
  | ok tag =>
      rw [(p.ask_eq hlocale).2.1, mem_reported_rulesFor p (toLower_of_localeArgument hlocale)]
      simp only [Except.toOption, Option.map_some, Option.some.injEq]
      constructor
      · rintro (h | ⟨rfl, h⟩)
        · exact .inl h
        · exact .inr ⟨h, rfl⟩
      · rintro (h | ⟨h, rfl⟩)
        · exact .inl h
        · exact .inr ⟨rfl, h⟩

/-- Reports aside, the events of a request depend on the rules and the service. -/
theorem Resembles.unreported_ask (h : p.Resembles q) (request : Request) :
    (q.ask request).events.filter (fun event => !event.isReport) =
      (p.ask request).events.filter fun event => !event.isReport := by
  cases hlocale : localeArgument request.locale with
  | error e => rw [ask_of_error hlocale, ask_of_error hlocale]
  | ok tag =>
      have hlower := toLower_of_localeArgument hlocale
      have hunreported : ∀ r : Pluralizer,
          (r.ask request).events.filter (fun event => !event.isReport) = r.remarks tag request := by
        intro r
        have hreports : ∀ event ∈ (r.rulesFor tag.languageText).events,
            event.isReport = true := by
          rw [events_rulesFor r hlower]
          intro event hevent
          split at hevent
          · rw [List.mem_singleton.mp hevent]
            rfl
          · cases hevent
        rw [(r.ask_eq hlocale).1, List.filter_append, List.filter_eq_nil_iff.mpr,
          List.filter_eq_self.mpr, List.nil_append]
        · intro event hevent
          rw [isReport_of_mem_remarks hevent]
          rfl
        · intro event hevent
          simp [hreports event hevent]
      rw [hunreported, hunreported, h.remarks_eq (isSubtag_of_localeArgument hlocale)]

/-- A request reports its language, and that once, if it has no rules and is not on record. -/
theorem count_reports_ask (p : Pluralizer) (request : Request) (language : String) :
    ((p.ask request).events.countP fun event => event.message? =
        some ("No plural rules registered for language '" ++ language ++ "'")) =
      if request.language? = some language ∧ p.registry.find? language = none ∧
          language ∉ p.registry.reported then 1 else 0 := by
  simp only [Event.message?_eq_iff]
  unfold Request.language?
  cases hlocale : localeArgument request.locale with
  | error e => simp [ask_of_error hlocale, Except.toOption]
  | ok tag =>
      have hremarks : (p.remarks tag request).countP
          (fun event => decide (event = .warning (.noRules language))) = 0 := by
        rw [List.countP_eq_zero]
        rintro event hevent hreport
        obtain rfl := of_decide_eq_true hreport
        cases isReport_of_mem_remarks hevent
      rw [(p.ask_eq hlocale).1, List.countP_append, hremarks,
        events_rulesFor p (toLower_of_localeArgument hlocale)]
      by_cases hlanguage : tag.languageText = language
      · subst hlanguage
        simp only [Except.toOption, Option.map_some, true_and]
        split <;> simp
      · simp only [Except.toOption, Option.map_some, Option.some.injEq, hlanguage, false_and]
        split <;> simp [hlanguage]

/-! ## Requests in a row -/

theorem resembles_after (p : Pluralizer) (requests : List Request) :
    p.Resembles (p.after requests) := by
  induction requests generalizing p with
  | nil => exact ⟨.refl p, rfl⟩
  | cons request requests ih => exact (p.resembles_ask request).trans (ih _)

/-- After some requests, the languages on record are those that were there before, and those
without rules that were asked for. -/
theorem mem_reported_after (p : Pluralizer) (requests : List Request) :
    language ∈ (p.after requests).registry.reported ↔
      language ∈ p.registry.reported ∨
        p.registry.find? language = none ∧ ∃ r ∈ requests, r.language? = some language := by
  induction requests generalizing p with
  | nil => simp [after]
  | cons request requests ih =>
      have hrules := (p.resembles_ask request).agrees.rules language
      calc
        language ∈ ((p.ask request).pluralizer.after requests).registry.reported
          ↔ _ := ih (p.ask request).pluralizer
        _ ↔ _ := by
            rw [mem_reported_ask, ← hrules]
            simp only [List.mem_cons, exists_eq_or_imp, and_or_left, or_assoc]

/-- After any requests, a pluralizer answers like a new one, and the same happens besides the
reports. A language without rules that is not on record is reported once, by the first
request for it. -/
theorem ask_after (p : Pluralizer) (before : List Request) (request : Request) :
    let reply := (p.after before).ask request
    reply.answer = (p.fresh.ask request).answer ∧
    reply.events.filter (fun event => !event.isReport) =
      (p.fresh.ask request).events.filter (fun event => !event.isReport) ∧
    ∀ language, (reply.events.countP fun event => event.message? =
        some ("No plural rules registered for language '" ++ language ++ "'")) =
      if request.language? = some language ∧ p.registry.find? language = none ∧
          language ∉ p.registry.reported ∧ ∀ earlier ∈ before, earlier.language? ≠ some language
        then 1 else 0 := by
  intro reply
  have hnew : p.fresh.Resembles (p.after before) :=
    p.resembles_fresh.trans (p.resembles_after before)
  refine ⟨hnew.answer_ask request, hnew.unreported_ask request, fun language => ?_⟩
  have hrules : (p.after before).registry.find? language = p.registry.find? language :=
    ((p.resembles_after before).agrees.rules language).symm
  rw [count_reports_ask, hrules]
  refine if_congr (and_congr_right fun _ => and_congr_right fun hnone => ?_) rfl rfl
  simp only [mem_reported_after, hnone, true_and, not_or, not_exists, not_and, ne_eq]

end Pluralizer

end Plural

end Phrasebook
