import Phrasebook.Proofs.Locale.TagTexts
import Mathlib.Data.Finset.Card
/-!
# Remembered lookups

A service that remembers what it looked up answers each enquiry as if it were the first one,
whatever book it consults and whatever was asked before. It remembers one lookup for each text
of a tag and each mode that it was asked for, whether it found rules or not.
-/

namespace Phrasebook.Plural

/-- What is asked of a service. -/
structure Enquiry where
  tag : LanguageTag
  mode : Mode
  count : Count

/-- What an enquiry is remembered under. -/
def Enquiry.key (e : Enquiry) : String × Mode := (e.tag.text, e.mode)

namespace Lookups

variable {ρ : Type} {book : RuleBook ρ}

/-- Answers an enquiry. -/
def answer (l : Lookups ρ) (book : RuleBook ρ) (e : Enquiry) : Option Category × Lookups ρ :=
  l.select book e.tag e.mode e.count

/-- The memory after some enquiries, oldest first. -/
def after (book : RuleBook ρ) (l : Lookups ρ) (enquiries : List Enquiry) : Lookups ρ :=
  enquiries.foldl (fun l e => (l.answer book e).2) l

/-- The answers to some enquiries in a row. -/
def answers (book : RuleBook ρ) (l : Lookups ρ) : List Enquiry → List (Option Category)
  | [] => []
  | e :: enquiries => (l.answer book e).1 :: answers book (l.answer book e).2 enquiries

/-- The answer by the rules that are found. -/
theorem answer_eq (l : Lookups ρ) (e : Enquiry) :
    (l.answer book e).1 =
      (l.found book e.tag e.mode).bind fun rules => book.select? rules e.count := by
  rw [← answer_lookup]
  rfl

/-- An enquiry does not change what is found for a tag. -/
theorem found_answer (l : Lookups ρ) {e : Enquiry} (he : e.tag.IsWellFormed) {tag : LanguageTag}
    (htag : tag.IsWellFormed) (mode : Mode) :
    (l.answer book e).2.found book tag mode = l.found book tag mode :=
  l.found_lookup fun htext => by rw [he.eq_of_text htag htext]

theorem keys_answer (l : Lookups ρ) (e : Enquiry) :
    (l.answer book e).2.cache.keys.toFinset = insert e.key l.cache.keys.toFinset := by
  ext key
  rw [List.mem_toFinset, Finset.mem_insert, List.mem_toFinset, or_comm, eq_comm (b := e.key)]
  exact l.mem_keys_lookup book e.tag e.mode

/-- Whatever is remembered, enquiries in a row are answered by what is found before them. -/
theorem answers_eq_map (l : Lookups ρ) (enquiries : List Enquiry)
    (h : ∀ e ∈ enquiries, e.tag.IsWellFormed) :
    answers book l enquiries = enquiries.map fun e => (l.answer book e).1 := by
  induction enquiries generalizing l with
  | nil => rfl
  | cons e enquiries ih =>
      obtain ⟨he, hrest⟩ := List.forall_mem_cons.mp h
      rw [answers, ih _ hrest, List.map_cons]
      congr 1
      refine List.map_congr_left fun other hother => ?_
      rw [answer_eq, answer_eq, l.found_answer he (hrest other hother)]

theorem keys_after (l : Lookups ρ) (enquiries : List Enquiry) :
    (l.after book enquiries).cache.keys.toFinset =
      (enquiries.map Enquiry.key).toFinset ∪ l.cache.keys.toFinset := by
  induction enquiries generalizing l with
  | nil => simp [after]
  | cons e enquiries ih =>
      have hrest := ih (l.answer book e).2
      rw [keys_answer] at hrest
      rw [List.map_cons, List.toFinset_cons, Finset.insert_union, ← Finset.union_insert]
      exact hrest

theorem cached_eq_card (l : Lookups ρ) : l.cached = l.cache.keys.toFinset.card := by
  have hkeys : l.cache.keys.Nodup := l.cache.nodup
  rw [List.toFinset_card_of_nodup hkeys]
  exact (List.length_map _).symm

/-- Enquiries in a row are answered as if each were the first one: by the rules that the book
lists for the whole tag, else by those that it lists for its language, else not at all. As many
lookups are remembered as there are different texts of tags and modes among the enquiries. -/
theorem answers_eq_fresh (book : RuleBook ρ) (enquiries : List Enquiry)
    (h : ∀ e ∈ enquiries, e.tag.IsWellFormed) :
    answers book empty enquiries = enquiries.map (fun e => (empty.answer book e).1) ∧
    answers book empty enquiries = enquiries.map (fun e =>
      match book.listed? e.tag e.mode, book.listed? e.tag.ofLanguage e.mode with
      | some rules, _ => book.select? rules e.count
      | none, some rules => book.select? rules e.count
      | none, none => none) ∧
    (empty.after book enquiries).cached = (enquiries.map Enquiry.key).toFinset.card := by
  have hfresh : answers book empty enquiries = enquiries.map fun e => (empty.answer book e).1 :=
    answers_eq_map empty enquiries h
  refine ⟨hfresh, ?_, ?_⟩
  · rw [hfresh]
    refine List.map_congr_left fun e _ => ?_
    rw [answer_eq, found_empty, RuleBook.rules?]
    cases book.listed? e.tag e.mode with
    | some rules => rfl
    | none => cases book.listed? e.tag.ofLanguage e.mode <;> rfl
  · rw [cached_eq_card, keys_after]
    congr 1
    exact Finset.union_empty _

/-- Two regions of a language with rules of their own for one of them only, in two spellings and
both modes, and a language without rules that is asked for twice: five lookups are remembered. -/
theorem answers_eq_fresh_regional :
    let portugal : LanguageTag := ⟨some "pt", none, some "PT", []⟩
    let brazil : LanguageTag := ⟨some "pt", none, some "BR", []⟩
    let klingon : LanguageTag := ⟨some "tlh", none, none, []⟩
    let enquiries : List Enquiry := [⟨portugal, .cardinal, 0⟩, ⟨brazil, .cardinal, 0⟩,
      ⟨klingon, .cardinal, 1⟩, ⟨portugal, .cardinal, 1⟩, ⟨klingon, .cardinal, 2⟩,
      ⟨brazil, .ordinal, 0⟩, ⟨brazil, .cardinal, Int64.minValue⟩, ⟨portugal, .ordinal, 1⟩]
    LanguageTag.parse? "PT_pt" = some portugal ∧ LanguageTag.parse? "pt-br" = some brazil ∧
      LanguageTag.parse? "tlh" = some klingon ∧ (∀ e ∈ enquiries, e.tag.IsWellFormed) ∧
      answers Cldr.book empty enquiries = [some .other, some .one, none, some .one, none,
        some .other, none, some .other] ∧
      (empty.after Cldr.book enquiries).cached = 5 := by
  intro portugal brazil klingon enquiries
  have hportugal : LanguageTag.parse? "PT_pt" = some portugal := by decide +kernel
  have hbrazil : LanguageTag.parse? "pt-br" = some brazil := by decide +kernel
  have hklingon : LanguageTag.parse? "tlh" = some klingon := by decide +kernel
  have hread : ∀ e ∈ enquiries, e.tag.IsWellFormed := by
    simp only [enquiries, List.forall_mem_cons, LanguageTag.isWellFormed_of_parse? hportugal,
      LanguageTag.isWellFormed_of_parse? hbrazil, LanguageTag.isWellFormed_of_parse? hklingon,
      true_and, List.not_mem_nil, false_implies, implies_true]
  obtain ⟨-, hanswers, hcached⟩ := answers_eq_fresh Cldr.book enquiries hread
  exact ⟨hportugal, hbrazil, hklingon, hread, hanswers.trans (by decide +kernel),
    hcached.trans (by decide +kernel)⟩

end Lookups

end Phrasebook.Plural
