import Phrasebook.Availability
/-!
# Languages and regions in the order of mention

What a list of source names tells is gathered name by name. The languages are the
different ones with which the names start, each at its first mention, and so are the
regions of a language, which the regions of all languages follow. This says also which
languages and regions there are at all.
-/

namespace Phrasebook

section

variable {α : Type} [DecidableEq α]

/-- Elements that are added one by one are appended, each at its first mention, unless they
are known. -/
theorem foldl_addNew (known l : List α) :
    l.foldl addNew known = known ++ (l.filter (· ∉ known)).eraseDups := by
  induction l generalizing known with
  | nil => simp
  | cons a l ih =>
      rw [List.foldl_cons, ih, addNew]
      by_cases ha : a ∈ known
      · simp [ha]
      · have hrest : l.filter (· ∉ known ++ [a]) =
            (l.filter (· ∉ known)).filter (fun b => !b == a) := by
          rw [List.filter_filter]
          refine List.filter_congr fun b _ => ?_
          by_cases hb : b = a <;> simp [hb]
        rw [if_neg ha, hrest, List.filter_cons_of_pos (by simpa using ha), List.eraseDups_cons,
          List.append_assoc, List.singleton_append]

theorem distinct_eq_eraseDups (l : List α) : distinct l = l.eraseDups := by
  rw [distinct, foldl_addNew, List.nil_append, List.filter_eq_self.mpr (by simp)]

/-- Where no element stands twice in a list, what follows it is added to it. -/
theorem distinct_append {own : List α} (hown : own.Nodup) {more : List α} (hmore : more.Nodup) :
    distinct (own ++ more) = own ++ more.filter (· ∉ own) := by
  have hself : own.foldl addNew [] = own :=
    (distinct_eq_eraseDups own).trans (eraseDups_of_nodup hown)
  rw [distinct, List.foldl_append, hself, foldl_addNew, eraseDups_of_nodup (hmore.filter _)]

end

namespace Availability

open LocaleCode (split)

/-- The languages with which names start, name by name; the common sources belong to none. -/
def languagesIn (names : List String) : List String :=
  (names.map fun name => (split name).1).filter fun language =>
    language ≠ "" ∧ language ≠ Layer.commonName

/-- The regions of the names that start with a language, name by name. -/
def regionsIn (names : List String) (language : String) : List String :=
  if language = "" then []
  else names.filterMap fun name =>
    if (split name).1 = language then (split name).2 else none

theorem languages_add (available : Availability) (name : String) :
    (available.add name).languages = (languagesIn [name]).foldl addNew available.languages := by
  rcases hsplit : split name with ⟨named, found⟩
  by_cases hempty : named = ""
  · simp [add, languagesIn, hsplit, hempty]
  · by_cases hcommon : named = Layer.commonName
    · subst hcommon
      cases found <;> simp [add, languagesIn, hsplit, hempty]
    · cases found <;> simp [add, languagesIn, hsplit, hempty, hcommon]

theorem ownRegions_add (available : Availability) (name language : String) :
    (available.add name).ownRegions language =
      (regionsIn [name] language).foldl addNew (available.ownRegions language) := by
  rcases hsplit : split name with ⟨named, found⟩
  by_cases hlanguage : named = language
  · subst hlanguage
    by_cases hempty : named = ""
    · simp [add, regionsIn, hsplit, hempty]
    · cases found <;>
        simp [add, ownRegions, regionsIn, hsplit, hempty, OrderedMap.get?_insert]
  · have hnone : regionsIn [name] language = [] := by simp [regionsIn, hsplit, hlanguage]
    rw [hnone, List.foldl_nil]
    by_cases hempty : named = ""
    · simp [add, hsplit, hempty]
    · cases found <;> simp [add, ownRegions, hsplit, hempty, hlanguage, OrderedMap.get?_insert]

/-- What is gathered name by name comes in the order in which the names mention it. -/
theorem told_ofNames (told : Availability → List String) (mentions : List String → List String)
    (hempty : told empty = []) (hnone : mentions [] = [])
    (hmentions : ∀ name names, mentions (name :: names) = mentions [name] ++ mentions names)
    (hadd : ∀ available name,
      told (add available name) = (mentions [name]).foldl addNew (told available))
    (names : List String) : told (ofNames names) = distinct (mentions names) := by
  have hfold : ∀ available : Availability,
      told (names.foldl add available) = (mentions names).foldl addNew (told available) := by
    induction names with
    | nil => intro available; rw [hnone, List.foldl_nil, List.foldl_nil]
    | cons name names ih =>
        intro available
        rw [List.foldl_cons, ih, hadd, hmentions name names, List.foldl_append]
  rw [distinct, ← hempty]
  exact hfold empty

/-- The languages are told in the order in which the names mention them. -/
theorem languages_ofNames (names : List String) :
    (ofNames names).languages = distinct (languagesIn names) := by
  refine told_ofNames languages languagesIn rfl rfl (fun name names => ?_) languages_add names
  simp only [languagesIn, ← List.filter_append, ← List.map_append, List.singleton_append]

/-- So are the regions that a language itself has. -/
theorem ownRegions_ofNames (names : List String) (language : String) :
    (ofNames names).ownRegions language = distinct (regionsIn names language) := by
  refine told_ofNames (·.ownRegions language) (regionsIn · language) rfl (by simp [regionsIn])
    (fun name names => ?_) (ownRegions_add · · language) names
  unfold regionsIn
  split
  · rfl
  · rw [← List.filterMap_append, List.singleton_append]

/-- The regions told for a language are its own, and then those of all languages. -/
theorem regionsOf_ofNames (names : List String) (language : String) :
    (ofNames names).regionsOf language = (regionsIn names language).eraseDups ++
      ((regionsIn names Layer.commonName).eraseDups.filter (· ∉ regionsIn names language)) := by
  have hparts : (ofNames names).regionsOf language =
      distinct ((ofNames names).ownRegions language ++
        (ofNames names).ownRegions Layer.commonName) := rfl
  rw [hparts, ownRegions_ofNames, ownRegions_ofNames,
    distinct_append (nodup_distinct _) (nodup_distinct _)]
  simp only [mem_distinct]
  rw [distinct_eq_eraseDups, distinct_eq_eraseDups]

theorem nodup_regionsOf (available : Availability) (language : String) :
    (available.regionsOf language).Nodup := by
  rw [regionsOf]
  exact nodup_distinct _

/-- The languages are those that the names start with, but for the common sources. -/
theorem mem_languages_ofNames {names : List String} {language : String} :
    language ∈ (ofNames names).languages ↔ language ≠ "" ∧ language ≠ Layer.commonName ∧
      ∃ name ∈ names, (split name).1 = language := by
  rw [languages_ofNames, mem_distinct, languagesIn, List.mem_filter, List.mem_map]
  simp [and_comm, and_assoc, and_left_comm]

/-- The regions of a language are those of the names that start with it. -/
theorem mem_ownRegions_ofNames {names : List String} {language region : String} :
    region ∈ (ofNames names).ownRegions language ↔
      language ≠ "" ∧ ∃ name ∈ names, split name = (language, some region) := by
  rw [ownRegions_ofNames, mem_distinct, regionsIn]
  by_cases hempty : language = ""
  · simp [hempty]
  · simp [hempty, List.mem_filterMap, Prod.ext_iff]

theorem mem_regionsOf {available : Availability} {language region : String} :
    region ∈ available.regionsOf language ↔
      region ∈ available.ownRegions language ∨ region ∈ available.ownRegions Layer.commonName := by
  rw [regionsOf, mem_distinct, List.mem_append, ownRegions, ownRegions]

end Availability

end Phrasebook
