import Phrasebook.StringTable
import Mathlib.Data.Finset.Card
/-!
# What a table holds

A table is told by the texts that were written to it: the last one of each identifier
counts, and the first one gives it its place. Tables are compared without regard to places.
-/

namespace Phrasebook

namespace Assoc

variable {κ ν : Type} [DecidableEq κ]

/-- The last pair of a key has no other behind it. -/
theorem find?_reverse_eq_some_iff {k : κ} {v : ν} {l : List (κ × ν)} :
    (l.reverse.find? fun p => p.1 = k).map Prod.snd = some v ↔
      ∃ before later, l = before ++ (k, v) :: later ∧ k ∉ later.map Prod.fst := by
  constructor
  · intro h
    obtain ⟨⟨k', v'⟩, hfind, rfl⟩ := Option.map_eq_some_iff.mp h
    obtain ⟨hk, later, before, hl, hlater⟩ := List.find?_eq_some_iff_append.mp hfind
    obtain rfl : k' = k := of_decide_eq_true hk
    refine ⟨before.reverse, later.reverse, ?_, ?_⟩
    · rw [← List.reverse_reverse l, hl, List.reverse_append, List.reverse_cons, List.append_assoc,
        List.singleton_append]
    · intro hmem
      obtain ⟨p, hp, hkey⟩ := List.mem_map.mp hmem
      have hne := hlater p (List.mem_reverse.mp hp)
      rw [decide_eq_true hkey] at hne
      cases hne
  · rintro ⟨before, later, rfl, hlater⟩
    apply Option.map_eq_some_iff.mpr
    refine ⟨(k, v), List.find?_eq_some_iff_append.mpr ⟨decide_eq_true rfl, later.reverse,
      before.reverse, ?_, ?_⟩, rfl⟩
    · rw [List.reverse_append, List.reverse_cons, List.append_assoc, List.singleton_append]
    · intro p hp
      have hne : p.1 ≠ k := fun hkey =>
        hlater (List.mem_map.mpr ⟨p, List.mem_reverse.mp hp, hkey⟩)
      rw [decide_eq_false hne]
      rfl

end Assoc

namespace OrderedMap

variable {κ ν : Type}

theorem nodup_entries (m : OrderedMap κ ν) : m.entries.Nodup :=
  List.Nodup.of_map Prod.fst m.nodup

/-- Maps with the same pairs differ in the places of their keys at most. -/
theorem sameEntries_iff_perm [DecidableEq κ] [BEq ν] [LawfulBEq ν] (m n : OrderedMap κ ν) :
    m.sameEntries n = true ↔ m.entries.Perm n.entries := by
  have hget : (m.entries.all fun p => n.get? p.1 == some p.2) = true ↔
      m.entries ⊆ n.entries := by
    rw [List.all_eq_true]
    apply forall₂_congr
    intro p hp
    rw [beq_iff_eq, get?_eq_some_iff]
  rw [sameEntries, Bool.and_eq_true, beq_iff_eq, hget]
  constructor
  · rintro ⟨hsize, hsubset⟩
    exact (List.subperm_of_subset m.nodup_entries hsubset).perm_of_length_le hsize.symm.le
  · intro h
    exact ⟨h.length_eq, h.subset⟩

end OrderedMap

namespace StringTable

/-- What a table holds after some writes. -/
structure Holds (writes : List (String × String)) (t : StringTable) : Prop where
  /-- An identifier has the text of its last write. -/
  get? : ∀ id text, t.get? id = some text ↔
    ∃ before later, writes = before ++ (id, text) :: later ∧ id ∉ later.map Prod.fst
  /-- The identifiers stand in the order of their first writes. -/
  ids : t.entries.map Prod.fst = (writes.map Prod.fst).eraseDups
  /-- Just the identifiers with a text are contained. -/
  contains : ∀ id, t.contains id = true ↔ (t.get? id).isSome
  /-- Each identifier counts once. -/
  size : t.size = (writes.map Prod.fst).toFinset.card
  isEmpty : t.isEmpty = true ↔ writes = []

/-- A number is that of the identifiers which have a text. -/
def HasCount (t : StringTable) (count : Nat) : Prop :=
  ∃ ids : Finset String, (∀ id, id ∈ ids ↔ (t.get? id).isSome) ∧ ids.card = count

/-- No identifier is kept twice. -/
theorem size_eq_card (t : StringTable) : t.size = t.strings.keys.toFinset.card :=
  calc
    _ = t.strings.keys.length := (List.length_map Prod.fst).symm
    _ = t.strings.keys.toFinset.card := (List.toFinset_card_of_nodup t.strings.nodup).symm

theorem hasCount_size (t : StringTable) : t.HasCount t.size := by
  refine ⟨t.strings.keys.toFinset, fun id => ?_, t.size_eq_card.symm⟩
  rw [List.mem_toFinset, ← OrderedMap.contains_iff_mem_keys]
  rfl

theorem ids_setAll (pairs : List (String × String)) :
    (empty.setAll pairs).entries.map Prod.fst = (pairs.map Prod.fst).eraseDups :=
  OrderedMap.keys_insertAll OrderedMap.empty pairs

/-- The size of a filled table is the number of different identifiers. -/
theorem size_setAll (pairs : List (String × String)) :
    (empty.setAll pairs).size = (pairs.map Prod.fst).toFinset.card := by
  have hids : (empty.setAll pairs).strings.keys.toFinset = (pairs.map Prod.fst).toFinset := by
    ext id
    have hkeys : (empty.setAll pairs).strings.keys = (pairs.map Prod.fst).eraseDups :=
      ids_setAll pairs
    rw [hkeys, List.mem_toFinset, List.mem_toFinset, List.mem_eraseDups]
  rw [size_eq_card, hids]

/-- A table that is filled by some writes holds what they wrote. -/
theorem holds_setAll (writes : List (String × String)) : (empty.setAll writes).Holds writes where
  get? id text := by
    have hget : (empty.setAll writes).get? id =
        (writes.reverse.find? fun p => p.1 = id).map Prod.snd :=
      (OrderedMap.get?_insertAll OrderedMap.empty writes id).trans (Option.or_none ..)
    rw [hget]
    exact Assoc.find?_reverse_eq_some_iff
  ids := ids_setAll writes
  contains id := Iff.rfl
  size := size_setAll writes
  isEmpty := by
    rw [isEmpty, beq_iff_eq, size_setAll, Finset.card_eq_zero, List.toFinset_eq_empty_iff,
      List.map_eq_nil_iff]

end StringTable

end Phrasebook
