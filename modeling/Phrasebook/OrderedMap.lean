/-!
# Insertion-ordered maps

A key keeps the place of its first write and the value of its last. `Assoc`
holds the operations on bare lists of pairs, which JSON objects use as they
are; an `OrderedMap` adds that no key stands twice.
-/

namespace Phrasebook

/-- There is nothing to erase where no element stands twice. -/
theorem eraseDups_of_nodup {α : Type} [DecidableEq α] {l : List α} (h : l.Nodup) :
    l.eraseDups = l := by
  induction l with
  | nil => rfl
  | cons a l ih =>
    obtain ⟨ha, hl⟩ := List.nodup_cons.1 h
    have hkept : l.filter (fun x => !x == a) = l := by
      rw [List.filter_eq_self]
      intro x hx
      have hne : x ≠ a := fun e => ha (e ▸ hx)
      simpa using hne
    rw [List.eraseDups_cons, hkept, ih hl]

namespace Assoc

variable {κ : Type} {ν : Type} [DecidableEq κ]

/-- The value of the first pair with key `k`. -/
def get? (k : κ) : List (κ × ν) → Option ν
  | [] => none
  | (k', v) :: rest => if k' = k then some v else get? k rest

/-- Overwrites the value of `k` in place, or adds the pair at the end. -/
def put (k : κ) (v : ν) : List (κ × ν) → List (κ × ν)
  | [] => [(k, v)]
  | (k', v') :: rest => if k' = k then (k', v) :: rest else (k', v') :: put k v rest

/-- Removes the first pair with key `k`. -/
def erase (k : κ) : List (κ × ν) → List (κ × ν)
  | [] => []
  | (k', v) :: rest => if k' = k then rest else (k', v) :: erase k rest

theorem map_fst_put (k : κ) (v : ν) (l : List (κ × ν)) :
    (put k v l).map Prod.fst =
      if k ∈ l.map Prod.fst then l.map Prod.fst else l.map Prod.fst ++ [k] := by
  induction l with
  | nil => simp [put]
  | cons p l ih =>
    obtain ⟨k', v'⟩ := p
    by_cases h : k' = k
    · simp [put, h]
    · have h' : ¬ k = k' := fun e => h e.symm
      by_cases hm : k ∈ l.map Prod.fst
      · simp only [put, h, if_false, List.map_cons, ih, hm, if_true]
        simp only [List.mem_cons, hm, or_true, if_true]
      · simp only [put, h, if_false, List.map_cons, ih, hm]
        simp only [List.mem_cons, h', hm, or_self, if_false, List.cons_append]

theorem mem_map_fst_erase {k x : κ} {l : List (κ × ν)} (h : x ∈ (erase k l).map Prod.fst) :
    x ∈ l.map Prod.fst := by
  induction l with
  | nil => simp [erase] at h
  | cons p l ih =>
    obtain ⟨k', v⟩ := p
    by_cases hk : k' = k
    · simp only [erase, hk, if_true] at h
      simp [h]
    · simp only [erase, hk, if_false, List.map_cons, List.mem_cons] at h
      rcases h with h | h
      · simp [h]
      · simp only [List.map_cons, List.mem_cons]; exact Or.inr (ih h)

theorem nodup_put {k : κ} {v : ν} {l : List (κ × ν)} (h : (l.map Prod.fst).Nodup) :
    ((put k v l).map Prod.fst).Nodup := by
  rw [map_fst_put]
  split
  · exact h
  · rename_i hk
    refine List.nodup_append.2 ⟨h, by simp, ?_⟩
    intro a ha b hb
    simp only [List.mem_singleton] at hb
    rintro rfl
    exact hk (hb ▸ ha)

theorem nodup_erase {k : κ} {l : List (κ × ν)} (h : (l.map Prod.fst).Nodup) :
    ((erase k l).map Prod.fst).Nodup := by
  induction l with
  | nil => simp [erase]
  | cons p l ih =>
    obtain ⟨k', v⟩ := p
    simp only [List.map_cons, List.nodup_cons] at h
    by_cases hk : k' = k
    · simpa [erase, hk] using h.2
    · simp only [erase, hk, if_false, List.map_cons, List.nodup_cons]
      exact ⟨fun hm => h.1 (mem_map_fst_erase hm), ih h.2⟩

theorem get?_put (k x : κ) (v : ν) (l : List (κ × ν)) :
    get? x (put k v l) = if k = x then some v else get? x l := by
  induction l with
  | nil => simp [put, get?]
  | cons p l ih =>
    obtain ⟨k', v'⟩ := p
    by_cases hk : k' = k
    · subst hk
      simp only [put, get?, if_true]
      split <;> rfl
    · have hk' : ¬ k = k' := fun e => hk e.symm
      simp only [put, hk, if_false, get?, ih]
      by_cases hx : k' = x
      · subst hx
        simp only [hk', if_true, if_false]
      · simp only [hx, if_false]

theorem isSome_get? {k : κ} {l : List (κ × ν)} : (get? k l).isSome ↔ k ∈ l.map Prod.fst := by
  induction l with
  | nil => simp [get?]
  | cons p l ih =>
    obtain ⟨k', v⟩ := p
    by_cases hk : k' = k
    · simp [get?, hk]
    · have hk' : ¬ k = k' := fun e => hk e.symm
      simp only [get?, hk, if_false, ih, List.map_cons, List.mem_cons, hk', false_or]

theorem get?_erase {k x : κ} {l : List (κ × ν)} (h : (l.map Prod.fst).Nodup) :
    get? x (erase k l) = if k = x then none else get? x l := by
  induction l with
  | nil => simp [erase, get?]
  | cons p l ih =>
    obtain ⟨k', v⟩ := p
    simp only [List.map_cons, List.nodup_cons] at h
    by_cases hk : k' = k
    · subst hk
      by_cases hx : k' = x
      · subst hx
        have hnone : get? k' l = none := by
          rw [← Option.not_isSome_iff_eq_none, isSome_get?]
          exact h.1
        simp [erase, hnone]
      · simp [erase, get?, hx]
    · have hk' : ¬ k = k' := fun e => hk e.symm
      simp only [erase, hk, if_false, get?, ih h.2]
      by_cases hx : k' = x
      · subst hx
        simp only [hk', if_true, if_false]
      · simp only [hx, if_false]

theorem put_of_not_mem {k : κ} {l : List (κ × ν)} (h : k ∉ l.map Prod.fst) (v : ν) :
    put k v l = l ++ [(k, v)] := by
  induction l with
  | nil => rfl
  | cons p l ih =>
    obtain ⟨k', v'⟩ := p
    simp only [List.map_cons, List.mem_cons, not_or] at h
    have hk' : ¬ k' = k := fun e => h.1 e.symm
    simp only [put, hk', if_false, ih h.2, List.cons_append]

theorem erase_eq_filter {k : κ} {l : List (κ × ν)} (h : (l.map Prod.fst).Nodup) :
    erase k l = l.filter fun p => p.1 ≠ k := by
  induction l with
  | nil => rfl
  | cons p l ih =>
    obtain ⟨k', v⟩ := p
    simp only [List.map_cons, List.nodup_cons] at h
    by_cases hk : k' = k
    · subst hk
      have hkept : l.filter (fun p => p.1 ≠ k') = l := by
        rw [List.filter_eq_self]
        intro p hp
        have hne : p.1 ≠ k' := fun e => h.1 (e ▸ List.mem_map_of_mem hp)
        simpa using hne
      rw [erase, if_pos rfl, List.filter_cons_of_neg (by simp), hkept]
    · simp [erase, hk, ih h.2]

theorem get?_eq_some_iff {k : κ} {v : ν} {l : List (κ × ν)} (h : (l.map Prod.fst).Nodup) :
    get? k l = some v ↔ (k, v) ∈ l := by
  induction l with
  | nil => simp [get?]
  | cons p l ih =>
    obtain ⟨k', v'⟩ := p
    simp only [List.map_cons, List.nodup_cons] at h
    by_cases hk : k' = k
    · subst hk
      have hnone : (k', v) ∉ l := fun hm => h.1 (List.mem_map_of_mem hm)
      simp [get?, hnone, eq_comm]
    · have hk' : ¬ k = k' := fun e => hk e.symm
      simp [get?, hk, hk', ih h.2]

/-- Where no key stands twice, the last value of a key is the first. -/
theorem find?_reverse {k : κ} {l : List (κ × ν)} (h : (l.map Prod.fst).Nodup) :
    (l.reverse.find? fun p => p.1 = k).map Prod.snd = get? k l := by
  induction l with
  | nil => rfl
  | cons p l ih =>
    obtain ⟨k', v⟩ := p
    simp only [List.map_cons, List.nodup_cons] at h
    rw [List.reverse_cons, List.find?_append, Option.map_or, ih h.2]
    by_cases hk : k' = k
    · subst hk
      have hnone : get? k' l = none := by
        rw [← Option.not_isSome_iff_eq_none, isSome_get?]
        exact h.1
      simp [get?, hnone]
    · simp [get?, hk]

/-- A key that a filter spares keeps its value. -/
theorem get?_filter {k : κ} {l : List (κ × ν)} {p : κ × ν → Bool}
    (h : ∀ v, (k, v) ∈ l → p (k, v) = true) : get? k (l.filter p) = get? k l := by
  induction l with
  | nil => rfl
  | cons q l ih =>
    obtain ⟨k', v⟩ := q
    have hrest := ih fun v hv => h v (by simp [hv])
    by_cases hk : k' = k
    · subst hk
      rw [List.filter_cons_of_pos (h v (by simp))]
      simp [get?]
    · by_cases hp : p (k', v) = true
      · rw [List.filter_cons_of_pos hp]
        simp [get?, hk, hrest]
      · rw [List.filter_cons_of_neg hp]
        simp [get?, hk, hrest]

end Assoc

/-- Pairs in the order in which their keys were first written. -/
structure OrderedMap (κ : Type) (ν : Type) where
  /-- The pairs, oldest key first. -/
  entries : List (κ × ν)
  /-- No key stands twice. -/
  nodup : (entries.map Prod.fst).Nodup

namespace OrderedMap

variable {κ : Type} {ν : Type}

/-- The map without keys. -/
def empty : OrderedMap κ ν := ⟨[], by simp⟩

instance : Inhabited (OrderedMap κ ν) := ⟨empty⟩

/-- The keys, in the order of their first write. -/
def keys (m : OrderedMap κ ν) : List κ := m.entries.map Prod.fst

/-- The number of keys. -/
def size (m : OrderedMap κ ν) : Nat := m.entries.length

variable [DecidableEq κ]

/-- The value last written under `k`. -/
def get? (m : OrderedMap κ ν) (k : κ) : Option ν := Assoc.get? k m.entries

/-- Whether `k` has been written. -/
def contains (m : OrderedMap κ ν) (k : κ) : Bool := (m.get? k).isSome

/-- Writes `v` under `k`; a key that is present keeps its place. -/
def insert (m : OrderedMap κ ν) (k : κ) (v : ν) : OrderedMap κ ν :=
  ⟨Assoc.put k v m.entries, Assoc.nodup_put m.nodup⟩

/-- Writes each pair in turn. -/
def insertAll (m : OrderedMap κ ν) (pairs : List (κ × ν)) : OrderedMap κ ν :=
  pairs.foldl (fun m p => m.insert p.1 p.2) m

/-- The map of some pairs, of which the last one counts for a key. -/
def ofList (pairs : List (κ × ν)) : OrderedMap κ ν := empty.insertAll pairs

/-- Removes `k`; the other keys keep their order. -/
def erase (m : OrderedMap κ ν) (k : κ) : OrderedMap κ ν :=
  ⟨Assoc.erase k m.entries, Assoc.nodup_erase m.nodup⟩

/-- Whether two maps hold the same pairs, in whatever order. -/
def sameEntries [BEq ν] (a b : OrderedMap κ ν) : Bool :=
  a.size == b.size && a.entries.all fun p => b.get? p.1 == some p.2

@[simp] theorem get?_empty (k : κ) : (empty : OrderedMap κ ν).get? k = none := rfl

theorem get?_insert (m : OrderedMap κ ν) (k x : κ) (v : ν) :
    (m.insert k v).get? x = if k = x then some v else m.get? x :=
  Assoc.get?_put k x v m.entries

theorem get?_erase (m : OrderedMap κ ν) (k x : κ) :
    (m.erase k).get? x = if k = x then none else m.get? x :=
  Assoc.get?_erase m.nodup

theorem get?_eq_some_iff {m : OrderedMap κ ν} {k : κ} {v : ν} :
    m.get? k = some v ↔ (k, v) ∈ m.entries :=
  Assoc.get?_eq_some_iff m.nodup

theorem contains_iff_mem_keys {m : OrderedMap κ ν} {k : κ} :
    m.contains k = true ↔ k ∈ m.keys :=
  Assoc.isSome_get?

/-- A new key goes to the end. -/
theorem entries_insert {m : OrderedMap κ ν} {k : κ} (h : m.get? k = none) (v : ν) :
    (m.insert k v).entries = m.entries ++ [(k, v)] := by
  apply Assoc.put_of_not_mem
  rw [← Assoc.isSome_get?, Option.not_isSome_iff_eq_none]
  exact h

/-- The other keys keep their order. -/
theorem entries_erase (m : OrderedMap κ ν) (k : κ) :
    (m.erase k).entries = m.entries.filter fun p => p.1 ≠ k :=
  Assoc.erase_eq_filter m.nodup

/-- Of the values written under a key, the last one stays. -/
theorem get?_insertAll (m : OrderedMap κ ν) (pairs : List (κ × ν)) (k : κ) :
    (m.insertAll pairs).get? k =
      ((pairs.reverse.find? fun p => p.1 = k).map Prod.snd).or (m.get? k) := by
  induction pairs generalizing m with
  | nil => simp [insertAll]
  | cons p pairs ih =>
    have hstep : m.insertAll (p :: pairs) = (m.insert p.1 p.2).insertAll pairs := rfl
    rw [hstep, ih, get?_insert, List.reverse_cons, List.find?_append]
    cases pairs.reverse.find? fun p => p.1 = k with
    | some q => simp
    | none => by_cases hk : p.1 = k <;> simp [hk]

theorem keys_insert (m : OrderedMap κ ν) (k : κ) (v : ν) :
    (m.insert k v).keys = if k ∈ m.keys then m.keys else m.keys ++ [k] :=
  Assoc.map_fst_put k v m.entries

theorem mem_keys_insert (m : OrderedMap κ ν) {k x : κ} (v : ν) :
    x ∈ (m.insert k v).keys ↔ x ∈ m.keys ∨ k = x := by
  rw [keys_insert]
  split
  · rename_i hkey
    rw [or_iff_left_of_imp]
    rintro rfl
    exact hkey
  · rw [List.mem_append, List.mem_singleton, eq_comm]

theorem eraseDups_keys (m : OrderedMap κ ν) : m.keys.eraseDups = m.keys :=
  eraseDups_of_nodup m.nodup

/-- Keys stand in the order of their first write. -/
theorem keys_insertAll (m : OrderedMap κ ν) (pairs : List (κ × ν)) :
    (m.insertAll pairs).keys = (m.keys ++ pairs.map Prod.fst).eraseDups := by
  induction pairs generalizing m with
  | nil => simp [insertAll, eraseDups_keys]
  | cons p pairs ih =>
    have hstep : m.insertAll (p :: pairs) = (m.insert p.1 p.2).insertAll pairs := rfl
    rw [hstep, ih, keys_insert, List.map_cons]
    split
    · rename_i hk
      have hseen : (p.1 :: pairs.map Prod.fst).removeAll m.keys =
          (pairs.map Prod.fst).removeAll m.keys := by
        simp [List.removeAll, hk]
      rw [List.eraseDups_append, List.eraseDups_append, hseen]
    · rw [List.append_assoc, List.singleton_append]

/-- A map is told by its keys, in order, and their values. -/
theorem eq_of_get? {m n : OrderedMap κ ν} (hkeys : m.keys = n.keys)
    (hget : ∀ k, m.get? k = n.get? k) : m = n := by
  have hlength : m.entries.length = n.entries.length := by
    simpa [keys] using congrArg List.length hkeys
  have hentries : m.entries = n.entries := by
    apply List.ext_getElem hlength
    intro i hm hn
    have hkey : (m.entries[i]).1 = (n.entries[i]).1 := by
      simpa [keys] using List.getElem_of_eq hkeys (by simpa [keys] using hm)
    have hvm : m.get? (m.entries[i]).1 = some (m.entries[i]).2 :=
      get?_eq_some_iff.2 (List.getElem_mem hm)
    have hvn : n.get? (n.entries[i]).1 = some (n.entries[i]).2 :=
      get?_eq_some_iff.2 (List.getElem_mem hn)
    rw [hget, hkey, hvn] at hvm
    exact Prod.ext hkey (Option.some.inj hvm).symm
  cases m
  cases n
  cases hentries
  rfl

theorem insertAll_append (m : OrderedMap κ ν) (a b : List (κ × ν)) :
    m.insertAll (a ++ b) = (m.insertAll a).insertAll b :=
  List.foldl_append

theorem get?_insertAll_entries (m n : OrderedMap κ ν) (k : κ) :
    (m.insertAll n.entries).get? k = (n.get? k).or (m.get? k) := by
  rw [get?_insertAll, Assoc.find?_reverse n.nodup]
  rfl

theorem insertAll_entries_insert (m n : OrderedMap κ ν) (k : κ) (v : ν) :
    m.insertAll (n.insert k v).entries = (m.insertAll n.entries).insert k v := by
  by_cases hk : k ∈ n.keys
  · apply eq_of_get?
    · have hseen : k ∈ (m.insertAll n.entries).keys := by
        rw [keys_insertAll, List.mem_eraseDups]
        exact List.mem_append_right _ hk
      rw [keys_insert, if_pos hseen, keys_insertAll, keys_insertAll]
      change (m.keys ++ (n.insert k v).keys).eraseDups = (m.keys ++ n.keys).eraseDups
      rw [keys_insert, if_pos hk]
    · intro x
      rw [get?_insert, get?_insertAll_entries, get?_insertAll_entries, get?_insert]
      split <;> rfl
  · have hnone : n.get? k = none := by
      rw [← Option.not_isSome_iff_eq_none]
      exact fun h => hk (contains_iff_mem_keys.1 h)
    rw [entries_insert hnone, insertAll_append]
    rfl

/-- Pairs may be collected in a map first: what stands twice in them is written once. -/
theorem insertAll_entries_ofList (m : OrderedMap κ ν) (pairs : List (κ × ν)) :
    m.insertAll (ofList pairs).entries = m.insertAll pairs := by
  have hall : ∀ n : OrderedMap κ ν,
      m.insertAll (n.insertAll pairs).entries = (m.insertAll n.entries).insertAll pairs := by
    induction pairs with
    | nil => intro n; rfl
    | cons p pairs ih =>
      intro n
      have hstep := ih (n.insert p.1 p.2)
      rwa [insertAll_entries_insert] at hstep
  exact hall empty

end OrderedMap

end Phrasebook
