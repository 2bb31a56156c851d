import Phrasebook.Error
import Phrasebook.Proofs.Json.Objects
import Phrasebook.Proofs.StringTable.Writes
/-!
# Editing a table

A table is edited by loading texts and by setting single identifiers. A text is loaded
just when it writes an object of strings, and does what setting its members in order
does; any other text is refused, and changes nothing. After some edits a table holds what
the successful ones have written.
-/

namespace Phrasebook.StringTable

open Json.StringObject (Written)

/-! ### Loading and setting -/

theorem load_of_written {source : String} {pairs : List (String × String)}
    (h : Written pairs source) (t : StringTable) : t.load source = .ok (t.setAll pairs) := by
  rw [load_eq, Json.StringObject.read_eq_ok_iff.mpr h]
  rfl

/-- What no object writes is not loaded. -/
theorem load_of_not_written {source : String} (h : ∀ pairs, ¬ Written pairs source)
    (t : StringTable) : ∃ fault, t.load source = .error fault := by
  cases hread : Json.StringObject.read source with
  | error fault =>
      rw [load_eq, hread]
      exact ⟨fault, rfl⟩
  | ok pairs => exact absurd (Json.StringObject.read_eq_ok_iff.mp hread) (h pairs)

theorem setAll_eq_foldl (t : StringTable) (pairs : List (String × String)) :
    t.setAll pairs = pairs.foldl (fun t p => t.set p.1 p.2) t := by
  induction pairs generalizing t with
  | nil => rfl
  | cons p pairs ih => exact ih (t.set p.1 p.2)

/-- Loading the members of an object, however they are written, is setting them one by one;
so a text with the members of two others does what these do one after the other. -/
theorem load_eq_set (t : StringTable) (pairs : List (String × String)) :
    Written pairs (Json.StringObject.write pairs) ∧
    (∀ source, Written pairs source →
      t.load source = .ok (pairs.foldl (fun t p => t.set p.1 p.2) t)) ∧
    ∀ more both first second, Written (pairs ++ more) both → Written pairs first →
      Written more second →
        t.load both = (t.load first).bind fun loaded => loaded.load second := by
  refine ⟨Json.StringObject.written_write pairs, ?_, ?_⟩
  · intro source hsource
    rw [load_of_written hsource, setAll_eq_foldl]
  · intro more both first second hboth hfirst hsecond
    calc
      t.load both = .ok (t.setAll (pairs ++ more)) := load_of_written hboth t
      _ = .ok ((t.setAll pairs).setAll more) := by rw [setAll_append]
      _ = (t.setAll pairs).load second := (load_of_written hsecond _).symm
      _ = (t.load first).bind fun loaded => loaded.load second := by
        rw [load_of_written hfirst]
        rfl

/-! ### Sequences of edits -/

/-- A change of a table. -/
inductive Edit
  | load (source : String)
  | set (id text : String)

/-- What an edit writes, in order. An edit that writes nothing of the kind is refused. -/
inductive Edit.Writes : Edit → List (String × String) → Prop
  | load {source : String} {pairs : List (String × String)} (h : Written pairs source) :
    Writes (.load source) pairs
  | set (id text : String) : Writes (.set id text) [(id, text)]

/-- What the edits of a sequence write that are not refused, in order. -/
inductive Wrote : List Edit → List (String × String) → Prop
  | nil : Wrote [] []
  | taken {edit : Edit} {edits : List Edit} {pairs writes : List (String × String)}
      (h : edit.Writes pairs) (hrest : Wrote edits writes) : Wrote (edit :: edits) (pairs ++ writes)
  | refused {edit : Edit} {edits : List Edit} {writes : List (String × String)}
      (h : ∀ pairs, ¬ edit.Writes pairs) (hrest : Wrote edits writes) :
    Wrote (edit :: edits) writes

/-- The answer to an edit, and the table behind it. -/
def edit (t : StringTable) : Edit → Except Error Unit × StringTable
  | .load source =>
    match t.load source with
    | .ok loaded => (.ok (), loaded)
    | .error fault => (.error (.parse fault), t)
  | .set id text => (.ok (), t.set id text)

/-- The table after some edits. -/
def after (t : StringTable) (edits : List Edit) : StringTable :=
  edits.foldl (fun t e => (t.edit e).2) t

theorem after_cons (t : StringTable) (e : Edit) (edits : List Edit) :
    t.after (e :: edits) = (t.edit e).2.after edits :=
  rfl

/-- The edits of a sequence that succeed. -/
def succeeding (t : StringTable) : List Edit → List Edit
  | [] => []
  | e :: edits =>
    match t.edit e with
    | (.ok (), edited) => e :: succeeding edited edits
    | (.error _, edited) => succeeding edited edits

theorem edit_of_writes {e : Edit} {pairs : List (String × String)} (h : e.Writes pairs)
    (t : StringTable) : t.edit e = (.ok (), t.setAll pairs) := by
  cases h with
  | load h => rw [edit, load_of_written h]
  | set id text => rfl

/-- An edit that is refused leaves the table as it is. -/
theorem edit_of_refused {e : Edit} (h : ∀ pairs, ¬ e.Writes pairs) (t : StringTable) :
    ∃ fault, t.edit e = (.error (.parse fault), t) := by
  cases e with
  | load source =>
      obtain ⟨fault, hfault⟩ := load_of_not_written (fun pairs hp => h pairs (.load hp)) t
      rw [edit, hfault]
      exact ⟨fault, rfl⟩
  | set id text => exact absurd (.set id text) (h _)

theorem edit_cases (t : StringTable) (e : Edit) :
    (∃ pairs, e.Writes pairs ∧ t.edit e = (.ok (), t.setAll pairs)) ∨
      (∀ pairs, ¬ e.Writes pairs) ∧ ∃ fault, t.edit e = (.error (.parse fault), t) := by
  by_cases h : ∃ pairs, e.Writes pairs
  · obtain ⟨pairs, hpairs⟩ := h
    exact .inl ⟨pairs, hpairs, edit_of_writes hpairs t⟩
  · have hrefused : ∀ pairs, ¬ e.Writes pairs := fun pairs hpairs => h ⟨pairs, hpairs⟩
    exact .inr ⟨hrefused, edit_of_refused hrefused t⟩

/-- Edits that fail can be left out. -/
theorem after_succeeding (t : StringTable) (edits : List Edit) :
    t.after (t.succeeding edits) = t.after edits := by
  induction edits generalizing t with
  | nil => rfl
  | cons e edits ih =>
      obtain ⟨pairs, -, hedit⟩ | ⟨-, fault, hedit⟩ := edit_cases t e
      · have hkept : t.succeeding (e :: edits) = e :: (t.setAll pairs).succeeding edits := by
          rw [succeeding, hedit]
        calc
          t.after (t.succeeding (e :: edits)) =
              (t.edit e).2.after ((t.setAll pairs).succeeding edits) := by rw [hkept, after_cons]
          _ = (t.setAll pairs).after edits := by rw [hedit, ih]
          _ = t.after (e :: edits) := by rw [after_cons, hedit]
      · have hleft : t.succeeding (e :: edits) = t.succeeding edits := by
          rw [succeeding, hedit]
        calc
          t.after (t.succeeding (e :: edits)) = t.after (t.succeeding edits) := by rw [hleft]
          _ = t.after edits := ih t
          _ = t.after (e :: edits) := by rw [after_cons, hedit]

theorem exists_wrote (edits : List Edit) : ∃ writes, Wrote edits writes := by
  induction edits with
  | nil => exact ⟨[], .nil⟩
  | cons e edits ih =>
      obtain ⟨writes, hwrites⟩ := ih
      obtain ⟨pairs, hpairs, -⟩ | ⟨hrefused, -⟩ := edit_cases empty e
      · exact ⟨pairs ++ writes, .taken hpairs hwrites⟩
      · exact ⟨writes, .refused hrefused hwrites⟩

/-- Edits write in turn what they write. -/
theorem after_eq_setAll {edits : List Edit} {writes : List (String × String)}
    (h : Wrote edits writes) (t : StringTable) : t.after edits = t.setAll writes := by
  induction h generalizing t with
  | nil => rfl
  | @taken e edits pairs writes h hrest ih =>
      calc
        t.after (e :: edits) = (t.setAll pairs).after edits := by rw [after_cons, edit_of_writes h]
        _ = (t.setAll pairs).setAll writes := ih _
        _ = t.setAll (pairs ++ writes) := (setAll_append t pairs writes).symm
  | @refused e edits writes h hrest ih =>
      obtain ⟨fault, hfault⟩ := edit_of_refused h t
      calc
        t.after (e :: edits) = t.after edits := by rw [after_cons, hfault]
        _ = t.setAll writes := ih t

theorem edit_load_iff (t : StringTable) (source : String) :
    (∃ fault, t.edit (.load source) = (.error (.parse fault), t)) ↔
      ∀ pairs, ¬ Written pairs source := by
  constructor
  · rintro ⟨fault, hfault⟩ pairs hpairs
    rw [edit_of_writes (.load hpairs)] at hfault
    cases hfault
  · intro h
    apply edit_of_refused
    rintro pairs ⟨hpairs⟩
    exact h pairs hpairs

/-- Just the texts that are no object of strings are refused. What is refused changes
nothing and can be left out; after some edits the empty table holds what the others have
written; and tables are compared by their entries alone. -/
theorem holds_after :
    (∀ (t : StringTable) (source : String),
      (∃ fault, t.edit (.load source) = (.error (.parse fault), t)) ↔
        ∀ pairs, ¬ Written pairs source) ∧
    (∀ (t : StringTable) (edits : List Edit), t.after (t.succeeding edits) = t.after edits) ∧
    (∀ edits : List Edit, (∃ writes, Wrote edits writes) ∧
      ∀ writes, Wrote edits writes → (empty.after edits).Holds writes) ∧
    ∀ a b : StringTable, a.sameEntries b = true ↔ a.entries.Perm b.entries := by
  refine ⟨edit_load_iff, after_succeeding, ?_, ?_⟩
  · intro edits
    refine ⟨exists_wrote edits, ?_⟩
    intro writes hwrites
    rw [after_eq_setAll hwrites]
    exact holds_setAll writes
  · intro a b
    exact OrderedMap.sameEntries_iff_perm a.strings b.strings

end Phrasebook.StringTable
