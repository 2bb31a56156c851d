import Phrasebook.Document
/-!
# Copying a document and expanding it in place

The two ways of expanding a document decide alike at every container. So they
succeed on the same documents, and what expanding in place leaves behind is then
the copy, with the members of each object in their order. Where they fail, some
container lies deeper than the bound.
-/

namespace Phrasebook.Document

open Json (Value)

/-- What expanding in place leaves behind and answers, beside a copy of the same. -/
inductive Mirrors {α : Type} (run : Traversal) : α × Except Error Unit → Except Error α → Prop
  | done (copy : α) : Mirrors run (copy, .ok ()) (.ok copy)
  /-- Both fail; what is left behind is expanded in part. -/
  | tooDeep (left : α) :
    Mirrors run (left, .error (.tooDeep run.bound)) (.error (.tooDeep run.bound))

variable {α β : Type} {run : Traversal} {left : α × Except Error Unit} {copy : Except Error α}

theorem Mirrors.map (h : Mirrors run left copy) (f : α → β) :
    Mirrors run (f left.1, left.2) (copy.map f) := by
  cases h with
  | done copy => exact .done (f copy)
  | tooDeep left => exact .tooDeep (f left)

/-- A container is left alone, refused or entered, by both in the same way. -/
theorem Mirrors.container (h : Mirrors run left copy) (f : α → β) (depth : Nat) (a : α) :
    Mirrors run
      (if run.skips depth then (f a, .ok ())
        else if run.bound ≤ depth then (f a, .error (.tooDeep run.bound))
        else (f left.1, left.2))
      (if run.skips depth then .ok (f a)
        else if run.bound ≤ depth then .error (.tooDeep run.bound)
        else copy.map f) := by
  by_cases hskip : run.skips depth
  · rw [if_pos hskip, if_pos hskip]
    exact .done (f a)
  · rw [if_neg hskip, if_neg hskip]
    by_cases hdeep : run.bound ≤ depth
    · rw [if_pos hdeep, if_pos hdeep]
      exact .tooDeep (f a)
    · rw [if_neg hdeep, if_neg hdeep]
      exact h.map f

mutual

theorem populateAt_mirrors (run : Traversal) (depth : Nat) :
    ∀ v : Value, Mirrors run (populateAt run depth v) (translateAt run depth v)
  | .null | .bool _ | .number _ | .text _ => .done _
  | .array items =>
      (populateItems_mirrors run (depth + 1) items).container Value.array depth items
  | .object members =>
      (populateMembers_mirrors run (depth + 1) members).container Value.object depth members

theorem populateItems_mirrors (run : Traversal) (depth : Nat) :
    ∀ items : List Value,
      Mirrors run (populateItems run depth items) (translateItems run depth items)
  | [] => .done []
  | v :: rest => by
      have hv := populateAt_mirrors run depth v
      have hrest := populateItems_mirrors run depth rest
      rw [populateItems, translateItems]
      generalize populateAt run depth v = left, translateAt run depth v = copy at hv
      cases hv with
      | done copy => exact hrest.map (copy :: ·)
      | tooDeep left => exact .tooDeep (left :: rest)

theorem populateMembers_mirrors (run : Traversal) (depth : Nat) :
    ∀ members : List (String × Value),
      Mirrors run (populateMembers run depth members) (translateMembers run depth members)
  | [] => .done []
  | (name, v) :: rest => by
      have hv := populateAt_mirrors run depth v
      have hrest := populateMembers_mirrors run depth rest
      rw [populateMembers, translateMembers]
      generalize populateAt run depth v = left, translateAt run depth v = copy at hv
      cases hv with
      | done copy => exact hrest.map ((name, copy) :: ·)
      | tooDeep left => exact .tooDeep ((name, left) :: rest)

end

/-- A copy fails at the bound only. -/
theorem translateAt_error {depth : Nat} {v : Value} {e : Error}
    (h : translateAt run depth v = .error e) : e = .tooDeep run.bound := by
  have hv := populateAt_mirrors run depth v
  generalize populateAt run depth v = left, translateAt run depth v = copy at h hv
  cases hv with
  | done copy => cases h
  | tooDeep left =>
      cases h
      rfl

/-- Expanding in place fails at the bound only. -/
theorem populateAt_error {depth : Nat} {v : Value} {e : Error}
    (h : (populateAt run depth v).2 = .error e) : e = .tooDeep run.bound := by
  have hv := populateAt_mirrors run depth v
  generalize populateAt run depth v = left, translateAt run depth v = copy at h hv
  cases hv with
  | done copy => cases h
  | tooDeep left =>
      cases h
      rfl

/-- A document is copied if and only if it can be expanded in place, which then
leaves the copy behind. Otherwise both fail, at the bound of the traversal. -/
theorem populate_eq_translate (run : Traversal) (document : Value) :
    match translate run document with
    | .ok copy => populate run document = (copy, .ok ())
    | .error e => e = .tooDeep run.bound ∧
        (populate run document).2 = .error (.tooDeep run.bound) := by
  have h := populateAt_mirrors run 0 document
  rw [translate, populate]
  generalize populateAt run 0 document = left, translateAt run 0 document = copy at h
  cases h with
  | done copy => rfl
  | tooDeep left => exact ⟨rfl, rfl⟩

end Phrasebook.Document
