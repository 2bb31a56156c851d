import Phrasebook.Json.Value
/-!
# The parts of a document

A value has a face, which is all that it shows besides its children. An address
leads down a document by the positions of children. Documents with the same face at
every address are the same.
-/

namespace Phrasebook.Json

/-- What a value shows of itself. -/
inductive Face
  | null
  | bool (value : Bool)
  | number (value : Number)
  | text (value : String)
  /-- An array, by the number of its items. -/
  | array (length : Nat)
  /-- An object, by the names of its members in order. -/
  | object (names : List String)
deriving DecidableEq, Repr

/-- Rewrites a text; all other faces stay as they are. -/
def Face.mapText (f : String → String) : Face → Face
  | .text s => .text (f s)
  | face => face

@[simp]
theorem Face.mapText_id (face : Face) : face.mapText id = face := by
  cases face <;> rfl

namespace Value

/-- The face of a value. -/
def face : Value → Face
  | .null => .null
  | .bool value => .bool value
  | .number value => .number value
  | .text value => .text value
  | .array items => .array items.length
  | .object members => .object (members.map Prod.fst)

/-- The values directly inside a container, in order. -/
def children : Value → List Value
  | .array items => items
  | .object members => members.map Prod.snd
  | _ => []

/-- The value at an address. -/
def at? : List Nat → Value → Option Value
  | [], v => some v
  | i :: address, v => v.children[i]?.bind (at? address)

mutual

/-- The number of containers around the innermost part, that part included; zero for a
value that is no container. -/
def nesting : Value → Nat
  | .array items => 1 + nestingOfItems items
  | .object members => 1 + nestingOfMembers members
  | _ => 0

/-- The greatest nesting of items. -/
def nestingOfItems : List Value → Nat
  | [] => 0
  | v :: rest => max v.nesting (nestingOfItems rest)

/-- The greatest nesting of members. -/
def nestingOfMembers : List (String × Value) → Nat
  | [] => 0
  | (_, v) :: rest => max v.nesting (nestingOfMembers rest)

end

theorem sizeOf_lt_of_mem_children {c v : Value} (h : c ∈ v.children) : sizeOf c < sizeOf v := by
  cases v with
  | null | bool _ | number _ | text _ => cases h
  | array items =>
      have hc : sizeOf c < sizeOf items := List.sizeOf_lt_of_mem h
      simp only [array.sizeOf_spec]
      omega
  | object members =>
      obtain ⟨⟨name, c⟩, hmem, rfl⟩ := List.mem_map.mp h
      have hp := List.sizeOf_lt_of_mem hmem
      simp only [object.sizeOf_spec, Prod.mk.sizeOf_spec] at hp ⊢
      omega

/-- What passes from the children of each value to the value holds throughout. -/
theorem induction_children {motive : Value → Prop}
    (value : ∀ v, (∀ c ∈ v.children, motive c) → motive v) (v : Value) : motive v :=
  value v fun c _ => induction_children value c
termination_by sizeOf v
decreasing_by exact sizeOf_lt_of_mem_children ‹_›

@[simp]
theorem at?_nil (v : Value) : v.at? [] = some v := rfl

@[simp]
theorem at?_cons (v : Value) (i : Nat) (address : List Nat) :
    v.at? (i :: address) = v.children[i]?.bind (at? address) := rfl

/-! ### Nesting -/

theorem nestingOfMembers_eq (members : List (String × Value)) :
    nestingOfMembers members = nestingOfItems (members.map Prod.snd) := by
  induction members with
  | nil => rfl
  | cons member rest ih => rw [nestingOfMembers, List.map_cons, nestingOfItems, ih]

theorem lt_nestingOfItems_iff {n : Nat} {items : List Value} :
    n < nestingOfItems items ↔ ∃ v ∈ items, n < v.nesting := by
  induction items with
  | nil => simp [nestingOfItems]
  | cons v rest ih =>
      have hmax : n < max v.nesting (nestingOfItems rest) ↔
          n < v.nesting ∨ n < nestingOfItems rest := by omega
      simp [nestingOfItems, hmax, ih]

theorem nesting_of_not_isContainer {v : Value} (h : v.isContainer = false) : v.nesting = 0 := by
  cases v with
  | null | bool _ | number _ | text _ => rfl
  | array _ | object _ => cases h

/-- A container nests by one more than its children do. -/
theorem nesting_of_isContainer {v : Value} (h : v.isContainer = true) :
    v.nesting = 1 + nestingOfItems v.children := by
  cases v with
  | null | bool _ | number _ | text _ => cases h
  | array items => rfl
  | object members => rw [nesting, nestingOfMembers_eq, children]

/-! ### Faces -/

theorem mapText_face {v : Value} (h : v.isContainer = true) (f : String → String) :
    v.face.mapText f = v.face := by
  cases v with
  | null | bool _ | number _ | text _ => cases h
  | array _ | object _ => rfl

theorem children_of_not_isContainer {v : Value} (h : v.isContainer = false) :
    v.children = [] := by
  cases v with
  | null | bool _ | number _ | text _ => rfl
  | array _ | object _ => cases h

/-- A value consists of its face and its children. -/
theorem eq_of_face_of_children {v w : Value} (hface : v.face = w.face)
    (hchildren : v.children = w.children) : v = w := by
  cases v <;> cases w <;> simp only [face, children, Face.bool.injEq, Face.number.injEq,
    Face.text.injEq, Face.object.injEq, reduceCtorEq] at hface hchildren
  case null.null => rfl
  case bool.bool => rw [hface]
  case number.number => rw [hface]
  case text.text => rw [hface]
  case array.array => rw [hchildren]
  case object.object members others =>
    have hzip : ∀ l : List (String × Value), l = (l.map Prod.fst).zip (l.map Prod.snd) :=
      fun _ => List.zip_of_prod rfl rfl
    rw [hzip members, hface, hchildren, ← hzip others]

/-- Documents with the same face at every address are the same. -/
theorem eq_of_face {v w : Value}
    (h : ∀ address, (v.at? address).map face = (w.at? address).map face) : v = w := by
  induction v using induction_children generalizing w with
  | value v ih =>
      apply eq_of_face_of_children
      · simpa using h []
      · apply List.ext_getElem?
        intro i
        have hi : ∀ address, (v.children[i]?.bind (at? address)).map face =
            (w.children[i]?.bind (at? address)).map face := fun address => h (i :: address)
        cases hv : v.children[i]? with
        | none =>
            cases hw : w.children[i]? with
            | none => rfl
            | some d => simpa [hv, hw] using hi []
        | some c =>
            cases hw : w.children[i]? with
            | none => simpa [hv, hw] using hi []
            | some d =>
                have hcd : c = d := by
                  apply ih c (List.mem_of_getElem? hv)
                  intro address
                  simpa [hv, hw] using hi address
                rw [hcd]

end Value

end Phrasebook.Json
