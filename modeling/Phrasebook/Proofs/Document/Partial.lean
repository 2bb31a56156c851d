import Phrasebook.Proofs.Document.Copying
/-!
# What a failed expansion leaves behind

Expanding in place goes through a document in order: a container comes before what it
holds, and children come one after the other. It fails at the first container that is as
deep as the bound. The texts before that container are expanded, and everything else is as
it was.
-/

namespace Phrasebook

namespace Json.Value

/-- Whether a container stands at an address. -/
def IsContainerAt (v : Value) (address : List Nat) : Prop :=
  ∃ part, v.at? address = some part ∧ part.isContainer = true

/-- The order of addresses in a document: a container comes before what it holds, and
children come in their order. -/
def IsBefore (address other : List Nat) : Prop := List.Lex (· < ·) address other

instance (address other : List Nat) : Decidable (IsBefore address other) :=
  List.decidableLex (· < ·) address other

/-- The first container that stands inside `depth` others. -/
structure IsFirstContainer (v : Value) (depth : Nat) (address : List Nat) : Prop where
  container : v.IsContainerAt address
  length : address.length = depth
  first : ∀ other, v.IsContainerAt other → other.length = depth → ¬ IsBefore other address

variable {v : Value} {i depth : Nat} {address other : List Nat}

theorem isBefore_cons_iff {i j : Nat} : IsBefore (i :: address) (j :: other) ↔
    i < j ∨ i = j ∧ IsBefore address other :=
  List.cons_lex_cons_iff

/-- Of two addresses one comes before the other. -/
theorem eq_of_not_isBefore (h : ¬ IsBefore address other) (h' : ¬ IsBefore other address) :
    address = other := by
  induction address generalizing other with
  | nil => exact (List.not_nil_lex_iff.mp h).symm
  | cons i address ih =>
      cases other with
      | nil => exact absurd List.nil_lex_cons' h'
      | cons j other =>
          rw [isBefore_cons_iff, not_or, Nat.not_lt] at h h'
          obtain rfl : i = j := Nat.le_antisymm h'.1 h.1
          rw [ih (fun hlt => h.2 ⟨rfl, hlt⟩) fun hlt => h'.2 ⟨rfl, hlt⟩]

theorem isContainerAt_cons :
    v.IsContainerAt (i :: address) ↔ ∃ c, v.children[i]? = some c ∧ c.IsContainerAt address := by
  simp only [IsContainerAt, at?_cons, Option.bind_eq_some_iff]
  constructor
  · rintro ⟨part, ⟨c, hc, hpart⟩, hcontainer⟩
    exact ⟨c, hc, part, hpart, hcontainer⟩
  · rintro ⟨c, hc, part, hpart, hcontainer⟩
    exact ⟨part, ⟨c, hc, hpart⟩, hcontainer⟩

theorem isContainer_of_mem_children {c : Value} (h : c ∈ v.children) : v.isContainer = true := by
  refine Bool.of_not_eq_false fun hv => ?_
  rw [children_of_not_isContainer hv] at h
  cases h

/-- A container nests deeper than its address is long. -/
theorem IsContainerAt.length_lt (h : v.IsContainerAt address) : address.length < v.nesting := by
  induction address generalizing v with
  | nil =>
      obtain ⟨part, hpart, hcontainer⟩ := h
      cases hpart
      rw [nesting_of_isContainer hcontainer]
      exact Nat.lt_of_lt_of_le Nat.zero_lt_one (Nat.le_add_right _ _)
  | cons i address ih =>
      obtain ⟨c, hc, hinner⟩ := isContainerAt_cons.mp h
      have hmem : c ∈ v.children := List.mem_of_getElem? hc
      have hlt : address.length < nestingOfItems v.children :=
        lt_nestingOfItems_iff.mpr ⟨c, hmem, ih hinner⟩
      rw [nesting_of_isContainer (isContainer_of_mem_children hmem), List.length_cons]
      omega

theorem IsFirstContainer.unique (h : v.IsFirstContainer depth address)
    (h' : v.IsFirstContainer depth other) : address = other :=
  eq_of_not_isBefore (h'.first address h.container h.length) (h.first other h'.container h'.length)

theorem isFirstContainer_nil (h : v.isContainer = true) : v.IsFirstContainer 0 [] where
  container := ⟨v, rfl, h⟩
  length := rfl
  first _ _ _ := List.not_lex_nil

/-- A container is the first one in its parent if no child before its own has one. -/
theorem IsFirstContainer.cons {before after : List Value} {c : Value}
    (hc : c.IsFirstContainer depth address) (hsplit : v.children = before ++ c :: after)
    (hbefore : ∀ b ∈ before, ∀ other, b.IsContainerAt other → other.length ≠ depth) :
    v.IsFirstContainer (depth + 1) (before.length :: address) where
  container := by
    refine isContainerAt_cons.mpr ⟨c, ?_, hc.container⟩
    simp [hsplit]
  length := congrArg Nat.succ hc.length
  first other hother hlength := by
    cases other with
    | nil => cases hlength
    | cons j other =>
        obtain ⟨d, hd, hinside⟩ := isContainerAt_cons.mp hother
        have hdepth : other.length = depth := Nat.succ.inj hlength
        rw [hsplit] at hd
        rcases Nat.lt_trichotomy j before.length with hlt | rfl | hgt
        · rw [List.getElem?_append_left hlt] at hd
          exact absurd hdepth (hbefore d (List.mem_of_getElem? hd) other hinside)
        · obtain rfl : c = d := by simpa using hd
          rw [isBefore_cons_iff]
          rintro (hlt | ⟨-, hlt⟩)
          · exact Nat.lt_irrefl _ hlt
          · exact hc.first other hinside hdepth hlt
        · rw [isBefore_cons_iff]
          rintro (hlt | ⟨rfl, -⟩)
          · exact Nat.lt_asymm hlt hgt
          · exact Nat.lt_irrefl _ hgt

end Json.Value

namespace Document

open Json (Value)

variable {run : Traversal} {depth : Nat} {v : Value} {items : List Value} {e : Error}

/-- What becomes of a face at an address, if the container at `refused` is refused. -/
def Traversal.upTo (run : Traversal) (refused address : List Nat) (face : Json.Face) : Json.Face :=
  if Value.IsBefore address refused then face.mapText (Template.expand run.table) else face

section

variable (run : Traversal) (refused address : List Nat) {i j : Nat} (face : Json.Face)

theorem upTo_cons_of_lt (h : j < i) :
    run.upTo (i :: refused) (j :: address) face = face.mapText (Template.expand run.table) :=
  if_pos (Value.isBefore_cons_iff.mpr (.inl h))

theorem upTo_cons_of_gt (h : i < j) : run.upTo (i :: refused) (j :: address) face = face := by
  refine if_neg fun hlt => ?_
  rcases Value.isBefore_cons_iff.mp hlt with hlt | ⟨rfl, -⟩
  · omega
  · omega

theorem upTo_cons_self :
    run.upTo (i :: refused) (i :: address) face = run.upTo refused address face := by
  simp [Traversal.upTo, Value.isBefore_cons_iff]

/-- Nothing comes before the document itself. -/
theorem upTo_nil : run.upTo [] address face = face :=
  if_neg List.not_lex_nil

end

/-- Items before the first that fails are expanded, and those behind it are kept. -/
theorem populateItems_eq_error (h : (populateItems run depth items).2 = .error e) :
    ∃ before v after, items = before ++ v :: after ∧
      (∀ b ∈ before, (populateAt run depth b).2 = .ok ()) ∧
      (populateAt run depth v).2 = .error e ∧
      (populateItems run depth items).1 =
        before.map (fun b => (populateAt run depth b).1) ++
          (populateAt run depth v).1 :: after := by
  induction items with
  | nil => cases h
  | cons v rest ih =>
      rw [populateItems] at h ⊢
      rcases hv : populateAt run depth v with ⟨left, result⟩
      rw [hv] at h
      cases result with
      | error e' =>
          obtain rfl : e' = e := Except.error.inj h
          exact ⟨[], v, rest, rfl, by simp, by rw [hv], by rw [hv]; rfl⟩
      | ok =>
          obtain ⟨before, w, after, rfl, hbefore, hw, hleft⟩ := ih h
          refine ⟨v :: before, w, after, rfl, ?_, hw, ?_⟩
          · exact List.forall_mem_cons.mpr ⟨by rw [hv], hbefore⟩
          · simp only [hleft, List.map_cons, List.cons_append, hv]

/-- Members are expanded like items, under their names. -/
theorem populateMembers_eq (run : Traversal) (depth : Nat) (members : List (String × Value)) :
    populateMembers run depth members =
      ((members.map Prod.fst).zip (populateItems run depth (members.map Prod.snd)).1,
        (populateItems run depth (members.map Prod.snd)).2) := by
  induction members with
  | nil => rfl
  | cons member rest ih =>
      obtain ⟨name, v⟩ := member
      simp only [populateMembers, List.map_cons, populateItems, ih]
      rcases populateAt run depth v with ⟨left, result⟩
      cases result with
      | error e => simp only [List.zip_cons_cons, ← List.zip_of_prod rfl rfl]
      | ok => rfl

theorem length_populateItems (run : Traversal) (depth : Nat) (items : List Value) :
    (populateItems run depth items).1.length = items.length := by
  induction items with
  | nil => rfl
  | cons v rest ih =>
      rw [populateItems]
      rcases populateAt run depth v with ⟨left, result⟩
      cases result with
      | error e => rfl
      | ok => exact congrArg Nat.succ ih

/-- A container that is entered keeps its face, and its children are expanded. -/
theorem populateAt_of_enters (hv : v.isContainer = true) (hskip : run.skips depth = false)
    (hdepth : depth < run.bound) :
    (populateAt run depth v).1.face = v.face ∧
      (populateAt run depth v).1.children = (populateItems run (depth + 1) v.children).1 ∧
      (populateAt run depth v).2 = (populateItems run (depth + 1) v.children).2 := by
  have hbound : ¬ run.bound ≤ depth := by omega
  cases v with
  | null | bool _ | number _ | text _ => cases hv
  | array items =>
      simp only [populateAt, hskip, Bool.false_eq_true, if_false, hbound]
      exact ⟨congrArg Json.Face.array (length_populateItems _ _ _), rfl, rfl⟩
  | object members =>
      simp only [populateAt, hskip, Bool.false_eq_true, if_false, hbound, populateMembers_eq]
      have hlength := length_populateItems run (depth + 1) (members.map Prod.snd)
      rw [List.length_map] at hlength
      refine ⟨congrArg Json.Face.object (List.map_fst_zip ?_), List.map_snd_zip ?_, rfl⟩
      · exact Nat.le_of_eq ((List.length_map _).trans hlength.symm)
      · exact Nat.le_of_eq (hlength.trans (List.length_map _).symm)

theorem populateAt_of_refused (hv : v.isContainer = true) (hskip : run.skips depth = false)
    (hdepth : run.bound ≤ depth) :
    populateAt run depth v = (v, .error (.tooDeep run.bound)) := by
  cases v with
  | null | bool _ | number _ | text _ => cases hv
  | array _ | object _ => simp [populateAt, hskip, hdepth]

/-- Values are expanded in place where they have a copy. -/
theorem exists_populateAt_eq_error_iff :
    (∃ e, (populateAt run depth v).2 = .error e) ↔ ∃ e, translateAt run depth v = .error e := by
  have hv := populateAt_mirrors run depth v
  generalize populateAt run depth v = left, translateAt run depth v = copy at hv
  cases hv with
  | done copy => simp
  | tooDeep left => simp

/-- What is expanded in place without a failure is the copy. -/
theorem translateAt_of_populateAt (h : (populateAt run depth v).2 = .ok ()) :
    translateAt run depth v = .ok (populateAt run depth v).1 := by
  have hv := populateAt_mirrors run depth v
  generalize populateAt run depth v = left, translateAt run depth v = copy at h hv
  cases hv with
  | done copy => rfl
  | tooDeep left => cases h

/-- Only containers fail. -/
theorem isContainer_of_populateAt_error (h : (populateAt run depth v).2 = .error e) :
    v.isContainer = true := by
  cases v with
  | null | bool _ | number _ | text _ => cases h
  | array _ | object _ => rfl

/-! ### Traversals that are not shallow -/

section Deep

variable (hshallow : run.shallow = false)
include hshallow

theorem skips_eq_false (depth : Nat) : run.skips depth = false := by
  rw [Traversal.skips, hshallow, Bool.false_and]

/-- What is expanded without a failure has all its texts expanded, and no container as deep
as the bound. -/
theorem expanded_of_populateAt (hdepth : depth ≤ run.bound)
    (h : (populateAt run depth v).2 = .ok ()) :
    (∀ address, v.IsContainerAt address → depth + address.length < run.bound) ∧
      ∀ address, ((populateAt run depth v).1.at? address).map Value.face =
        (v.at? address).map fun part => part.face.mapText (Template.expand run.table) := by
  have hcopy := translateAt_of_populateAt h
  constructor
  · intro address hc
    have hnesting : ¬ run.bound < depth + v.nesting := by
      rw [← exists_translateAt_eq_error_iff_of_deep hshallow hdepth, hcopy]
      rintro ⟨e, he⟩
      cases he
    have hlt := hc.length_lt
    omega
  · intro address
    have hrendered : ∀ n, run.rendered n = Template.expand run.table :=
      fun _ => rendered_of_le (by simp [hshallow])
    simpa [hrendered] using face_of_translateAt hcopy (by simp [hshallow]) address

/-- A container is refused for the first that is as deep as the bound, and what stands
before that one is expanded. -/
theorem failed_of_populateAt (hdepth : depth ≤ run.bound)
    (h : (populateAt run depth v).2 = .error e) :
    ∃ refused, v.IsFirstContainer (run.bound - depth) refused ∧
      ∀ address, ((populateAt run depth v).1.at? address).map Value.face =
        (v.at? address).map fun part => run.upTo refused address part.face := by
  induction v using Value.induction_children generalizing depth with
  | value v ih =>
      have hv := isContainer_of_populateAt_error h
      by_cases hlast : run.bound ≤ depth
      · refine ⟨[], ?_, fun address => ?_⟩
        · rw [Nat.sub_eq_zero_of_le hlast]
          exact Value.isFirstContainer_nil hv
        · rw [populateAt_of_refused hv (skips_eq_false hshallow depth) hlast]
          simp only [upTo_nil]
      · obtain ⟨hface, hchildren, hresult⟩ := populateAt_of_enters hv
          (skips_eq_false hshallow depth) (Nat.lt_of_not_le hlast)
        obtain ⟨before, c, after, hsplit, hbefore, hc, hleft⟩ :=
          populateItems_eq_error (hresult ▸ h)
        have hinner : depth + 1 ≤ run.bound := Nat.lt_of_not_le hlast
        have hmem : c ∈ v.children := by rw [hsplit]; simp
        obtain ⟨refused, hfirst, hrest⟩ := ih c hmem hinner hc
        have hexpanded := fun b hb => expanded_of_populateAt hshallow hinner (hbefore b hb)
        refine ⟨before.length :: refused, ?_, fun address => ?_⟩
        · have hsucc : run.bound - depth = run.bound - (depth + 1) + 1 := by omega
          rw [hsucc]
          refine hfirst.cons hsplit fun b hb other hother => ?_
          have hlt := (hexpanded b hb).1 other hother
          omega
        · cases address with
          | nil => simp [hface, Traversal.upTo, Value.mapText_face hv]
          | cons j address =>
              rw [Value.at?_cons, Value.at?_cons, hchildren, hleft, hsplit]
              rcases Nat.lt_trichotomy j before.length with hlt | rfl | hgt
              · simp only [upTo_cons_of_lt run refused address _ hlt]
                rw [List.getElem?_append_left hlt, List.getElem?_append_left (by simpa using hlt),
                  List.getElem?_map]
                cases hb : before[j]? with
                | none => rfl
                | some b => exact (hexpanded b (List.mem_of_getElem? hb)).2 address
              · simpa [upTo_cons_self] using hrest address
              · simp only [upTo_cons_of_gt run refused address _ hgt]
                have hkept : ∀ (front : List Value) (w : Value), front.length = before.length →
                    (front ++ w :: after)[j]? = after[j - before.length - 1]? := by
                  intro front w hfront
                  rw [List.getElem?_append_right (by omega), hfront, List.getElem?_cons,
                    if_neg (by omega)]
                rw [hkept _ _ (List.length_map _), hkept _ _ rfl]

end Deep

/-! ### Documents -/

theorem exists_populate_eq_error_iff {document : Value} :
    (∃ e, (populate run document).2 = .error e) ↔ run.Refuses document := by
  rw [populate, exists_populateAt_eq_error_iff]
  exact exists_translate_eq_error_iff

/-- A traversal refuses a document for a container that is as deep as its bound, a shallow
one only for the document itself. -/
theorem refuses_of_isContainerAt {document : Value} {address : List Nat}
    (hshallow : run.shallow = true → run.bound = 0) (hlength : address.length = run.bound)
    (h : document.IsContainerAt address) : run.Refuses document := by
  cases hrun : run.shallow with
  | false => exact .inl ⟨hrun, hlength ▸ h.length_lt⟩
  | true =>
      have hbound := hshallow hrun
      obtain rfl : address = [] := List.eq_nil_of_length_eq_zero (hlength.trans hbound)
      obtain ⟨part, hpart, hcontainer⟩ := h
      cases hpart
      exact .inr ⟨hrun, hcontainer, hbound⟩

theorem failed_of_populate {document : Value} (h : (populate run document).2 = .error e) :
    (run.shallow = true → run.bound = 0) ∧ ∃ refused, document.IsFirstContainer run.bound refused ∧
      ∀ address, ((populate run document).1.at? address).map Value.face =
        (document.at? address).map fun part => run.upTo refused address part.face := by
  rcases exists_populate_eq_error_iff.mp ⟨e, h⟩ with ⟨hshallow, -⟩ | ⟨-, hv, hbound⟩
  · refine ⟨fun htrue => ?_, failed_of_populateAt hshallow (Nat.zero_le _) h⟩
    rw [hshallow] at htrue
    cases htrue
  · refine ⟨fun _ => hbound, [], ?_, fun address => ?_⟩
    · rw [hbound]
      exact Value.isFirstContainer_nil hv
    · rw [populate, populateAt_of_refused hv (by simp [Traversal.skips]) (Nat.le_of_eq hbound)]
      simp only [upTo_nil]

/-- Expanding a document in place fails exactly if a container stands inside as many others
as may be entered; a shallow traversal fails on the outermost container only. Then the texts
before the first such container are expanded, and all else is left as it was. -/
theorem populate_fails_iff (run : Traversal) (document left : Value) (e : Error) :
    populate run document = (left, .error e) ↔
      e = .tooDeep run.bound ∧ (run.shallow = true → run.bound = 0) ∧
      ∃ refused, document.IsFirstContainer run.bound refused ∧
        ∀ address, (left.at? address).map Value.face =
          (document.at? address).map fun part => run.upTo refused address part.face := by
  constructor
  · intro h
    have hfails : (populate run document).2 = .error e := congrArg Prod.snd h
    have hleft : (populate run document).1 = left := congrArg Prod.fst h
    refine ⟨populateAt_error hfails, ?_⟩
    rw [← hleft]
    exact failed_of_populate hfails
  · rintro ⟨rfl, hshallow, refused, hfirst, hface⟩
    obtain ⟨e, hfails⟩ := exists_populate_eq_error_iff.mpr
      (refuses_of_isContainerAt hshallow hfirst.length hfirst.container)
    obtain ⟨-, other, hother, hleft⟩ := failed_of_populate hfails
    obtain rfl := hother.unique hfirst
    have hsame : (populate run document).1 = left := Value.eq_of_face fun address =>
      (hleft address).trans (hface address).symm
    rw [← hsame, ← populateAt_error hfails, ← hfails]

end Document

end Phrasebook
