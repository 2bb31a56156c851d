import Phrasebook.Json.Parts
import Phrasebook.Proofs.Document.InPlace
/-!
# The copy of a document

A traversal that is not shallow refuses the documents that nest deeper than its bound;
a shallow one enters the outermost container only, and refuses it at the bound zero.
The copy of a document that is not refused has the shape of the document, and its texts
are expanded one by one.
-/

namespace Phrasebook.Document

open Json (Value)

variable {run : Traversal} {depth : Nat} {v copy : Value} {items copies : List Value}

/-- What becomes of a text inside `depth` containers. -/
def Traversal.rendered (run : Traversal) (depth : Nat) (s : String) : String :=
  if run.shallow && 1 < depth then s else Template.expand run.table s

/-- Whether a document has a container that is neither left as it is nor may be entered. -/
def Traversal.Refuses (run : Traversal) (document : Value) : Prop :=
  (run.shallow = false ∧ run.bound < document.nesting) ∨
    (run.shallow = true ∧ document.isContainer = true ∧ run.bound = 0)

/-! ### One container -/

/-- Items are copied one by one, as long as each of them has a copy. -/
theorem translateItems_eq_ok_iff :
    translateItems run depth items = .ok copies ↔
      items.map (translateAt run depth) = copies.map .ok := by
  induction items generalizing copies with
  | nil => simp [translateItems, eq_comm]
  | cons v rest ih =>
      rw [translateItems, List.map_cons]
      cases hv : translateAt run depth v with
      | error e => cases copies <;> simp
      | ok c =>
          cases copies with
          | nil => cases translateItems run depth rest <;> simp [Except.map]
          | cons d copies =>
              cases hrest : translateItems run depth rest with
              | error e => simp [Except.map, ← ih, hrest]
              | ok rest => simp [Except.map, ← ih, hrest]

/-- Items have no copies if and only if one of them has none. -/
theorem exists_translateItems_eq_error_iff :
    (∃ e, translateItems run depth items = .error e) ↔
      ∃ v ∈ items, ∃ e, translateAt run depth v = .error e := by
  induction items with
  | nil => simp [translateItems]
  | cons v rest ih =>
      rw [translateItems]
      cases hv : translateAt run depth v with
      | error e => simp [hv]
      | ok c =>
          have hrest : (∃ e, (translateItems run depth rest).map (c :: ·) = .error e) ↔
              ∃ e, translateItems run depth rest = .error e := by
            cases translateItems run depth rest <;> simp [Except.map]
          simpa [hv] using hrest.trans ih

/-- Members are copied like items, under their names. -/
theorem translateMembers_eq (run : Traversal) (depth : Nat) (members : List (String × Value)) :
    translateMembers run depth members =
      (translateItems run depth (members.map Prod.snd)).map (members.map Prod.fst).zip := by
  induction members with
  | nil => rfl
  | cons member rest ih =>
      obtain ⟨name, v⟩ := member
      simp only [translateMembers, List.map_cons, translateItems, ih]
      cases translateAt run depth v with
      | error e => rfl
      | ok c => cases translateItems run depth (rest.map Prod.snd) <;> rfl

/-- The copy of an item stands where the item does. -/
theorem getElem?_of_translateItems (h : translateItems run depth items = .ok copies) (i : Nat) :
    items[i]?.map (translateAt run depth) = copies[i]?.map .ok := by
  rw [← List.getElem?_map, translateItems_eq_ok_iff.mp h, List.getElem?_map]

theorem length_of_translateItems (h : translateItems run depth items = .ok copies) :
    copies.length = items.length := by
  have hlength := congrArg List.length (translateItems_eq_ok_iff.mp h)
  simpa using hlength.symm

/-- A container that is entered keeps its face, and its children are copied. -/
theorem translateAt_of_enters (hv : v.isContainer = true) (hskip : run.skips depth = false)
    (hdepth : depth < run.bound) :
    match translateItems run (depth + 1) v.children with
    | .error e => translateAt run depth v = .error e
    | .ok copies => ∃ copy, translateAt run depth v = .ok copy ∧ copy.face = v.face ∧
        copy.children = copies := by
  have hbound : ¬ run.bound ≤ depth := by omega
  cases v with
  | null | bool _ | number _ | text _ => cases hv
  | array items =>
      simp only [translateAt, hskip, Bool.false_eq_true, if_false, hbound, Value.children]
      cases hitems : translateItems run (depth + 1) items with
      | error e => rfl
      | ok copies =>
          refine ⟨.array copies, rfl, ?_, rfl⟩
          rw [Value.face, Value.face, length_of_translateItems hitems]
  | object members =>
      simp only [translateAt, hskip, Bool.false_eq_true, if_false, hbound, Value.children,
        translateMembers_eq]
      cases hitems : translateItems run (depth + 1) (members.map Prod.snd) with
      | error e => rfl
      | ok copies =>
          have hlength : copies.length = (members.map Prod.fst).length := by
            simpa using length_of_translateItems hitems
          have hnames : ((members.map Prod.fst).zip copies).map Prod.fst = members.map Prod.fst :=
            List.map_fst_zip (Nat.le_of_eq hlength.symm)
          have hcopies : ((members.map Prod.fst).zip copies).map Prod.snd = copies :=
            List.map_snd_zip (Nat.le_of_eq hlength)
          exact ⟨.object ((members.map Prod.fst).zip copies), rfl, congrArg Json.Face.object hnames,
            hcopies⟩

theorem translateAt_of_skips (hv : v.isContainer = true) (hskip : run.skips depth = true) :
    translateAt run depth v = .ok v := by
  cases v with
  | null | bool _ | number _ | text _ => cases hv
  | array _ | object _ => simp [translateAt, hskip]

theorem translateAt_of_refused (hv : v.isContainer = true) (hskip : run.skips depth = false)
    (hdepth : run.bound ≤ depth) : translateAt run depth v = .error (.tooDeep run.bound) := by
  cases v with
  | null | bool _ | number _ | text _ => cases hv
  | array _ | object _ => simp [translateAt, hskip, hdepth]

/-- A value that is no container has a copy with its face, where a text is expanded. -/
theorem translateAt_of_not_isContainer (run : Traversal) (depth : Nat)
    (hv : v.isContainer = false) :
    ∃ copy, translateAt run depth v = .ok copy ∧ copy.isContainer = false ∧
      copy.face = v.face.mapText (Template.expand run.table) := by
  cases v with
  | null | bool _ | number _ | text _ => exact ⟨_, rfl, rfl, rfl⟩
  | array _ | object _ => cases hv

/-! ### Failure -/

theorem exists_translateAt_eq_error_iff_of_enters (hv : v.isContainer = true)
    (hskip : run.skips depth = false) (hdepth : depth < run.bound) :
    (∃ e, translateAt run depth v = .error e) ↔
      ∃ c ∈ v.children, ∃ e, translateAt run (depth + 1) c = .error e := by
  have henters := translateAt_of_enters hv hskip hdepth
  rw [← exists_translateItems_eq_error_iff]
  cases hitems : translateItems run (depth + 1) v.children with
  | error e =>
      rw [hitems] at henters
      simp [henters]
  | ok copies =>
      rw [hitems] at henters
      obtain ⟨copy, hcopy, -⟩ := henters
      simp [hcopy]

/-- A traversal that is not shallow fails on what nests further than its bound, with the
containers around it counted. -/
theorem exists_translateAt_eq_error_iff_of_deep (hshallow : run.shallow = false)
    (hdepth : depth ≤ run.bound) :
    (∃ e, translateAt run depth v = .error e) ↔ run.bound < depth + v.nesting := by
  have hskip : run.skips depth = false := by rw [Traversal.skips, hshallow, Bool.false_and]
  induction v using Value.induction_children generalizing depth with
  | value v ih =>
      cases hv : v.isContainer with
      | false =>
          obtain ⟨copy, hcopy, -⟩ := translateAt_of_not_isContainer run depth hv
          rw [hcopy, Value.nesting_of_not_isContainer hv]
          simpa using hdepth
      | true =>
          rw [Value.nesting_of_isContainer hv]
          by_cases hlast : run.bound ≤ depth
          · rw [translateAt_of_refused hv hskip hlast]
            exact iff_of_true ⟨_, rfl⟩ (by omega)
          · have hnext : run.skips (depth + 1) = false := by
              rw [Traversal.skips, hshallow, Bool.false_and]
            have hle : depth + 1 ≤ run.bound := by omega
            calc
              (∃ e, translateAt run depth v = .error e)
                ↔ ∃ c ∈ v.children, ∃ e, translateAt run (depth + 1) c = .error e :=
                  exists_translateAt_eq_error_iff_of_enters hv hskip (by omega)
              _ ↔ ∃ c ∈ v.children, run.bound - (depth + 1) < c.nesting := by
                  refine exists_congr fun c => and_congr_right fun hc => ?_
                  refine (ih c hc hle hnext).trans ?_
                  omega
              _ ↔ run.bound < depth + (1 + Value.nestingOfItems v.children) := by
                  rw [← Value.lt_nestingOfItems_iff]
                  omega

/-- A shallow traversal never fails below the outermost container. -/
theorem exists_translateAt_eq_error_iff_of_shallow (hshallow : run.shallow = true) :
    (∃ e, translateAt run 0 v = .error e) ↔ v.isContainer = true ∧ run.bound = 0 := by
  have hskip : run.skips 0 = false := by rw [Traversal.skips, Bool.and_eq_false_iff]; simp
  have hinner : run.skips (0 + 1) = true := by rw [Traversal.skips, hshallow]; rfl
  cases hv : v.isContainer with
  | false =>
      obtain ⟨copy, hcopy, -⟩ := translateAt_of_not_isContainer run 0 hv
      simp [hcopy]
  | true =>
      by_cases hbound : run.bound = 0
      · rw [translateAt_of_refused hv hskip (by omega)]
        exact iff_of_true ⟨_, rfl⟩ ⟨rfl, hbound⟩
      · rw [exists_translateAt_eq_error_iff_of_enters hv hskip (by omega)]
        refine iff_of_false ?_ fun h => hbound h.2
        rintro ⟨c, -, e, he⟩
        cases hc : c.isContainer with
        | false =>
            obtain ⟨copy, hcopy, -⟩ := translateAt_of_not_isContainer run (0 + 1) hc
            rw [hcopy] at he
            cases he
        | true =>
            rw [translateAt_of_skips hc hinner] at he
            cases he

theorem exists_translate_eq_error_iff {document : Value} :
    (∃ e, translate run document = .error e) ↔ run.Refuses document := by
  rw [translate, Traversal.Refuses]
  cases hshallow : run.shallow with
  | false => simp [exists_translateAt_eq_error_iff_of_deep hshallow (Nat.zero_le _)]
  | true => simp [exists_translateAt_eq_error_iff_of_shallow hshallow]

/-! ### Success -/

theorem rendered_of_le (h : run.shallow = true → depth ≤ 1) :
    run.rendered depth = Template.expand run.table := by
  funext s
  refine if_neg ?_
  simpa [Nat.not_lt] using h

theorem rendered_of_lt (hshallow : run.shallow = true) (hdepth : 1 < depth) :
    run.rendered depth = id := by
  funext s
  exact if_pos (by simp [hshallow, hdepth])

/-- A value with a copy is no container, or is left as it is, or is entered. -/
theorem cases_of_translateAt (h : translateAt run depth v = .ok copy) :
    (v.isContainer = false ∧ copy.isContainer = false ∧
      copy.face = v.face.mapText (Template.expand run.table)) ∨
    (v.isContainer = true ∧ run.skips depth = true ∧ copy = v) ∨
    (v.isContainer = true ∧ run.skips depth = false ∧ copy.face = v.face ∧
      translateItems run (depth + 1) v.children = .ok copy.children) := by
  cases hv : v.isContainer with
  | false =>
      obtain ⟨other, hother, hleaf, hface⟩ := translateAt_of_not_isContainer run depth hv
      rw [hother] at h
      cases h
      exact .inl ⟨rfl, hleaf, hface⟩
  | true =>
      cases hskip : run.skips depth with
      | true =>
          rw [translateAt_of_skips hv hskip] at h
          cases h
          exact .inr (.inl ⟨rfl, rfl, rfl⟩)
      | false =>
          have hlt : depth < run.bound := by
            refine Nat.lt_of_not_le fun hle => ?_
            rw [translateAt_of_refused hv hskip hle] at h
            cases h
          have henters := translateAt_of_enters hv hskip hlt
          cases hitems : translateItems run (depth + 1) v.children with
          | error e =>
              rw [hitems] at henters
              rw [henters] at h
              cases h
          | ok copies =>
              rw [hitems] at henters
              obtain ⟨other, hother, hface, rfl⟩ := henters
              rw [hother] at h
              cases h
              exact .inr (.inr ⟨rfl, rfl, hface, rfl⟩)

/-- What a copy shows at an address is what the value shows there, with its text
expanded unless a shallow traversal does not come that far. -/
theorem face_of_translateAt (h : translateAt run depth v = .ok copy)
    (hdepth : run.shallow = true → depth ≤ 1) (address : List Nat) :
    (copy.at? address).map Value.face = (v.at? address).map fun part =>
      part.face.mapText (run.rendered (depth + address.length)) := by
  induction v using Value.induction_children generalizing depth copy address with
  | value v ih =>
      rcases cases_of_translateAt h with
        ⟨hv, hleaf, hface⟩ | ⟨hv, hskip, rfl⟩ | ⟨hv, hskip, hface, hitems⟩
      · cases address with
        | nil => simp [hface, rendered_of_le hdepth]
        | cons i address =>
            simp [Value.children_of_not_isContainer hv, Value.children_of_not_isContainer hleaf]
      · obtain ⟨hshallow, hpos⟩ : run.shallow = true ∧ 0 < depth := by
          simpa [Traversal.skips] using hskip
        cases address with
        | nil => simp [Value.mapText_face hv]
        | cons i address =>
            -- whatever stands inside is too deep to be expanded
            rw [rendered_of_lt hshallow (by rw [List.length_cons]; omega)]
            simp
      · cases address with
        | nil => simp [hface, Value.mapText_face hv]
        | cons i address =>
            have hi := getElem?_of_translateItems hitems i
            rw [Value.at?_cons, Value.at?_cons]
            cases hc : v.children[i]? with
            | none =>
                have hd : copy.children[i]? = none := by simpa [hc] using hi.symm
                simp [hd]
            | some c =>
                obtain ⟨d, hd, hcd⟩ := Option.map_eq_some_iff.mp (hc ▸ hi).symm
                have hinner : run.shallow = true → depth + 1 ≤ 1 := by
                  simpa [Traversal.skips] using hskip
                have hpart := ih c (List.mem_of_getElem? hc) hcd.symm hinner address
                simpa [hd, Nat.add_assoc, Nat.add_comm 1] using hpart

/-- A document is refused exactly when the traversal would have to go deeper than its
bound. Otherwise it has one copy, which shows the same as the document at every address,
but for its texts: these are expanded, in a shallow traversal only those that at most
one container holds. -/
theorem translate_iff (run : Traversal) (document : Value) :
    (∀ e, translate run document = .error e ↔
      e = .tooDeep run.bound ∧ run.Refuses document) ∧
    ∀ copy, translate run document = .ok copy ↔
      ¬ run.Refuses document ∧ ∀ address, (copy.at? address).map Value.face =
        (document.at? address).map fun part =>
          part.face.mapText (run.rendered address.length) := by
  have hcopy : ∀ {copy}, translate run document = .ok copy → ∀ address,
      (copy.at? address).map Value.face = (document.at? address).map fun part =>
        part.face.mapText (run.rendered address.length) := by
    intro copy h address
    simpa using face_of_translateAt h (fun _ => Nat.zero_le 1) address
  constructor
  · intro e
    constructor
    · intro h
      exact ⟨translateAt_error h, exists_translate_eq_error_iff.mp ⟨e, h⟩⟩
    · rintro ⟨rfl, hrefuses⟩
      obtain ⟨e, h⟩ := exists_translate_eq_error_iff.mpr hrefuses
      exact translateAt_error h ▸ h
  · intro copy
    constructor
    · intro h
      refine ⟨fun hrefuses => ?_, hcopy h⟩
      obtain ⟨e, he⟩ := exists_translate_eq_error_iff.mpr hrefuses
      rw [h] at he
      cases he
    · rintro ⟨hrefuses, hface⟩
      cases h : translate run document with
      | error e => exact absurd (exists_translate_eq_error_iff.mp ⟨e, h⟩) hrefuses
      | ok other =>
          have hsame : other = copy := Value.eq_of_face fun address =>
            (hcopy h address).trans (hface address).symm
          rw [hsame]

/-- An empty container counts like any other. -/
example (table : LocaleTable) :
    translate ⟨table, false, 1⟩ (.array [.text "a", .array []]) = .error (.tooDeep 1) := rfl

end Phrasebook.Document
