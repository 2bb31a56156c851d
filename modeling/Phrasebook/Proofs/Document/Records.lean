import Phrasebook.Document.Records
import Phrasebook.Proofs.Document.Copying
import Mathlib.Data.List.Perm.Basic
import Mathlib.Order.Nat
/-!
# Records through their JSON form

A record is expanded by way of the document that has a member for each of its fields. The
conversions are taken as given: all that has to be known of them is that they map fields to
members and back. Expanding keeps the kind of every member, so what comes back is a record
again, and the only failure is that the list of a record lies too deep.
-/

namespace Phrasebook.Document

open Json (Value Fault)

variable {run : Traversal} {depth : Nat}

/-! ## Members -/

/-- Members are copied if each of their values is, under its own name. -/
theorem translateMembers_eq_ok_iff {members copies : List (String × Value)} :
    translateMembers run depth members = .ok copies ↔
      List.Forall₂ (fun member copy => copy.1 = member.1 ∧
        translateAt run depth member.2 = .ok copy.2) members copies := by
  induction members generalizing copies with
  | nil => cases copies <;> simp [translateMembers]
  | cons member rest ih =>
      obtain ⟨name, v⟩ := member
      rw [translateMembers, List.forall₂_cons_left_iff]
      cases hv : translateAt run depth v with
      | error e => simp
      | ok c =>
          simp only [← ih, Except.ok.injEq]
          constructor
          · intro h
            obtain ⟨others, hothers, rfl⟩ := exists_of_map_eq_ok h
            exact ⟨(name, c), others, ⟨rfl, rfl⟩, hothers, rfl⟩
          · rintro ⟨⟨_, _⟩, others, ⟨rfl, rfl⟩, hothers, rfl⟩
            rw [hothers]
            rfl

/-- Members in another order have the same copies, in that order. -/
theorem exists_translateMembers_of_perm {members others copies : List (String × Value)}
    (hperm : members.Perm others) (h : translateMembers run depth others = .ok copies) :
    ∃ reordered, translateMembers run depth members = .ok reordered ∧
      reordered.Perm copies := by
  obtain ⟨reordered, hcopied, hcopies⟩ :=
    List.perm_comp_forall₂ hperm (translateMembers_eq_ok_iff.mp h)
  exact ⟨reordered, translateMembers_eq_ok_iff.mpr hcopied, hcopies⟩

/-- Texts that a traversal comes to are expanded one by one. -/
theorem translateItems_texts (run : Traversal) (depth : Nat) (texts : List String) :
    translateItems run depth (texts.map .text) =
      .ok ((texts.map (Template.expand run.table)).map .text) := by
  rw [translateItems_eq_ok_iff, List.map_map, List.map_map, List.map_map]
  exact List.map_congr_left fun s _ => rfl

/-- The order of members does not count for how an object nests. -/
theorem nesting_object_of_perm {members others : List (String × Value)}
    (hperm : members.Perm others) :
    (Value.object members).nesting = (Value.object others).nesting := by
  have hitems : Value.nestingOfItems (members.map Prod.snd) =
      Value.nestingOfItems (others.map Prod.snd) := by
    refine eq_of_forall_lt_iff fun n => ?_
    rw [Value.lt_nestingOfItems_iff, Value.lt_nestingOfItems_iff]
    exact exists_congr fun v => and_congr_left fun _ => (hperm.map Prod.snd).mem_iff
  rw [Value.nesting, Value.nesting, Value.nestingOfMembers_eq, Value.nestingOfMembers_eq, hitems]

theorem nestingOfItems_texts (texts : List String) :
    Value.nestingOfItems (texts.map .text) = 0 := by
  induction texts with
  | nil => rfl
  | cons s texts ih => rw [List.map_cons, Value.nestingOfItems, ih]; rfl

/-! ## Records -/

/-- A type of records with a text, an optional text, an unsigned number and a list of texts. -/
structure RecordType (α ν : Type) where
  /-- The record with the given fields. -/
  make : String → Option String → ν → List String → α
  /-- What a number counts. -/
  value : ν → Nat
  textName : String
  optionalName : String
  numberName : String
  textsName : String

namespace RecordType

variable {α ν : Type} (type : RecordType α ν)

/-- The fields of a record as members, each under its name. -/
def members (text : String) (optional : Option String) (number : ν) (texts : List String) :
    List (String × Value) := [
  (type.textName, .text text),
  (type.optionalName, (optional.map Value.text).getD .null),
  (type.numberName, .number (.whole (type.value number))),
  (type.textsName, .array (texts.map .text))]

/-- The conversions of a type map the fields of a record to the members of an object, and these
back to the record, in whatever order the members come. -/
structure IsDerived [Coded α] : Prop where
  encode : ∀ text optional number texts, ∃ members : List (String × Value),
    members.Perm (type.members text optional number texts) ∧
      Coded.encode (type.make text optional number texts) = .ok (.object members)
  decode : ∀ {text optional number texts} {members : List (String × Value)},
    members.Perm (type.members text optional number texts) →
      Coded.decode (.object members) = .ok (type.make text optional number texts)

variable {type} {text : String} {optional : Option String} {number : ν} {texts : List String}
  {members : List (String × Value)}

theorem nesting_members : (Value.object (type.members text optional number texts)).nesting = 2 := by
  simp only [members, Value.nesting, Value.nestingOfMembers, nestingOfItems_texts]
  cases optional <;> rfl

/-- The document of a record is refused because of its list, which is one container more even
when it is empty. -/
theorem refuses_iff (hperm : members.Perm (type.members text optional number texts)) :
    run.Refuses (.object members) ↔ run.bound = 0 ∨ run.bound = 1 ∧ run.shallow = false := by
  have hnesting : (Value.object members).nesting = 2 :=
    (nesting_object_of_perm hperm).trans nesting_members
  have hcontainer : (Value.object members).isContainer = true := rfl
  rw [Traversal.Refuses, hnesting, hcontainer]
  cases run.shallow with
  | false =>
      simp only [true_and, and_true, Bool.false_eq_true, false_and, or_false]
      omega
  | true => simp

/-- The list of a record after a traversal that comes to the record. -/
def textsAfter (run : Traversal) (texts : List String) : List String :=
  if run.shallow then texts else texts.map (Template.expand run.table)

/-- The list is expanded if it is entered, and a shallow traversal leaves it as it is. -/
theorem translateAt_texts (hbound : ¬ (run.bound = 0 ∨ run.bound = 1 ∧ run.shallow = false)) :
    translateAt run 1 (.array (texts.map .text)) =
      .ok (.array ((textsAfter run texts).map .text)) := by
  rw [translateAt, Traversal.skips, textsAfter]
  cases hshallow : run.shallow with
  | true => simp
  | false =>
      obtain ⟨hzero, hone⟩ : run.bound ≠ 0 ∧ run.bound ≠ 1 := by simpa [hshallow] using hbound
      have hentered : ¬ run.bound ≤ 1 := by omega
      simp [hentered, translateItems_texts, Except.map]

/-- The members of a record are copied to those of the record with its texts expanded. -/
theorem translateMembers_members
    (hbound : ¬ (run.bound = 0 ∨ run.bound = 1 ∧ run.shallow = false)) :
    translateMembers run 1 (type.members text optional number texts) =
      .ok (type.members (Template.expand run.table text)
        (optional.map (Template.expand run.table)) number (textsAfter run texts)) := by
  rw [translateMembers_eq_ok_iff]
  refine .cons ⟨rfl, rfl⟩ (.cons ⟨rfl, ?_⟩ (.cons ⟨rfl, rfl⟩ (.cons ⟨rfl, ?_⟩ .nil)))
  · cases optional <;> rfl
  · exact translateAt_texts hbound

/-- The document of a record that is not refused is copied to one of the record with its texts
expanded. -/
theorem exists_translate_eq_ok (hperm : members.Perm (type.members text optional number texts))
    (hbound : ¬ (run.bound = 0 ∨ run.bound = 1 ∧ run.shallow = false)) :
    ∃ copies : List (String × Value), translate run (.object members) = .ok (.object copies) ∧
      copies.Perm (type.members (Template.expand run.table text)
        (optional.map (Template.expand run.table)) number (textsAfter run texts)) := by
  obtain ⟨copies, hcopies, hreordered⟩ :=
    exists_translateMembers_of_perm hperm (translateMembers_members hbound)
  refine ⟨copies, ?_, hreordered⟩
  have hskip : run.skips 0 = false := by simp [Traversal.skips]
  have hentered : ¬ run.bound ≤ 0 := fun h => hbound (.inl (Nat.le_zero.mp h))
  simp [translate, translateAt, hskip, hentered, hcopies, Except.map]

end RecordType

/-- A value with a JSON form is expanded by way of it. -/
theorem translateVia_of_encode {α : Type} [Coded α] {a : α} {v : Value}
    (h : Coded.encode a = .ok v) :
    translateVia run a =
      translate run v >>= fun copy => (Coded.decode copy).mapError .conversion := by
  rw [translateVia, h]
  rfl

variable {α ν : Type} [Coded α] {type : RecordType α ν}

/-- A record is expanded field by field: its text and its optional text, if that is there, are
expanded, its number is kept, and the texts of its list are expanded in order, or are all kept
by a shallow traversal. It fails just where the traversal may not enter the record, or may not
enter its list and would have to, and that is the failure. -/
theorem translateVia_record (h : type.IsDerived) (run : Traversal) (text : String)
    (optional : Option String) (number : ν) (texts : List String) :
    translateVia run (type.make text optional number texts) =
      if run.bound = 0 ∨ run.bound = 1 ∧ run.shallow = false then .error (.tooDeep run.bound)
      else .ok (type.make (Template.expand run.table text)
        (optional.map (Template.expand run.table)) number
        (if run.shallow then texts else texts.map (Template.expand run.table))) := by
  obtain ⟨members, hperm, hencode⟩ := h.encode text optional number texts
  rw [translateVia_of_encode hencode]
  split
  · next hbound =>
    obtain ⟨e, he⟩ := exists_translate_eq_error_iff.mpr ((RecordType.refuses_iff hperm).mpr hbound)
    rw [he, translateAt_error he]
    rfl
  · next hbound =>
    obtain ⟨copies, hcopies, hreordered⟩ := RecordType.exists_translate_eq_ok hperm hbound
    have hdecode := h.decode hreordered
    rw [RecordType.textsAfter] at hdecode
    rw [hcopies]
    change (Coded.decode (Value.object copies)).mapError Error.conversion = _
    rw [hdecode]
    rfl

namespace Banner

/-- Banners are records, whose members have the names of their fields. -/
def recordType : RecordType Banner UInt32 where
  make := Banner.mk
  value := UInt32.toNat
  textName := "heading"
  optionalName := "footer"
  numberName := "width"
  textsName := "tags"

theorem readTexts_map (texts : List String) : readTexts (texts.map .text) = .ok texts := by
  induction texts with
  | nil => rfl
  | cons s texts ih => rw [List.map_cons, readTexts, ih]; rfl

theorem readWidth_whole (width : UInt32) :
    readWidth (.number (.whole width.toNat)) = .ok width := by
  have hsize := width.toNat_lt_size
  rw [readWidth, if_pos (by omega), Int.toNat_natCast, UInt32.ofNat_toNat]

/-- A member is found under its name, in whatever order the members come. -/
theorem field_of_mem {members others : List (String × Value)} (hperm : members.Perm others)
    (hnodup : (others.map Prod.fst).Nodup) {name : String} {v : Value} (h : (name, v) ∈ others) :
    field members name = v := by
  have hnodup' : (members.map Prod.fst).Nodup := (hperm.map Prod.fst).nodup_iff.mpr hnodup
  have hget := (Assoc.get?_eq_some_iff hnodup').mpr (hperm.mem_iff.mpr h)
  rw [field, hget, Option.getD_some]

/-- A banner is read from its members, in whatever order they come. -/
theorem isDerived_recordType : recordType.IsDerived := by
  constructor
  · intro text optional number texts
    exact ⟨_, .refl _, rfl⟩
  · intro text optional number texts members hperm
    have hnodup : ((recordType.members text optional number texts).map Prod.fst).Nodup := by
      change ["heading", "footer", "width", "tags"].Nodup
      decide
    have hheading : field members "heading" = .text text :=
      field_of_mem hperm hnodup (by simp [RecordType.members, recordType])
    have hfooter : field members "footer" = (optional.map Value.text).getD .null :=
      field_of_mem hperm hnodup (by simp [RecordType.members, recordType])
    have hwidth : field members "width" = .number (.whole number.toNat) :=
      field_of_mem hperm hnodup (by simp [RecordType.members, recordType])
    have htags : field members "tags" = .array (texts.map .text) :=
      field_of_mem hperm hnodup (by simp [RecordType.members, recordType])
    have hoptional : readOptional ((optional.map Value.text).getD .null) = .ok optional := by
      cases optional <;> rfl
    change decode (.object members) = .ok ⟨text, optional, number, texts⟩
    simp only [decode, hheading, hfooter, hwidth, htags, hoptional, readWidth_whole, readTexts_map]
    rfl

end Banner

/-- A list is left as it is by a shallow traversal, and its record is expanded. -/
theorem translateVia_record_shallow :
    let table : LocaleTable := ⟨"en", ⟨"en", none⟩, StringTable.empty.set "a" "A"⟩
    Banner.recordType.IsDerived ∧
      translateVia ⟨table, true, 1⟩ (Banner.mk "@a" none 80 ["@a", "b"]) =
        .ok ⟨"A", none, 80, ["@a", "b"]⟩ := by
  intro table
  have hexpand : Template.expand table "@a" = "A" := by decide +kernel
  refine ⟨Banner.isDerived_recordType, ?_⟩
  refine (translateVia_record Banner.isDerived_recordType ⟨table, true, 1⟩ "@a" none 80
    ["@a", "b"]).trans ?_
  rw [hexpand]
  rfl

end Phrasebook.Document
