import Phrasebook.Json.Reader
import Phrasebook.Json.Writer
import Phrasebook.Json.Parts
import Phrasebook.Proofs.Json.Numerals
import Phrasebook.Proofs.Json.Objects
import Mathlib.Data.List.Forall2
/-!
# Documents that are read back

A document is written as its tokens, with white space between them, and a reader that takes
these tokens ends up with the document. This needs numbers that keep their value when they
are written, names that do not repeat, and no more levels than a reader keeps open.

## Implementation notes

A numeral is read as far as it goes, so a text is cut into its tokens only if what stands
behind it is no further part of a numeral.
-/

namespace Phrasebook.Json

/-- Whether what a value shows of itself is kept by its written form: a number is whole and
of 64 bits, and no name repeats. -/
def Face.IsExact : Face → Prop
  | .number (.whole n) => -(Nat.pow 2 63) ≤ n ∧ n < UInt64.size
  | .number (.real _) => False
  | .object names => names.Nodup
  | _ => True

/-- Whether all parts of a document are kept by its written form. -/
def Value.IsExact (v : Value) : Prop :=
  ∀ address part, v.at? address = some part → part.face.IsExact

namespace Value

theorem isExact_iff {v : Value} : v.IsExact ↔ v.face.IsExact ∧ ∀ c ∈ v.children, c.IsExact := by
  constructor
  · intro h
    refine ⟨h [] v rfl, fun c hc address part hpart => ?_⟩
    obtain ⟨i, hi⟩ := List.mem_iff_getElem?.mp hc
    refine h (i :: address) part ?_
    rw [at?_cons, hi, Option.bind_some, hpart]
  · rintro ⟨hface, hchildren⟩ address part hpart
    cases address with
    | nil =>
        obtain rfl := Option.some.inj hpart
        exact hface
    | cons i address =>
        obtain ⟨c, hc, hpart⟩ := Option.bind_eq_some_iff.mp hpart
        exact hchildren c (List.mem_of_getElem? hc) address part hpart

/-! ### Tokens of a document -/

mutual

/-- The tokens of a document. -/
def tokens : Value → List Token
  | .null => [.null]
  | .bool b => [.bool b]
  | .number n => [.number n]
  | .text s => [.text s]
  | .array items => .beginArray :: (List.intercalate [.comma] (tokensOfItems items) ++ [.endArray])
  | .object members =>
    .beginObject :: (List.intercalate [.comma] (tokensOfMembers members) ++ [.endObject])

/-- The tokens of each item. -/
def tokensOfItems : List Value → List (List Token)
  | [] => []
  | v :: rest => v.tokens :: tokensOfItems rest

/-- The tokens of each member. -/
def tokensOfMembers : List (String × Value) → List (List Token)
  | [] => []
  | (name, v) :: rest => (.text name :: .colon :: v.tokens) :: tokensOfMembers rest

end

/-- No value begins with the end of an array, so it is taken for an item where an array may
end. -/
theorem exists_tokens (v : Value) : ∃ first rest, v.tokens = first :: rest ∧
    ∀ outer, Reader.step (.arrayStart outer) first =
      Reader.beginValue (.array [] :: outer) first := by
  cases v <;> exact ⟨_, _, rfl, fun _ => rfl⟩

end Value

/-! ### Writing -/

namespace Token

open Numeral (Ends ends_nil ends_cons)

/-- Whether a text is cut into tokens, in front of all at which a numeral ends. -/
def Writes (tokens : List Token) (cs : List Char) : Prop :=
  ∀ rest, Ends rest → scan (cs ++ rest) = tokens ++ scan rest

theorem Spells.writes {tokens : List Token} {cs : List Char} (h : Spells tokens cs) :
    Writes tokens cs :=
  fun rest _ => scan_append_of_spells h rest

/-- A numeral ends in front of white space. -/
theorem ends_of_spells {cs : List Char} (h : Spells [] cs) : Ends cs := by
  cases h with
  | nil => exact ends_nil
  | @space _ c cs hc h =>
      apply ends_cons
      simp only [isSpace, Bool.or_eq_true, beq_iff_eq] at hc
      rcases hc with ((rfl | rfl) | rfl) | rfl <;> decide

/-- Texts are cut one after the other, if a numeral ends where the second begins. -/
theorem Writes.append {tokens more : List Token} {cs ds : List Char} (h : Writes tokens cs)
    (hmore : Writes more ds) (hends : ∀ rest, Ends (ds ++ rest)) :
    Writes (tokens ++ more) (cs ++ ds) := by
  intro rest hrest
  rw [List.append_assoc, List.append_assoc, h _ (hends rest), hmore rest hrest]

/-- Behind marks and texts anything can be written. -/
theorem Spells.append_writes {tokens more : List Token} {cs ds : List Char} (h : Spells tokens cs)
    (hmore : Writes more ds) : Writes (tokens ++ more) (cs ++ ds) := by
  intro rest hrest
  rw [List.append_assoc, List.append_assoc, scan_append_of_spells h, hmore rest hrest]

theorem writes_null : Writes [.null] "null".toList := fun rest _ =>
  scan_plain rfl (by decide) rfl

theorem writes_true : Writes [.bool true] "true".toList := fun rest _ =>
  scan_plain rfl (by decide) rfl

theorem writes_false : Writes [.bool false] "false".toList := fun rest _ =>
  scan_plain rfl (by decide) rfl

/-- The first character of a number is a sign or a digit, and no other token starts so. -/
theorem scan_numeral {c : Char} {cs rest : List Char} {x : Numeral} {n : Number}
    (hc : c = '-' ∨ c.isDigit = true) (hread : Numeral.read (c :: cs) = .ok (x, rest))
    (hn : x.number? = some n) : scan (c :: cs) = .number n :: scan rest := by
  have hnot : ∀ d, d ≠ '-' → d.isDigit = false → c ≠ d := by
    rintro d hminus hdigit rfl
    rcases hc with rfl | hc
    · exact hminus rfl
    · rw [hdigit] at hc
      cases hc
  have hspace : isSpace c = false := by
    simp [isSpace, hnot]
  have hmark : ofMark? c = none := by
    unfold ofMark?
    split <;> first | rfl | exact absurd rfl (hnot _ (by decide) (by decide))
  apply scan_plain hspace (hnot _ (by decide) (by decide))
  unfold readPlain
  rw [hmark]
  dsimp only
  split
  · exact absurd rfl (hnot _ (by decide) (by decide))
  · exact absurd rfl (hnot _ (by decide) (by decide))
  · exact absurd rfl (hnot _ (by decide) (by decide))
  · rw [if_pos (by simpa using hc), hread]
    dsimp only
    rw [hn]

theorem writes_whole {n : Int} (h : (Face.number (.whole n)).IsExact) :
    Writes [.number (.whole n)] (toString n).toList := by
  intro rest hrest
  have hread := Numeral.read_toString n hrest
  obtain ⟨c, cs, hcs⟩ := List.exists_cons_of_ne_nil (Text.toString_ne_nil n)
  have hc : c = '-' ∨ c.isDigit = true := Text.of_mem_toString (hcs ▸ List.mem_cons_self)
  rw [hcs, List.cons_append] at hread ⊢
  exact scan_numeral hc hread (Numeral.number?_of_whole h.1 h.2)

/-- Parts with commas between them. -/
theorem writes_intercalate {sep : List Char} (hsep : Spells [.comma] sep)
    (hends : ∀ rest, Ends (sep ++ rest)) {tokens : List (List Token)} {parts : List (List Char)}
    (h : List.Forall₂ Writes tokens parts) :
    Writes (List.intercalate [.comma] tokens) (List.intercalate sep parts) := by
  induction h with
  | nil => exact Spells.nil.writes
  | @cons first part tokens parts hfirst hrest ih =>
      cases hrest with
      | nil =>
          rw [List.intercalate_singleton, List.intercalate_singleton]
          exact hfirst
      | cons hsecond hrest =>
          rw [List.intercalate_cons_cons, List.intercalate_cons_cons, List.append_assoc,
            List.append_assoc]
          refine hfirst.append (hsep.append_writes ih) fun rest => ?_
          rw [List.append_assoc]
          exact hends _

theorem spells_newline (level : Nat) : Spells [] (Value.newline level).toList := by
  have hspaces : ∀ count : Nat, Spells [] (List.replicate count ' ') := by
    intro count
    induction count with
    | zero => exact .nil
    | succ count ih => exact .space rfl ih
  have hline : Spells [] "\n".toList := .space rfl .nil
  rw [Value.newline, String.toList_append]
  apply hline.append
  rw [String.toList_ofList]
  exact hspaces _

/-- A block has the tokens of its parts between its brackets. -/
theorem writes_block {opening closing : String} {first last : Token} (level : Nat)
    (hopening : Spells [first] opening.toList) (hclosing : Spells [last] closing.toList)
    {tokens : List (List Token)} {parts : List String}
    (h : List.Forall₂ Writes tokens (parts.map String.toList)) :
    Writes (first :: (List.intercalate [.comma] tokens ++ [last]))
      (Value.block opening closing level parts).toList := by
  rw [Value.block]
  cases parts with
  | nil =>
      cases h
      rw [List.isEmpty_nil, if_pos rfl, String.toList_append]
      exact (hopening.append hclosing).writes
  | cons part parts =>
      rw [List.isEmpty_cons, if_neg Bool.false_ne_true]
      simp only [String.toList_append, String.toList_intercalate, List.append_assoc]
      have hcomma : Spells [.comma] ("," ++ Value.newline (level + 1)).toList := by
        rw [String.toList_append]
        exact (spells_mark rfl).append (spells_newline _)
      have hsep : ∀ rest, Ends (("," ++ Value.newline (level + 1)).toList ++ rest) := by
        intro rest
        rw [String.toList_append, List.append_assoc]
        exact ends_cons (by decide) _
      have hline : ∀ more, Ends ((Value.newline level).toList ++ more) := by
        intro more
        rw [Value.newline, String.toList_append, List.append_assoc]
        exact ends_cons (by decide) _
      have hparts := writes_intercalate hcomma hsep h
      have hend := (spells_newline level).append hclosing
      rw [String.toList_append] at hparts
      refine hopening.append_writes ((spells_newline _).append_writes
        (hparts.append hend.writes fun rest => ?_))
      rw [List.append_assoc]
      exact hline _

end Token

namespace Value

open Token (Writes)

theorem forall₂_items {level : Nat} {items : List Value}
    (h : ∀ v ∈ items, Writes v.tokens (v.indented level).toList) :
    List.Forall₂ Writes (tokensOfItems items) ((indentedItems level items).map String.toList) := by
  induction items with
  | nil => exact .nil
  | cons v rest ih =>
      exact .cons (h v List.mem_cons_self) (ih fun w hw => h w (List.mem_cons_of_mem _ hw))

theorem forall₂_members {level : Nat} {members : List (String × Value)}
    (h : ∀ v ∈ members.map Prod.snd, Writes v.tokens (v.indented level).toList) :
    List.Forall₂ Writes (tokensOfMembers members)
      ((indentedMembers level members).map String.toList) := by
  induction members with
  | nil => exact .nil
  | cons member rest ih =>
      obtain ⟨name, v⟩ := member
      refine .cons ?_ (ih fun w hw => h w (List.mem_cons_of_mem _ hw))
      have hname := StringObject.spells_text name
      have hcolon : Token.Spells [.colon] ": ".toList := .mark rfl (.space rfl .nil)
      rw [String.toList_append, String.toList_append]
      exact (hname.append hcolon).append_writes (h v List.mem_cons_self)

/-- A document is written as its tokens, at whatever level. -/
theorem writes_indented {v : Value} (h : v.IsExact) (level : Nat) :
    Writes v.tokens (v.indented level).toList := by
  induction v using induction_children generalizing level with
  | value v ih =>
      obtain ⟨hface, hchildren⟩ := isExact_iff.mp h
      cases v with
      | null => exact Token.writes_null
      | bool b =>
          cases b with
          | false => exact Token.writes_false
          | true => exact Token.writes_true
      | number n =>
          cases n with
          | whole n => exact Token.writes_whole hface
          | real value => exact hface.elim
      | text s => exact (StringObject.spells_text s).writes
      | array items =>
          exact Token.writes_block level (Token.spells_mark rfl) (Token.spells_mark rfl)
            (forall₂_items fun w hw => ih w hw (hchildren w hw) (level + 1))
      | object members =>
          exact Token.writes_block level (Token.spells_mark rfl) (Token.spells_mark rfl)
            (forall₂_members fun w hw => ih w hw (hchildren w hw) (level + 1))

/-! ### Reading -/

open Reader (run place deepest)

/-- Whether a reader that expects a value takes this one, and puts it in its place. -/
def IsTaken (v : Value) : Prop :=
  ∀ outer rest, v.nesting + outer.length ≤ deepest →
    run (.value outer) (v.tokens ++ rest) = run (place v outer) rest

/-- The items of an array are taken one by one. -/
theorem run_items {items : List Value} (hne : items ≠ []) (h : ∀ v ∈ items, v.IsTaken)
    {outer : List Reader.Frame} (hdepth : nestingOfItems items + outer.length < deepest)
    (done : List Value) (rest : List Token) :
    run (.value (.array done :: outer))
        (List.intercalate [.comma] (tokensOfItems items) ++ .endArray :: rest) =
      run (place (.array (done.reverse ++ items)) outer) rest := by
  induction items generalizing done with
  | nil => exact absurd rfl hne
  | cons v items ih =>
      rw [nestingOfItems] at hdepth
      have hv := h v List.mem_cons_self (.array done :: outer)
      have hroom : v.nesting + (Reader.Frame.array done :: outer).length ≤ deepest := by
        rw [List.length_cons]
        omega
      cases items with
      | nil =>
          rw [tokensOfItems, tokensOfItems, List.intercalate_singleton, hv _ hroom]
          change run (place (.array (v :: done).reverse) outer) rest = _
          rw [List.reverse_cons]
      | cons w items =>
          have hrest := ih (List.cons_ne_nil _ _) (fun u hu => h u (List.mem_cons_of_mem _ hu))
            (by omega) (v :: done)
          rw [tokensOfItems, tokensOfItems, List.intercalate_cons_cons, ← tokensOfItems,
            List.append_assoc, List.append_assoc, hv _ hroom]
          refine Eq.trans hrest ?_
          rw [List.reverse_cons, List.append_assoc, List.singleton_append]

/-- The members of an object are taken one by one, as long as no name repeats. -/
theorem run_members {members : List (String × Value)} (hne : members ≠ [])
    (h : ∀ v ∈ members.map Prod.snd, v.IsTaken) {outer : List Reader.Frame}
    (hdepth : nestingOfMembers members + outer.length < deepest) (done : List (String × Value))
    (hnodup : ((done ++ members).map Prod.fst).Nodup) (rest : List Token) :
    run (.name done outer)
        (List.intercalate [.comma] (tokensOfMembers members) ++ .endObject :: rest) =
      run (place (.object (done ++ members)) outer) rest := by
  induction members generalizing done with
  | nil => exact absurd rfl hne
  | cons member members ih =>
      obtain ⟨name, v⟩ := member
      rw [nestingOfMembers] at hdepth
      have hv := h v List.mem_cons_self (.object done name :: outer)
      have hroom : v.nesting + (Reader.Frame.object done name :: outer).length ≤ deepest := by
        rw [List.length_cons]
        omega
      have hnew : name ∉ done.map Prod.fst := by
        rw [List.map_append, List.nodup_append] at hnodup
        exact fun hmem => hnodup.2.2 _ hmem _ List.mem_cons_self rfl
      have hplace : place v (.object done name :: outer) =
          .afterMember (done ++ [(name, v)]) outer := by
        rw [place, Assoc.put_of_not_mem hnew]
      have htake (more : List Token) :
          run (.name done outer) ((.text name :: .colon :: v.tokens) ++ more) =
            run (.afterMember (done ++ [(name, v)]) outer) more :=
        (hv more hroom).trans (by rw [hplace])
      cases members with
      | nil =>
          rw [tokensOfMembers, tokensOfMembers, List.intercalate_singleton, htake]
          rfl
      | cons next members =>
          rw [List.append_cons] at hnodup
          have hrest := ih (List.cons_ne_nil _ _) (fun u hu => h u (List.mem_cons_of_mem _ hu))
            (by omega) _ hnodup
          rw [tokensOfMembers, tokensOfMembers, List.intercalate_cons_cons, ← tokensOfMembers,
            List.append_assoc, List.append_assoc, htake]
          refine Eq.trans hrest ?_
          rw [← List.append_cons]

/-- What has commas between its parts begins with the first part. -/
theorem exists_intercalate_eq (part : List Token) (parts : List (List Token)) :
    ∃ tail, List.intercalate [.comma] (part :: parts) = part ++ tail := by
  cases parts with
  | nil => exact ⟨[], by rw [List.intercalate_singleton, List.append_nil]⟩
  | cons next parts => exact ⟨_, by rw [List.intercalate_cons_cons, List.append_assoc]⟩

theorem isTaken_array {items : List Value} (h : ∀ v ∈ items, v.IsTaken) :
    (array items).IsTaken := by
  intro outer rest hdepth
  rw [nesting] at hdepth
  have hroom : outer.length < deepest := by omega
  have hopen (more : List Token) :
      run (.value outer) (.beginArray :: more) = run (.arrayStart outer) more := by
    simp only [run, Reader.step, Reader.beginValue, if_pos hroom]
  rw [tokens, List.cons_append, hopen, List.append_assoc, List.singleton_append]
  cases items with
  | nil => rfl
  | cons v items =>
      have hlevels : nestingOfItems (v :: items) + outer.length < deepest := by omega
      have hitems := run_items (List.cons_ne_nil v items) h hlevels [] rest
      obtain ⟨tail, htail⟩ := exists_intercalate_eq v.tokens (tokensOfItems items)
      obtain ⟨first, more, hfirst, hstart⟩ := v.exists_tokens
      rw [tokensOfItems, htail, hfirst, List.cons_append, List.cons_append, run] at hitems ⊢
      rw [hstart]
      exact hitems

theorem isTaken_object {members : List (String × Value)} (h : ∀ v ∈ members.map Prod.snd, v.IsTaken)
    (hnodup : (members.map Prod.fst).Nodup) : (object members).IsTaken := by
  intro outer rest hdepth
  rw [nesting] at hdepth
  have hroom : outer.length < deepest := by omega
  have hopen (more : List Token) :
      run (.value outer) (.beginObject :: more) = run (.objectStart outer) more := by
    simp only [run, Reader.step, Reader.beginValue, if_pos hroom]
  rw [tokens, List.cons_append, hopen, List.append_assoc, List.singleton_append]
  cases members with
  | nil => rfl
  | cons member members =>
      obtain ⟨name, v⟩ := member
      have hlevels : nestingOfMembers ((name, v) :: members) + outer.length < deepest := by omega
      have hmembers := run_members (List.cons_ne_nil (name, v) members) h hlevels [] hnodup rest
      obtain ⟨tail, htail⟩ := exists_intercalate_eq (.text name :: .colon :: v.tokens)
        (tokensOfMembers members)
      rw [tokensOfMembers, htail] at hmembers ⊢
      exact hmembers

/-- A reader takes the tokens of a document as the document. -/
theorem isTaken {v : Value} (h : v.IsExact) : v.IsTaken := by
  induction v using induction_children with
  | value v ih =>
      obtain ⟨hface, hchildren⟩ := isExact_iff.mp h
      have hparts : ∀ c ∈ v.children, c.IsTaken := fun c hc => ih c hc (hchildren c hc)
      cases v with
      | null | bool _ | number _ | text _ => exact fun _ _ _ => rfl
      | array items => exact isTaken_array hparts
      | object members => exact isTaken_object hparts hface

/-- What is written of a document is read as the document, with white space behind it or
without. -/
theorem read_indented {v : Value} (h : v.IsExact) (hdepth : v.nesting ≤ deepest) (level : Nat)
    {space : String} (hspace : Token.Spells [] space.toList) :
    read (v.indented level ++ space) = .ok v := by
  have hscan := writes_indented h level space.toList (Token.ends_of_spells hspace)
  rw [Token.scan_of_spells hspace] at hscan
  rw [read, Token.ofText, String.toList_append, hscan]
  exact isTaken h [] [] hdepth

end Value

end Phrasebook.Json
