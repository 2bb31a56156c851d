import Phrasebook.Json.StringObject
import Phrasebook.Proofs.Json.Quoted
/-!
# The written forms of an object of strings

Members can be written in many ways: white space may stand between the tokens, and each
character has forms of its own. A text is read as members just when it is one of their
written forms, and writing produces one.
-/

namespace Phrasebook.Json

namespace Token

/-- Whether a token is a mark or a text. -/
def isPlain : Token → Bool
  | .null | .bool _ | .number _ | .broken _ _ => false
  | _ => true

/-- The texts that spell marks and texts, with white space anywhere between them. -/
inductive Spells : List Token → List Char → Prop
  | nil : Spells [] []
  | space {tokens : List Token} {c : Char} {cs : List Char} (hc : isSpace c = true)
      (h : Spells tokens cs) : Spells tokens (c :: cs)
  | mark {token : Token} {tokens : List Token} {c : Char} {cs : List Char}
      (hc : ofMark? c = some token) (h : Spells tokens cs) : Spells (token :: tokens) (c :: cs)
  | text {s : String} {tokens : List Token} {forms cs : List Char}
      (hforms : Quoted.Forms s.toList forms) (h : Spells tokens cs) :
    Spells (.text s :: tokens) ('"' :: forms ++ '"' :: cs)

theorem Spells.append {tokens more : List Token} {cs ds : List Char} (h : Spells tokens cs)
    (hmore : Spells more ds) : Spells (tokens ++ more) (cs ++ ds) := by
  induction h with
  | nil => exact hmore
  | space hc h ih => exact .space hc ih
  | mark hc h ih => exact .mark hc ih
  | text hforms h ih =>
      rw [List.append_assoc]
      exact .text hforms ih

theorem spells_mark {token : Token} {c : Char} (hc : ofMark? c = some token) :
    Spells [token] [c] :=
  .mark hc .nil

/-- A mark is told from white space and quotes, and is read by itself. -/
theorem ofMark?_eq_some {token : Token} {c : Char} (hc : ofMark? c = some token) :
    isSpace c = false ∧ c ≠ '"' ∧ ∀ cs, readPlain c cs = .ok (token, cs) := by
  refine ⟨?_, ?_, ?_⟩
  · rw [← Bool.not_eq_true, isSpace]
    simp only [Bool.or_eq_true, beq_iff_eq]
    rintro (((rfl | rfl) | rfl) | rfl) <;> cases hc
  · rintro rfl
    cases hc
  · intro cs
    unfold readPlain
    rw [hc]

theorem scan_quoted {cs chars rest : List Char} (h : Quoted.read cs = .ok (chars, rest)) :
    scan ('"' :: cs) = .text (String.ofList chars) :: scan rest := by
  rw [scan, if_neg (by decide), if_pos rfl]
  split
  · rename_i fault hfault
    rw [h] at hfault
    cases hfault
  · rename_i found tail hfound
    rw [h] at hfound
    cases hfound
    rfl

theorem scan_plain {token : Token} {c : Char} {cs rest : List Char} (hspace : isSpace c = false)
    (hquote : c ≠ '"') (h : readPlain c cs = .ok (token, rest)) :
    scan (c :: cs) = token :: scan rest := by
  rw [scan, if_neg (Bool.eq_false_iff.mp hspace), if_neg hquote]
  split
  · rename_i fault hfault
    rw [h] at hfault
    cases hfault
  · rename_i found tail hfound
    rw [h] at hfound
    cases hfound
    rfl

/-- Reading finds the tokens that a text spells, and goes on behind it. -/
theorem scan_append_of_spells {tokens : List Token} {cs : List Char} (h : Spells tokens cs)
    (rest : List Char) : scan (cs ++ rest) = tokens ++ scan rest := by
  induction h with
  | nil => rfl
  | space hc h ih => rw [List.cons_append, scan, if_pos hc, ih]
  | mark hc h ih =>
      obtain ⟨hspace, hquote, hread⟩ := ofMark?_eq_some hc
      rw [List.cons_append, scan_plain hspace hquote (hread _), ih, List.cons_append]
  | text hforms h ih =>
      rw [List.append_assoc, List.cons_append, List.cons_append,
        scan_quoted (Quoted.read_forms hforms _), ih, String.ofList_toList, List.cons_append]

theorem scan_of_spells {tokens : List Token} {cs : List Char} (h : Spells tokens cs) :
    scan cs = tokens := by
  have hscan := scan_append_of_spells h []
  rwa [List.append_nil, scan, List.append_nil] at hscan

/-- A plain token that is no text was read as a mark. -/
theorem ofMark?_of_readPlain {token : Token} {c : Char} {cs rest : List Char}
    (h : readPlain c cs = .ok (token, rest)) (hplain : token.isPlain = true) :
    ofMark? c = some token ∧ rest = cs := by
  have noWord : ∀ {expected : List Char} {word : Token}, word.isPlain = false →
      ¬ (readWord expected cs).map (fun rest => (word, rest)) = .ok (token, rest) := by
    intro expected word hword h
    obtain ⟨behind, hread, he⟩ := exists_of_map_eq_ok h
    cases he
    rw [hword] at hplain
    cases hplain
  unfold readPlain at h
  split at h
  · rename_i mark hmark
    cases h
    exact ⟨hmark, rfl⟩
  · split at h
    · exact absurd h (noWord rfl)
    · exact absurd h (noWord rfl)
    · exact absurd h (noWord rfl)
    · split at h
      · split at h
        · cases h
        · split at h
          · cases h
            cases hplain
          · cases h
      · cases h

/-- A text whose tokens are all marks and texts spells them. -/
theorem spells_scan {cs : List Char} (h : ∀ token ∈ scan cs, token.isPlain = true) :
    Spells (scan cs) cs := by
  fun_induction scan cs with
  | case1 => exact .nil
  | case2 c cs hspace ih => exact .space hspace (ih h)
  | case3 => cases h _ List.mem_cons_self
  | case4 cs chars rest hread hlength hspace ih =>
      obtain ⟨forms, rfl, hforms⟩ := Quoted.forms_of_read hread
      rw [← @String.toList_ofList chars] at hforms
      exact .text hforms (ih fun token htoken => h token (List.mem_cons_of_mem _ htoken))
  | case5 => cases h _ List.mem_cons_self
  | case6 c cs hspace hquote token rest hread hlength ih =>
      obtain ⟨hmark, rfl⟩ := ofMark?_of_readPlain hread (h token List.mem_cons_self)
      exact .mark hmark (ih fun token htoken => h token (List.mem_cons_of_mem _ htoken))

end Token

namespace StringObject

/-- The tokens of a member. -/
def memberTokens (pair : String × String) : List Token := [.text pair.1, .colon, .text pair.2]

/-- The tokens of members with commas between them. -/
def listTokens (pairs : List (String × String)) : List Token :=
  List.intercalate [.comma] (pairs.map memberTokens)

/-- The tokens of an object. -/
def objectTokens (pairs : List (String × String)) : List Token :=
  .beginObject :: listTokens pairs ++ [.endObject]

/-- Whether a text writes an object with the given members, in their order. -/
def Written (pairs : List (String × String)) (source : String) : Prop :=
  Token.Spells (objectTokens pairs) source.toList

theorem listTokens_singleton (p : String × String) : listTokens [p] = memberTokens p :=
  List.intercalate_singleton

theorem listTokens_cons_cons (p q : String × String) (pairs : List (String × String)) :
    listTokens (p :: q :: pairs) = memberTokens p ++ .comma :: listTokens (q :: pairs) := by
  rw [listTokens, List.map_cons, List.map_cons, List.intercalate_cons_cons, List.append_assoc]
  rfl

theorem pairs_of_members {tokens : List Token} {pairs : List (String × String)}
    (h : members tokens = .ok pairs) :
    pairs ≠ [] ∧ tokens = listTokens pairs ++ [.endObject] := by
  fun_induction members tokens generalizing pairs with
  | case1 name value rest ih =>
      obtain ⟨more, hmore, rfl⟩ := exists_of_map_eq_ok h
      obtain ⟨hne, rfl⟩ := ih hmore
      obtain ⟨q, more, rfl⟩ := List.exists_cons_of_ne_nil hne
      refine ⟨List.cons_ne_nil _ _, ?_⟩
      rw [listTokens_cons_cons, List.append_assoc]
      rfl
  | case2 name value =>
      cases h
      exact ⟨List.cons_ne_nil _ _, rfl⟩
  | case3 => cases h

theorem members_listTokens (p : String × String) (pairs : List (String × String)) :
    members (listTokens (p :: pairs) ++ [.endObject]) = .ok (p :: pairs) := by
  induction pairs generalizing p with
  | nil => rfl
  | cons q pairs ih =>
      rw [listTokens_cons_cons, List.append_assoc]
      simp only [memberTokens, List.cons_append, List.nil_append, members, ih q]
      rfl

theorem exists_listTokens (p : String × String) (pairs : List (String × String)) :
    ∃ tail, listTokens (p :: pairs) = .text p.1 :: tail := by
  cases pairs with
  | nil => exact ⟨_, rfl⟩
  | cons q pairs => exact ⟨_, listTokens_cons_cons p q pairs⟩

/-- Just the tokens of an object are taken for it. -/
theorem ofTokens_eq_ok_iff {tokens : List Token} {pairs : List (String × String)} :
    ofTokens tokens = .ok pairs ↔ tokens = objectTokens pairs := by
  constructor
  · intro h
    unfold ofTokens at h
    split at h
    · cases h
    · cases h
      rfl
    · obtain ⟨-, rfl⟩ := pairs_of_members h
      rfl
    · cases h
  · rintro rfl
    cases pairs with
    | nil => rfl
    | cons p pairs =>
        obtain ⟨tail, htail⟩ := exists_listTokens p pairs
        have hmembers := members_listTokens p pairs
        rw [htail] at hmembers
        rw [objectTokens, htail]
        exact hmembers

theorem all_isPlain_listTokens (pairs : List (String × String)) :
    (listTokens pairs).all Token.isPlain = true := by
  induction pairs with
  | nil => rfl
  | cons p pairs ih =>
      cases pairs with
      | nil => rfl
      | cons q pairs =>
          rw [listTokens_cons_cons, List.all_append, List.all_cons, ih]
          rfl

theorem all_isPlain_objectTokens (pairs : List (String × String)) :
    (objectTokens pairs).all Token.isPlain = true := by
  rw [objectTokens, List.cons_append, List.all_cons, List.all_append, all_isPlain_listTokens]
  rfl

/-- A text is read as members just when it is one of their written forms. -/
theorem read_eq_ok_iff {source : String} {pairs : List (String × String)} :
    read source = .ok pairs ↔ Written pairs source := by
  rw [read, ofTokens_eq_ok_iff]
  constructor
  · intro h
    have hplain : (Token.ofText source).all Token.isPlain = true := by
      rw [h]
      exact all_isPlain_objectTokens pairs
    rw [Written, ← h]
    exact Token.spells_scan (List.all_eq_true.mp hplain)
  · exact Token.scan_of_spells

/-! ### Writing -/

theorem spells_text (s : String) : Token.Spells [.text s] (Quoted.write s).toList := by
  rw [Quoted.write, String.toList_ofList]
  exact .text (Quoted.forms_escape s.toList) .nil

theorem spells_member (pair : String × String) :
    Token.Spells (memberTokens pair) (writeMember pair).toList := by
  rw [writeMember, String.toList_append, String.toList_append]
  have hcolon : Token.Spells [.colon] ":".toList := Token.spells_mark rfl
  exact ((spells_text pair.1).append hcolon).append (spells_text pair.2)

theorem spells_members (pairs : List (String × String)) :
    Token.Spells (listTokens pairs) (String.intercalate "," (pairs.map writeMember)).toList := by
  rw [String.toList_intercalate]
  induction pairs with
  | nil => exact .nil
  | cons p pairs ih =>
      cases pairs with
      | nil =>
          rw [listTokens_singleton, List.map_cons, List.map_cons, List.map_nil, List.map_nil,
            List.intercalate_singleton]
          exact spells_member p
      | cons q pairs =>
          have hcomma : Token.Spells [.comma] ",".toList := Token.spells_mark rfl
          rw [List.map_cons, List.map_cons] at ih
          rw [listTokens_cons_cons, List.map_cons, List.map_cons, List.map_cons, List.map_cons,
            List.intercalate_cons_cons, List.append_assoc]
          exact (spells_member p).append (hcomma.append ih)

/-- Members are written in one of their written forms. -/
theorem written_write (pairs : List (String × String)) : Written pairs (write pairs) := by
  have hopening : Token.Spells [.beginObject] "\x7b".toList := Token.spells_mark rfl
  have hclosing : Token.Spells [.endObject] "\x7d".toList := Token.spells_mark rfl
  rw [Written, write, String.toList_append, String.toList_append]
  exact (hopening.append (spells_members pairs)).append hclosing

end StringObject

end Phrasebook.Json
