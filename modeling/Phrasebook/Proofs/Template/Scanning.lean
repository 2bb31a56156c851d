import Phrasebook.Proofs.Template.Grammar
/-!
# Where the scanner stops

A segment of a template is read up to the first delimiter, where doubled marks are
paired from the left. So the text is cut in two at a lexeme, in one way only. A
reference is made of segments, hence the expansion behind it goes on at the end of the
text or at the next reference: it writes characters of its own only before the first one.
-/

namespace Phrasebook.Template

variable {stopAtColon : Bool} {cs rest : List Char}

/-- The text is at its end, or at a single mark that ends a segment. -/
inductive AtDelimiter (stopAtColon : Bool) : List Char → Prop
  | done : AtDelimiter stopAtColon []
  | mark {cs : List Char} (h : ∀ rest, cs ≠ '@' :: rest) : AtDelimiter stopAtColon ('@' :: cs)
  | colon {cs : List Char} (hstop : stopAtColon = true) (h : ∀ rest, cs ≠ ':' :: rest) :
    AtDelimiter stopAtColon (':' :: cs)

/-! ## Segments -/

theorem segment_colon (h : ∀ rest, cs ≠ ':' :: rest) :
    segment false (':' :: cs) = (':' :: (segment false cs).1, (segment false cs).2) := by
  rw [segment, if_neg Bool.false_ne_true]
  exact h

theorem segment_char {c : Char} (hmark : c ≠ '@') (hcolon : c ≠ ':') :
    segment stopAtColon (c :: cs) =
      (c :: (segment stopAtColon cs).1, (segment stopAtColon cs).2) := by
  rw [segment] <;> simp [hmark, hcolon]

/-- At a delimiter the scanner takes nothing. -/
theorem AtDelimiter.segment_eq (h : AtDelimiter stopAtColon rest) :
    segment stopAtColon rest = ([], rest) := by
  cases h with
  | done => rfl
  | mark h =>
      rw [segment]
      exact h
  | colon hstop h =>
      rw [segment, if_pos hstop]
      exact h

/-- A single colon is no delimiter where the text goes on with one. -/
theorem AtDelimiter.ne_colon (h : AtDelimiter false rest) (more : List Char) :
    rest ≠ ':' :: more := by
  cases h with
  | done => simp
  | mark h => simp
  | colon hstop h => cases hstop

/-- What holds no delimiter is taken in front of a delimiter, and its pairs are collapsed. -/
theorem AtDelimiter.segment_append (h : AtDelimiter stopAtColon rest) {consumed : List Char}
    (hfree : ∀ l ∈ lex consumed, l.ends stopAtColon = false) :
    segment stopAtColon (consumed ++ rest) = (spelled (lex consumed), rest) := by
  fun_induction lex consumed with
  | case1 => exact h.segment_eq
  | case2 cs ih | case3 cs ih =>
      have ih := ih fun l hl => hfree l (List.mem_cons_of_mem _ hl)
      simp only [List.cons_append, segment, ih]
      rfl
  | case4 cs hcs => cases hfree .mark List.mem_cons_self
  | case5 cs hcs ih =>
      obtain rfl : stopAtColon = false := hfree .colon List.mem_cons_self
      have ih := ih fun l hl => hfree l (List.mem_cons_of_mem _ hl)
      have hsingle : ∀ more, cs ++ rest ≠ ':' :: more := by
        cases cs with
        | nil => exact h.ne_colon
        | cons c cs =>
            intro more heq
            exact hcs cs (by rw [(List.cons.inj heq).1])
      rw [List.cons_append, segment_colon hsingle, ih]
      rfl
  | case6 c cs h1 h2 hmark hcolon ih =>
      have ih := ih fun l hl => hfree l (List.mem_cons_of_mem _ hl)
      rw [List.cons_append, segment_char hmark hcolon, ih]
      rfl

/-- The scanner cuts every text at a delimiter that it has come to. -/
theorem exists_consumed (stopAtColon : Bool) (cs : List Char) :
    ∃ consumed, cs = consumed ++ (segment stopAtColon cs).2 ∧
      AtDelimiter stopAtColon (segment stopAtColon cs).2 ∧
      ∀ l ∈ lex consumed, l.ends stopAtColon = false := by
  fun_induction segment stopAtColon cs with
  | case1 => exact ⟨[], rfl, .done, List.forall_mem_nil _⟩
  | case2 cs text rest hs ih | case3 cs text rest hs ih =>
      rw [hs] at ih
      obtain ⟨consumed, rfl, hrest, hfree⟩ := ih
      exact ⟨_ :: _ :: consumed, rfl, hrest, List.forall_mem_cons.mpr ⟨rfl, hfree⟩⟩
  | case4 cs h => exact ⟨[], rfl, .mark h, List.forall_mem_nil _⟩
  | case5 cs h hs => exact ⟨[], rfl, .colon hs h, List.forall_mem_nil _⟩
  | case6 cs h hs text rest hr ih =>
      rw [hr] at ih
      obtain ⟨consumed, rfl, hrest, hfree⟩ := ih
      refine ⟨':' :: consumed, rfl, hrest, ?_⟩
      have hsingle : ∀ more, consumed ≠ ':' :: more := fun more heq => h _ (by rw [heq]; rfl)
      rw [lex_colon hsingle]
      exact List.forall_mem_cons.mpr ⟨Bool.eq_false_iff.mpr hs, hfree⟩
  | case7 c cs h1 h2 hmark hcolon text rest hr ih =>
      rw [hr] at ih
      obtain ⟨consumed, rfl, hrest, hfree⟩ := ih
      refine ⟨c :: consumed, rfl, hrest, ?_⟩
      rw [lex_char hmark hcolon]
      exact List.forall_mem_cons.mpr ⟨rfl, hfree⟩

/-- A segment is all that stands before the first delimiter, with its pairs collapsed. -/
theorem segment_eq_iff {text : List Char} :
    segment stopAtColon cs = (text, rest) ↔
      ∃ consumed, cs = consumed ++ rest ∧ AtDelimiter stopAtColon rest ∧
        (∀ l ∈ lex consumed, l.ends stopAtColon = false) ∧ text = spelled (lex consumed) := by
  constructor
  · intro h
    obtain ⟨consumed, hcs, hrest, hfree⟩ := exists_consumed stopAtColon cs
    have hsegment := hrest.segment_append hfree
    rw [← hcs] at hsegment
    rw [h] at hcs hrest hsegment
    exact ⟨consumed, hcs, hrest, hfree, congrArg Prod.fst hsegment⟩
  · rintro ⟨consumed, rfl, hrest, hfree, rfl⟩
    exact hrest.segment_append hfree

/-! ## Turns of an expansion -/

/-- A token ends at the delimiter of its default, which is read as well, or of the
reference. -/
theorem atDelimiter_read (cs : List Char) : AtDelimiter false (Reference.read cs).2 := by
  obtain ⟨-, -, htoken, -⟩ := exists_consumed true cs
  unfold Reference.read
  generalize segment true cs = scan at htoken
  obtain ⟨token, rest⟩ := scan
  cases htoken with
  | done => exact .done
  | mark h => exact .mark h
  | colon hstop h =>
      obtain ⟨-, -, hfallback, -⟩ := exists_consumed false _
      exact hfallback

/-- What an expansion does in one turn. -/
inductive Turn
  /-- It writes a character as it stands. -/
  | literal (c : Char)
  | reference (r : Reference)
deriving DecidableEq, Repr

/-- What is written in a turn. -/
def Turn.render (t : LocaleTable) : Turn → List Char
  | .literal c => [c]
  | .reference r => r.render t

/-- The turns of an expansion, in order. -/
def turns : List Char → List Turn
  | [] => []
  | '@' :: '@' :: cs => .literal '@' :: turns cs
  | ':' :: ':' :: cs => .literal ':' :: turns cs
  | '@' :: cs => .reference (Reference.read cs).1 :: turns (Reference.read cs).2
  | c :: cs => .literal c :: turns cs
termination_by cs => cs.length
decreasing_by
  · simp only [List.length_cons]; omega
  · simp only [List.length_cons]; omega
  · exact Nat.lt_succ_of_le (Reference.length_read cs)
  · simp only [List.length_cons]; omega

theorem expandChars_eq_turns (t : LocaleTable) (cs : List Char) :
    expandChars t cs = (turns cs).flatMap (Turn.render t) := by
  fun_induction turns cs with
  | case1 => rw [expandChars]; rfl
  | case2 cs ih | case3 cs ih => rw [expandChars, ih]; rfl
  | case4 cs h ih =>
      rw [expandChars, ih]
      · rfl
      · exact h
  | case5 c cs h1 h2 h3 ih =>
      rw [expandChars, ih]
      · rfl
      all_goals assumption

/-- At a delimiter only references are left. -/
theorem turns_of_atDelimiter (h : AtDelimiter false cs) :
    ∃ references : List Reference, turns cs = references.map .reference := by
  fun_induction turns cs with
  | case1 => exact ⟨[], rfl⟩
  | case4 cs hcs ih =>
      obtain ⟨references, hturns⟩ := ih (atDelimiter_read cs)
      exact ⟨(Reference.read cs).1 :: references, by rw [hturns, List.map_cons]⟩
  | case2 cs ih =>
      cases h with
      | mark h => exact absurd rfl (h cs)
  | case3 cs ih =>
      cases h with
      | colon hstop h => cases hstop
  | case5 c cs h1 h2 hmark ih =>
      cases h with
      | mark h => exact absurd rfl hmark
      | colon hstop h => cases hstop

/-- Characters are written before the first reference only. -/
theorem exists_turns_eq (cs : List Char) : ∃ (literal : List Char) (references : List Reference),
    turns cs = literal.map .literal ++ references.map .reference := by
  fun_induction turns cs with
  | case1 => exact ⟨[], [], rfl⟩
  | case2 cs ih | case3 cs ih | case5 c cs h1 h2 hmark ih =>
      obtain ⟨literal, references, hturns⟩ := ih
      exact ⟨_ :: literal, references, by rw [hturns, List.map_cons, List.cons_append]⟩
  | case4 cs hcs ih =>
      obtain ⟨references, hturns⟩ := turns_of_atDelimiter (atDelimiter_read cs)
      exact ⟨[], (Reference.read cs).1 :: references, by rw [hturns, List.map_cons]; rfl⟩

/-- The scanner cuts every text into what it takes and what it leaves, and so that in just one
way: what is left is nothing, or starts with a single mark that ends the segment; what is taken,
with doubled marks paired from the left, holds no such mark, and the segment is this with each
pair collapsed. Hence a reference is followed by the end of the text or by the mark of the next
reference, and an expansion writes characters of its own only before the first reference. -/
theorem segment_cuts (t : LocaleTable) :
    (∀ (stopAtColon : Bool) (cs text rest : List Char),
      segment stopAtColon cs = (text, rest) ↔
        ∃ consumed, cs = consumed ++ rest ∧ AtDelimiter stopAtColon rest ∧
          (∀ l ∈ lex consumed, l.ends stopAtColon = false) ∧ text = spelled (lex consumed)) ∧
    (∀ cs : List Char, AtDelimiter false (Reference.read cs).2) ∧
    ∀ cs : List Char, expandChars t cs = (turns cs).flatMap (Turn.render t) ∧
      ∃ (literal : List Char) (references : List Reference),
        turns cs = literal.map .literal ++ references.map .reference :=
  ⟨fun _ _ _ _ => segment_eq_iff, atDelimiter_read,
    fun cs => ⟨expandChars_eq_turns t cs, exists_turns_eq cs⟩⟩

/-- Of three marks behind a token the first two are a pair. -/
example : segment true "a@@@b:c".toList = ("a@".toList, "@b:c".toList) := by
  decide

end Phrasebook.Template
