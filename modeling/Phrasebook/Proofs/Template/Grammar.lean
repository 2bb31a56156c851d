import Phrasebook.Template
import Mathlib.Data.List.TakeWhile
/-!
# The grammar of templates

Expanding a template reads it once, with three ways of looking at a mark. The
grammar says the same in steps that do not look ahead: the text is cut into
lexemes, the lexemes are split at the reference marks, and each chunk is one
reference. No step of this looks at a table; only rendering does.

## Implementation notes

The scanner stops at a delimiter and never crosses one, so all that has to be
known about it is which lexemes it takes and which it leaves.
-/

namespace Phrasebook.Template

/-- What a template is made of: characters that stand for themselves, single
reference marks `@` and single colon marks `:`. -/
inductive Lexeme
  | char (c : Char)
  | mark
  | colon
deriving DecidableEq, Repr

/-- Lexes from left to right; a doubled mark is taken as one character wherever
it starts. -/
def lex : List Char → List Lexeme
  | [] => []
  | '@' :: '@' :: cs => .char '@' :: lex cs
  | ':' :: ':' :: cs => .char ':' :: lex cs
  | '@' :: cs => .mark :: lex cs
  | ':' :: cs => .colon :: lex cs
  | c :: cs => .char c :: lex cs

theorem lex_mark {cs : List Char} (h : ∀ rest, cs ≠ '@' :: rest) :
    lex ('@' :: cs) = .mark :: lex cs := by
  rw [lex]
  exact h

theorem lex_colon {cs : List Char} (h : ∀ rest, cs ≠ ':' :: rest) :
    lex (':' :: cs) = .colon :: lex cs := by
  rw [lex]
  exact h

theorem lex_char {c : Char} (hmark : c ≠ '@') (hcolon : c ≠ ':') (cs : List Char) :
    lex (c :: cs) = .char c :: lex cs := by
  rw [lex] <;> simp [hmark, hcolon]

/-- The character for which a lexeme stands in text. -/
def Lexeme.shown : Lexeme → Char
  | .char c => c
  | .mark => '@'
  | .colon => ':'

/-- The text for which lexemes stand. -/
def spelled (ls : List Lexeme) : List Char := ls.map Lexeme.shown

@[simp] theorem spelled_nil : spelled [] = [] := rfl

@[simp] theorem spelled_cons (l : Lexeme) (ls : List Lexeme) :
    spelled (l :: ls) = l.shown :: spelled ls := rfl

/-- A reference as it is written: its token, and its default if it has one. -/
structure Written where
  token : List Char
  fallback : Option (List Char)
deriving DecidableEq, Repr

namespace Written

/-- Reads the chunk behind a reference mark. The token ends at the first colon
mark, and the default is all that follows it. -/
def ofChunk (chunk : List Lexeme) : Written where
  token := spelled (chunk.takeWhile (· != .colon))
  fallback :=
    match chunk.dropWhile (· != .colon) with
    | [] => none
    | _ :: rest => some (spelled rest)

/-- The default if there is one, else the token. -/
def lastPart (r : Written) : List Char := r.fallback.getD r.token

/-- Whether the last part ends in a space. -/
def spaced (r : Written) : Bool := r.lastPart.getLast? = some ' '

/-- The reference without one trailing space of its last part. -/
def trimmed (r : Written) : Written :=
  if r.spaced then
    match r.fallback with
    | some text => ⟨r.token, some text.dropLast⟩
    | none => ⟨r.token.dropLast, none⟩
  else r

/-- The entry of the token as it stands in the table, else the default, else the
decorated token. -/
def value (t : LocaleTable) (r : Written) : List Char :=
  match t.get? (String.ofList r.token), r.fallback with
  | some entry, _ => entry.toList
  | none, some text => text
  | none, none => "%$$>".toList ++ r.token ++ "<$$%".toList

/-- The space that was taken off the last part. -/
def separator (r : Written) : List Char := if r.spaced then [' '] else []

/-- The text of a reference; one that neither has a token nor a default is an
`@`. -/
def render (t : LocaleTable) (r : Written) : List Char :=
  (if r.trimmed = ⟨[], none⟩ then ['@'] else r.trimmed.value t) ++ r.separator

end Written

/-- A template taken apart: the text before the first reference, and the
references in order. -/
structure Parsed where
  literal : List Char
  references : List Written
deriving DecidableEq, Repr

namespace Parsed

/-- Reads the chunks between reference marks. -/
def ofChunks : List (List Lexeme) → Parsed
  | [] => ⟨[], []⟩
  | first :: rest => ⟨spelled first, rest.map Written.ofChunk⟩

/-- Splits lexemes at the reference marks. -/
def ofLexemes (ls : List Lexeme) : Parsed := ofChunks (ls.splitOn .mark)

/-- Parses a template. Text without any `@` is not lexed. -/
def ofString (input : String) : Parsed :=
  if '@' ∈ input.toList then ofLexemes (lex input.toList) else ⟨input.toList, []⟩

/-- The text of a parsed template. -/
def render (t : LocaleTable) (p : Parsed) : List Char :=
  p.literal ++ p.references.flatMap (Written.render t)

@[simp] theorem ofLexemes_nil : ofLexemes [] = ⟨[], []⟩ := by
  simp [ofLexemes, ofChunks]

/-- A lexeme before the first reference mark belongs to the literal text. -/
theorem ofLexemes_cons {l : Lexeme} (hl : l ≠ .mark) (ls : List Lexeme) :
    ofLexemes (l :: ls) =
      ⟨l.shown :: (ofLexemes ls).literal, (ofLexemes ls).references⟩ := by
  have hb : (l == Lexeme.mark) = false := beq_eq_false_iff_ne.mpr hl
  obtain ⟨first, rest, hs⟩ := List.exists_cons_of_ne_nil (List.splitOn_ne_nil Lexeme.mark ls)
  simp [ofLexemes, List.splitOn_cons_eq_if_modifyHead, hb, hs, ofChunks]

/-- A reference mark ends the literal text at once; the chunk behind it is the
first reference. -/
theorem ofLexemes_mark (ls : List Lexeme) :
    ofLexemes (.mark :: ls) =
      ⟨[], .ofChunk (ls.takeWhile (· != .mark)) ::
        (ofLexemes (ls.dropWhile (· != .mark))).references⟩ := by
  have hs : ls.splitOn Lexeme.mark = ls.takeWhile (· != .mark) ::
      ((ls.dropWhile (· != .mark)).splitOn .mark).tail := by
    induction ls with
    | nil => simp
    | cons l ls ih =>
        by_cases hl : l = .mark
        · subst hl
          simp [List.splitOn_cons_eq_if_modifyHead]
        · rw [List.splitOn_cons_eq_if_modifyHead, if_neg (by simpa using hl), ih]
          simp [hl]
  have hr : ∀ chunks, (ofChunks chunks).references = chunks.tail.map Written.ofChunk := by
    intro chunks
    cases chunks <;> rfl
  simp only [ofLexemes, hr]
  rw [List.splitOn_cons_eq_if_modifyHead, if_pos (by simp), hs]
  rfl

/-- Nothing stands before a reference mark that comes first. -/
theorem literal_ofLexemes_dropWhile (ls : List Lexeme) :
    (ofLexemes (ls.dropWhile (· != .mark))).literal = [] := by
  cases hd : ls.dropWhile (· != .mark) with
  | nil => rw [ofLexemes_nil]
  | cons l rest =>
      have hne : ls.dropWhile (· != .mark) ≠ [] := by rw [hd]; simp
      have hl := List.head_dropWhile_not (· != Lexeme.mark) hne
      simp only [hd, List.head_cons, bne_eq_false_iff_eq] at hl
      rw [hl, ofLexemes_mark]

end Parsed

/-! ## The scanner -/

/-- Whether a lexeme is a delimiter of the segment that the scanner is in. -/
def Lexeme.ends (stopAtColon : Bool) : Lexeme → Bool
  | .char _ => false
  | .mark => true
  | .colon => stopAtColon

/-- A scan has taken the text of the lexemes up to the first delimiter, and has
left the text from that delimiter on. -/
def Scanned (stopAtColon : Bool) (ls : List Lexeme) (scan : List Char × List Char) : Prop :=
  scan.1 = spelled (ls.takeWhile fun l => !l.ends stopAtColon) ∧
    lex scan.2 = ls.dropWhile fun l => !l.ends stopAtColon

/-- A lexeme that is no delimiter belongs to the segment. -/
theorem Scanned.cons {stopAtColon : Bool} {l : Lexeme} {ls : List Lexeme} {text rest : List Char}
    (h : Scanned stopAtColon ls (text, rest)) (hl : l.ends stopAtColon = false) :
    Scanned stopAtColon (l :: ls) (l.shown :: text, rest) := by
  obtain ⟨htext, hrest⟩ := h
  constructor
  · rw [List.takeWhile_cons_of_pos (by rw [hl]; rfl), spelled_cons, ← htext]
  · rw [List.dropWhile_cons_of_pos (by rw [hl]; rfl), ← hrest]

/-- A delimiter ends the segment before it. -/
theorem scanned_of_ends {stopAtColon : Bool} {l : Lexeme} {ls : List Lexeme} {cs : List Char}
    (hlex : lex cs = l :: ls) (hl : l.ends stopAtColon = true) :
    Scanned stopAtColon (lex cs) ([], cs) := by
  have htake : (l :: ls).takeWhile (fun l => !l.ends stopAtColon) = [] := by simp [hl]
  have hdrop : (l :: ls).dropWhile (fun l => !l.ends stopAtColon) = l :: ls := by simp [hl]
  rw [hlex]
  constructor
  · rw [htake]
    rfl
  · rw [hdrop, hlex]

/-- The scanner takes the lexemes up to the first delimiter, and leaves the text
from that delimiter on. -/
theorem segment_scanned (stopAtColon : Bool) (cs : List Char) :
    Scanned stopAtColon (lex cs) (segment stopAtColon cs) := by
  fun_induction segment stopAtColon cs with
  | case1 => exact ⟨rfl, rfl⟩
  | case2 cs text rest hs ih =>
      rw [hs] at ih
      rw [lex]
      exact ih.cons rfl
  | case3 cs text rest hs ih =>
      rw [hs] at ih
      rw [lex]
      exact ih.cons rfl
  | case4 cs h => exact scanned_of_ends (lex_mark h) rfl
  | case5 cs h hs => exact scanned_of_ends (lex_colon h) hs
  | case6 cs h hs text rest hr ih =>
      rw [hr] at ih
      rw [lex_colon h]
      exact ih.cons (Bool.eq_false_iff.mpr hs)
  | case7 c cs h1 h2 h3 h4 text rest hr ih =>
      rw [hr] at ih
      rw [lex_char h3 h4]
      exact ih.cons rfl

/-- A list without a delimiter is passed over by a search for that delimiter. -/
theorem forall_bne_of_not_mem {x : Lexeme} {a : List Lexeme} (ha : x ∉ a) :
    ∀ l ∈ a, (l != x) = true := by
  intro l hl
  exact bne_iff_ne.mpr fun he => ha (he ▸ hl)

/-- A chunk without colon marks is a token. -/
theorem Written.ofChunk_of_not_mem {a : List Lexeme} (ha : .colon ∉ a) :
    ofChunk a = ⟨spelled a, none⟩ := by
  have hp := forall_bne_of_not_mem ha
  simp only [ofChunk, List.takeWhile_eq_self_iff.mpr hp, List.dropWhile_eq_nil_iff.mpr hp]

/-- The first colon mark of a chunk ends its token. -/
theorem Written.ofChunk_append_colon {a : List Lexeme} (ha : .colon ∉ a) (b : List Lexeme) :
    ofChunk (a ++ .colon :: b) = ⟨spelled a, some (spelled b)⟩ := by
  have hp := forall_bne_of_not_mem ha
  simp [ofChunk, List.takeWhile_append_of_pos hp, List.dropWhile_append_of_pos hp]

/-- Only the empty text has no lexemes. -/
theorem eq_nil_of_lex_eq_nil {cs : List Char} (h : lex cs = []) : cs = [] := by
  revert h
  fun_cases lex cs <;> simp

/-- A delimiter is the single mark that stands for it. -/
theorem eq_cons_of_lex_eq_cons {cs : List Char} {l : Lexeme} {ls : List Lexeme}
    (h : lex cs = l :: ls) (hl : l.ends true = true) :
    ∃ rest, cs = l.shown :: rest ∧ ls = lex rest := by
  revert h
  fun_cases lex cs with
  | case1 => intro h; cases h
  | case2 | case3 | case6 => intro h; cases h; cases hl
  | case4 | case5 => intro h; cases h; exact ⟨_, rfl, rfl⟩

/-- What the scanner leaves is nothing, or starts with the delimiter that stopped
it. -/
theorem lex_segment_cases (stopAtColon : Bool) (cs : List Char) :
    (segment stopAtColon cs).2 = [] ∨
      ∃ l rest, l.ends stopAtColon = true ∧ (segment stopAtColon cs).2 = l.shown :: rest ∧
        lex (segment stopAtColon cs).2 = l :: lex rest := by
  have hrest := (segment_scanned stopAtColon cs).2
  cases hd : lex (segment stopAtColon cs).2 with
  | nil => exact Or.inl (eq_nil_of_lex_eq_nil hd)
  | cons l ls =>
      have hl : l.ends stopAtColon = true := by
        have hne : (lex cs).dropWhile (fun l => !l.ends stopAtColon) ≠ [] := by
          rw [← hrest, hd]; simp
        simpa [← hrest, hd] using
          List.head_dropWhile_not (fun l : Lexeme => !l.ends stopAtColon) hne
      have hl' : l.ends true = true := by
        cases l with
        | char c => cases hl
        | mark => rfl
        | colon => rfl
      obtain ⟨rest, hr, hls⟩ := eq_cons_of_lex_eq_cons hd hl'
      exact Or.inr ⟨l, rest, hl, hr, by rw [hls]⟩

/-- The scanner reads one chunk behind a reference mark, and leaves the text from
the next mark on. -/
theorem Reference.read_eq (cs : List Char) :
    (read cs).1 =
        ofParts (Written.ofChunk ((lex cs).takeWhile (· != .mark))).token
          (Written.ofChunk ((lex cs).takeWhile (· != .mark))).fallback ∧
      lex (read cs).2 = (lex cs).dropWhile (· != .mark) := by
  obtain ⟨htoken, hrest⟩ := segment_scanned true cs
  have hsplit := List.takeWhile_append_dropWhile (p := fun l : Lexeme => !l.ends true) (l := lex cs)
  have hall := List.all_takeWhile (p := fun l : Lexeme => !l.ends true) (l := lex cs)
  rw [← hrest] at hsplit
  generalize (lex cs).takeWhile (fun l => !l.ends true) = a at htoken hsplit hall
  have hmem : ∀ l ∈ a, l.ends true = false := by simpa using hall
  have hcolon : .colon ∉ a := fun h => Bool.noConfusion (hmem _ h)
  have hmark := forall_bne_of_not_mem (x := .mark) fun h => Bool.noConfusion (hmem _ h)
  rw [← hsplit, List.takeWhile_append_of_pos hmark, List.dropWhile_append_of_pos hmark]
  obtain hr | ⟨l, rest, hl, hr, hlex⟩ := lex_segment_cases true cs
  · -- the text ends with the token
    have hread : read cs = (ofParts (segment true cs).1 none, []) := by simp [read, hr]
    rw [hread, hr, htoken]
    simp [lex, Written.ofChunk_of_not_mem hcolon]
  · cases l with
    | char c => cases hl
    | mark =>
        have hread : read cs = (ofParts (segment true cs).1 none, '@' :: rest) := by
          simp [read, hr, Lexeme.shown]
        rw [hlex, hread, htoken]
        rw [hr] at hlex
        simpa [Written.ofChunk_of_not_mem hcolon, Lexeme.shown] using hlex
    | colon =>
        have hread : read cs =
            (ofParts (segment true cs).1 (some (segment false rest).1),
              (segment false rest).2) := by
          simp [read, hr, Lexeme.shown]
        have hends : (fun l : Lexeme => !l.ends false) = (· != .mark) := by
          funext l
          cases l <;> rfl
        obtain ⟨htext, hnext⟩ := segment_scanned false rest
        rw [hends] at htext hnext
        rw [hlex, hread, htoken, htext]
        simpa [Written.ofChunk_append_colon hcolon] using hnext

/-! ## The whole template -/

/-- Looking a reference up yields its entry, its default or its placeholder. -/
theorem toList_resolve (t : LocaleTable) (r : Written) :
    (t.resolve (String.ofList r.token) (r.fallback.map String.ofList)).toList = r.value t := by
  simp only [LocaleTable.resolve, LocaleTable.substitute, placeholder, Written.value]
  cases t.get? (String.ofList r.token) with
  | some entry => rfl
  | none =>
      cases r.fallback with
      | some text => simp
      | none => simp

/-- Dropping a trailing space while reading is trimming the written reference. -/
theorem Reference.render_ofParts (t : LocaleTable) (r : Written) :
    (ofParts r.token r.fallback).render t = r.render t := by
  have hparts : ofParts r.token r.fallback = ⟨r.trimmed.token, r.trimmed.fallback, r.spaced⟩ := by
    obtain ⟨token, _ | text⟩ := r
    · by_cases hs : token.getLast? = some ' ' <;>
        simp [ofParts, dropSpace, Written.trimmed, Written.spaced, Written.lastPart, hs]
    · by_cases hs : text.getLast? = some ' ' <;>
        simp [ofParts, dropSpace, Written.trimmed, Written.spaced, Written.lastPart, hs]
  have hbare : (r.trimmed.token.isEmpty && r.trimmed.fallback.isNone) = true ↔
      r.trimmed = ⟨[], none⟩ := by
    obtain ⟨token, fallback⟩ := r.trimmed
    simp
  rw [hparts]
  simp only [Reference.render, toList_resolve, hbare, Written.render, Written.separator]
  cases r.spaced <;> simp

/-- Expanding text that is read as a template renders its references one by one. -/
theorem expandChars_eq (t : LocaleTable) (cs : List Char) :
    expandChars t cs = (Parsed.ofLexemes (lex cs)).render t := by
  fun_induction expandChars t cs with
  | case1 => simp [lex, Parsed.render]
  | case2 cs ih => simp [lex, ih, Parsed.ofLexemes_cons, Parsed.render, Lexeme.shown]
  | case3 cs ih => simp [lex, ih, Parsed.ofLexemes_cons, Parsed.render, Lexeme.shown]
  | case4 cs h ih =>
      obtain ⟨hread, hrest⟩ := Reference.read_eq cs
      let r := Written.ofChunk ((lex cs).takeWhile (· != .mark))
      calc
        (Reference.read cs).1.render t ++ expandChars t (Reference.read cs).2 =
            r.render t ++ (Parsed.ofLexemes ((lex cs).dropWhile (· != .mark))).render t := by
          rw [ih, hrest, hread, Reference.render_ofParts]
        _ = (Parsed.ofLexemes (.mark :: lex cs)).render t := by
          rw [Parsed.ofLexemes_mark]
          simp only [Parsed.render, Parsed.literal_ofLexemes_dropWhile, List.nil_append,
            List.flatMap_cons, r]
        _ = (Parsed.ofLexemes (lex ('@' :: cs))).render t := by rw [lex_mark h]
  | case5 c cs _ h₂ h₃ ih =>
      obtain ⟨l, hl, hc, hlex⟩ : ∃ l, l ≠ .mark ∧ l.shown = c ∧ lex (c :: cs) = l :: lex cs := by
        by_cases hc : c = ':'
        · subst hc
          exact ⟨.colon, by simp, rfl, lex_colon fun rest => h₂ rest rfl⟩
        · exact ⟨.char c, by simp, rfl, lex_char h₃ hc cs⟩
      rw [ih, hlex, Parsed.ofLexemes_cons hl, ← hc]
      rfl

/-- A template expands to its rendering by the grammar, for every text and every
table. -/
theorem expand_eq_render (t : LocaleTable) (input : String) :
    expand t input = String.ofList ((Parsed.ofString input).render t) := by
  by_cases h : '@' ∈ input.toList
  · have hmem : input.toList.contains '@' = true := by simpa using h
    rw [expand, Parsed.ofString, if_pos hmem, if_pos h, expandChars_eq]
  · have hmem : ¬ input.toList.contains '@' = true := by simpa using h
    rw [expand, Parsed.ofString, if_neg hmem, if_neg h]
    simp [Parsed.render]

/-- In a run of marks the first two are a doubling, and a colon behind the first
one of a chunk is text. -/
example : Parsed.ofString "a@@@k:x:y @" =
    ⟨"a@".toList, [⟨"k".toList, some "x:y ".toList⟩, ⟨[], none⟩]⟩ := by
  decide

end Phrasebook.Template
