import Phrasebook.Proofs.Template.Grammar
import Mathlib.Data.List.Basic
/-!
# Writing templates

Text becomes a template by doubling its marks. A single mark between doubled
texts is still read as a delimiter: doublings are taken from the left, so a run
of marks is split wrongly only where a delimiter is followed by its own doubling.
-/

namespace Phrasebook.Template

/-- Text with every mark doubled. -/
def doubled (cs : List Char) : List Char :=
  cs.flatMap fun c => if c = '@' ∨ c = ':' then [c, c] else [c]

/-- A reference as a template has it: `@token`, or `@token:default`. -/
def Written.encode (r : Written) : List Char :=
  '@' :: doubled r.token ++
    match r.fallback with
    | none => []
    | some text => ':' :: doubled text

/-- A template by its literal text and its references. -/
def Parsed.encode (p : Parsed) : List Char :=
  doubled p.literal ++ p.references.flatMap Written.encode

/-- A reference that can be written: no part starts with the mark that it stands
behind, and without a default there is more than a separator. -/
structure Written.Encodable (r : Written) : Prop where
  token_ne : r.token.head? ≠ some '@'
  fallback_ne : ∀ text, r.fallback = some text → text.head? ≠ some ':'
  named : r.fallback = none → r.token ≠ [] ∧ r.token ≠ [' ']

/-- The lexemes behind the mark of a written reference. -/
def Written.chunk (r : Written) : List Lexeme :=
  r.token.map .char ++
    match r.fallback with
    | none => []
    | some text => .colon :: text.map .char

/-- The lexemes of written references. -/
def Written.lexemes (refs : List Written) : List Lexeme :=
  refs.flatMap fun r => .mark :: r.chunk

@[simp] theorem doubled_nil : doubled [] = [] := rfl

theorem doubled_cons (c : Char) (cs : List Char) :
    doubled (c :: cs) = (if c = '@' ∨ c = ':' then [c, c] else [c]) ++ doubled cs :=
  List.flatMap_cons

/-- Doubled text lexes to its own characters, whatever follows it. -/
theorem lex_doubled_append (cs rest : List Char) :
    lex (doubled cs ++ rest) = cs.map .char ++ lex rest := by
  induction cs with
  | nil => rfl
  | cons c cs ih =>
      rw [doubled_cons, List.append_assoc]
      by_cases hmark : c = '@'
      · subst hmark
        simp [lex, ih]
      · by_cases hcolon : c = ':'
        · subst hcolon
          simp [lex, ih]
        · simp [hmark, hcolon, lex_char, ih]

/-- Doubled text starts with no other mark than the text itself. -/
theorem doubled_append_ne_cons {x : Char} {cs : List Char} (hcs : cs.head? ≠ some x)
    (rest : List Char) (hrest : cs = [] → ∀ more, rest ≠ x :: more) :
    ∀ more, doubled cs ++ rest ≠ x :: more := by
  cases cs with
  | nil => simpa using hrest rfl
  | cons c cs =>
      intro more h
      apply hcs
      rw [doubled_cons] at h
      by_cases hc : c = '@' ∨ c = ':'
      · simp only [if_pos hc] at h
        exact congrArg some (List.cons.inj h).1
      · simp only [if_neg hc] at h
        exact congrArg some (List.cons.inj h).1

/-- A list of references starts with no colon. -/
theorem flatMap_encode_ne_cons (refs : List Written) (rest : List Char) :
    refs.flatMap Written.encode ≠ ':' :: rest := by
  cases refs with
  | nil => simp
  | cons r refs => simp [Written.encode]

/-- The marks between written references are read as they were meant. -/
theorem lex_flatMap_encode {refs : List Written} (h : ∀ r ∈ refs, r.Encodable) :
    lex (refs.flatMap Written.encode) = Written.lexemes refs := by
  induction refs with
  | nil => rfl
  | cons r refs ih =>
      have hr := h r (by simp)
      have ih := ih fun r hr => h r (by simp [hr])
      obtain ⟨token, _ | text⟩ := r
      · -- without a default the token itself separates the two marks
        have hmark := doubled_append_ne_cons hr.token_ne (refs.flatMap Written.encode)
          fun he => absurd he (hr.named rfl).1
        simp only [List.flatMap_cons, Written.encode, List.append_nil, List.cons_append]
        rw [lex_mark hmark, lex_doubled_append, ih]
        simp [Written.lexemes, Written.chunk]
      · have hmark := doubled_append_ne_cons hr.token_ne
          (':' :: (doubled text ++ refs.flatMap Written.encode)) fun _ => by simp
        have hcolon := doubled_append_ne_cons (hr.fallback_ne text rfl)
          (refs.flatMap Written.encode) fun _ => flatMap_encode_ne_cons refs
        simp only [List.flatMap_cons, Written.encode, List.cons_append, List.append_assoc]
        rw [lex_mark hmark, lex_doubled_append, lex_colon hcolon, lex_doubled_append, ih]
        simp [Written.lexemes, Written.chunk]

theorem spelled_map_char (cs : List Char) : spelled (cs.map .char) = cs := by
  induction cs with
  | nil => rfl
  | cons c cs ih => simp [ih, Lexeme.shown]

/-- A chunk is read as the reference that it was written for. -/
theorem Written.ofChunk_chunk (r : Written) : ofChunk r.chunk = r := by
  obtain ⟨token, _ | text⟩ := r
  · simp [chunk, ofChunk_of_not_mem, spelled_map_char]
  · simp [chunk, ofChunk_append_colon, spelled_map_char]

/-- The chunk of a written reference ends at the next mark. -/
theorem Written.mark_not_mem_chunk (r : Written) : .mark ∉ r.chunk := by
  obtain ⟨token, _ | text⟩ := r <;> simp [chunk]

namespace Parsed

theorem ofLexemes_map_char_append (cs : List Char) (ls : List Lexeme) :
    ofLexemes (cs.map .char ++ ls) =
      ⟨cs ++ (ofLexemes ls).literal, (ofLexemes ls).references⟩ := by
  induction cs with
  | nil => rfl
  | cons c cs ih =>
      rw [List.map_cons, List.cons_append, ofLexemes_cons (by simp), ih]
      rfl

/-- Written references are parsed one by one. -/
theorem ofLexemes_lexemes (refs : List Written) :
    ofLexemes (Written.lexemes refs) = ⟨[], refs⟩ := by
  induction refs with
  | nil => simp [Written.lexemes]
  | cons r refs ih =>
      have hchunk := forall_bne_of_not_mem r.mark_not_mem_chunk
      have hstop : (Written.lexemes refs).takeWhile (· != .mark) = [] ∧
          (Written.lexemes refs).dropWhile (· != .mark) = Written.lexemes refs := by
        cases refs <;> simp [Written.lexemes]
      have hlex : Written.lexemes (r :: refs) = .mark :: (r.chunk ++ Written.lexemes refs) := rfl
      have htake : (r.chunk ++ Written.lexemes refs).takeWhile (· != .mark) = r.chunk := by
        rw [List.takeWhile_append_of_pos hchunk, hstop.1, List.append_nil]
      have hdrop : (r.chunk ++ Written.lexemes refs).dropWhile (· != .mark) =
          Written.lexemes refs := by
        rw [List.dropWhile_append_of_pos hchunk, hstop.2]
      calc
        ofLexemes (Written.lexemes (r :: refs)) =
            ⟨[], .ofChunk r.chunk :: (ofLexemes (Written.lexemes refs)).references⟩ := by
          rw [hlex, ofLexemes_mark, htake, hdrop]
        _ = ⟨[], r :: refs⟩ := by rw [Written.ofChunk_chunk, ih]

/-- Parsing undoes writing. -/
theorem ofLexemes_lex_encode {p : Parsed} (h : ∀ r ∈ p.references, r.Encodable) :
    ofLexemes (lex p.encode) = p := by
  calc
    ofLexemes (lex p.encode) =
        ofLexemes (p.literal.map .char ++ Written.lexemes p.references) := by
      rw [encode, lex_doubled_append, lex_flatMap_encode h]
    _ = p := by rw [ofLexemes_map_char_append, ofLexemes_lexemes, List.append_nil]

end Parsed

theorem mem_doubled {c : Char} {cs : List Char} : c ∈ doubled cs ↔ c ∈ cs := by
  simp only [doubled, List.mem_flatMap]
  constructor
  · rintro ⟨d, hd, hc⟩
    have hcd : c = d := by
      split at hc <;> simpa using hc
    exact hcd ▸ hd
  · intro hc
    exact ⟨c, hc, by split <;> simp⟩

/-- A written template is read as one as soon as it has a reference or an `@`. -/
theorem Parsed.mark_mem_encode {p : Parsed} (h : p.references ≠ [] ∨ '@' ∈ p.literal) :
    '@' ∈ p.encode := by
  rw [encode, List.mem_append]
  rcases h with h | h
  · obtain ⟨r, refs, hr⟩ := List.exists_cons_of_ne_nil h
    exact Or.inr (by simp [hr, Written.encode])
  · exact Or.inl (mem_doubled.mpr h)

/-- A reference that can be written is never taken for a bare `@`. -/
theorem Written.Encodable.trimmed_ne {r : Written} (h : r.Encodable) :
    r.trimmed ≠ ⟨[], none⟩ := by
  obtain ⟨token, _ | text⟩ := r
  · obtain ⟨hne, hspace⟩ := h.named rfl
    by_cases hs : token.getLast? = some ' '
    · intro ht
      have hdrop : token.dropLast = [] := by
        simpa [trimmed, spaced, lastPart, hs] using ht
      obtain ⟨start, rfl⟩ := List.getLast?_eq_some_iff.mp hs
      simp_all
    · simpa [trimmed, spaced, lastPart, hs] using hne
  · simp only [trimmed]
    split <;> simp

/-- Expanding a written template yields its literal text and then, in order, the
value of each reference, with the trailing space of its last part put back. In
particular, doubling the marks of a text with an `@` only writes it. -/
theorem expand_encode (t : LocaleTable) :
    (∀ p : Parsed, (p.references ≠ [] ∨ '@' ∈ p.literal) →
      (∀ r ∈ p.references, r.Encodable) →
      expand t (String.ofList p.encode) =
        String.ofList (p.literal ++
          p.references.flatMap fun r => r.trimmed.value t ++ r.separator)) ∧
    ∀ s : String, '@' ∈ s.toList → expand t (String.ofList (doubled s.toList)) = s := by
  have hexpand : ∀ p : Parsed, (p.references ≠ [] ∨ '@' ∈ p.literal) →
      (∀ r ∈ p.references, r.Encodable) →
      expand t (String.ofList p.encode) = String.ofList (p.render t) := by
    intro p hp hr
    have hmem : p.encode.contains '@' = true := by
      simpa using Parsed.mark_mem_encode hp
    rw [expand, String.toList_ofList, if_pos hmem, expandChars_eq, Parsed.ofLexemes_lex_encode hr]
  constructor
  · intro p hp hr
    rw [hexpand p hp hr, Parsed.render]
    have hrender : ∀ r ∈ p.references, r.render t = r.trimmed.value t ++ r.separator := by
      intro r hmem
      rw [Written.render, if_neg (hr r hmem).trimmed_ne]
    rw [List.flatMap_congr hrender]
  · intro s hs
    have h := hexpand ⟨s.toList, []⟩ (Or.inr hs) (by simp)
    simpa [Parsed.encode, Parsed.render] using h

/-- Marks that touch delimiters on every boundary: a literal text that ends in an
`@`, a token that ends in a colon, a default that is all mark and space, an empty
token, and a token that starts with a colon and has no default. -/
theorem expand_encode_boundaries :
    let t : LocaleTable := ⟨"en", ⟨"en", none⟩, StringTable.empty.set "k:" "K"⟩
    let p : Parsed := ⟨"a:@".toList, [⟨"k:".toList, some "@ ".toList⟩,
      ⟨[], some "d:".toList⟩, ⟨": ".toList, none⟩]⟩
    (p.references ≠ [] ∨ '@' ∈ p.literal) ∧ (∀ r ∈ p.references, r.Encodable) ∧
      '@' ∈ "a:@".toList ∧ String.ofList p.encode = "a::@@@k:::@@ @:d::@:: " ∧
      expand t (String.ofList p.encode) = "a:@K d:%$$>:<$$% " ∧
      expand t (String.ofList (doubled "a:@".toList)) = "a:@" := by
  intro t p
  have hp : p.references ≠ [] ∨ '@' ∈ p.literal := Or.inl (by decide)
  have hr : ∀ r ∈ p.references, r.Encodable := by
    intro r hr
    simp only [p, List.mem_cons, List.not_mem_nil, or_false] at hr
    rcases hr with rfl | rfl | rfl
    · exact ⟨by decide, by simp, by simp⟩
    · exact ⟨by decide, by simp, by simp⟩
    · exact ⟨by decide, by simp, by decide⟩
  have hs : '@' ∈ "a:@".toList := by decide
  refine ⟨hp, hr, hs, by decide, ?_, (expand_encode t).2 "a:@" hs⟩
  rw [(expand_encode t).1 p hp hr]
  decide

end Phrasebook.Template
