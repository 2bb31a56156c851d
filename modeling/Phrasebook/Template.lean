import Phrasebook.LocaleTable
/-!
# Templates

A template is text with references `@token` and `@token:default`. A doubled
mark, `@@` or `::`, stands for the mark itself. A token ends at the next single
mark, a default at the next single `@`; one trailing space of a reference's last
part is kept behind its value.
-/

namespace Phrasebook.Template

/-- Reads up to the next single `@`, or to the next single `:` as well where
`stopAtColon` is set: the text without its doublings, and what follows. -/
def segment (stopAtColon : Bool) : List Char → List Char × List Char
  | [] => ([], [])
  | '@' :: '@' :: cs => let (text, rest) := segment stopAtColon cs; ('@' :: text, rest)
  | ':' :: ':' :: cs => let (text, rest) := segment stopAtColon cs; (':' :: text, rest)
  | '@' :: cs => ([], '@' :: cs)
  | ':' :: cs =>
    if stopAtColon then ([], ':' :: cs)
    else let (text, rest) := segment stopAtColon cs; (':' :: text, rest)
  | c :: cs => let (text, rest) := segment stopAtColon cs; (c :: text, rest)

theorem length_segment (stopAtColon : Bool) (cs : List Char) :
    (segment stopAtColon cs).2.length ≤ cs.length := by
  fun_induction segment stopAtColon cs <;> simp_all <;> omega

/-- A reference as it is written behind its `@`. -/
structure Reference where
  /-- The identifier to look up. -/
  token : List Char
  /-- The text that stands in for a missing entry. -/
  fallback : Option (List Char)
  /-- Whether a space follows the value. -/
  spaced : Bool
deriving DecidableEq, Repr

/-- Drops one trailing space, and tells whether there was one. -/
def dropSpace (cs : List Char) : List Char × Bool :=
  if cs.getLast? = some ' ' then (cs.dropLast, true) else (cs, false)

namespace Reference

/-- A reference from its parts; a trailing space of the last part becomes the
separator. -/
def ofParts (token : List Char) (fallback : Option (List Char)) : Reference :=
  match fallback with
  | some text => ⟨token, some (dropSpace text).1, (dropSpace text).2⟩
  | none => ⟨(dropSpace token).1, none, (dropSpace token).2⟩

/-- Reads the reference behind an `@`, and returns what follows it. -/
def read (cs : List Char) : Reference × List Char :=
  let (token, rest) := segment true cs
  match rest with
  | ':' :: rest =>
    let (text, rest) := segment false rest
    (ofParts token (some text), rest)
  | _ => (ofParts token none, rest)

theorem length_read (cs : List Char) : (read cs).2.length ≤ cs.length := by
  have h := length_segment true cs
  unfold read
  simp only
  split
  · rename_i rest hr
    have h' := length_segment false rest
    simp only [hr, List.length_cons] at h ⊢
    omega
  · exact h

/-- The text of a reference: an `@` that refers to nothing stands for itself. -/
def render (t : LocaleTable) (r : Reference) : List Char :=
  let value :=
    if r.token.isEmpty && r.fallback.isNone then ['@']
    else (t.resolve (String.ofList r.token) (r.fallback.map String.ofList)).toList
  if r.spaced then value ++ [' '] else value

end Reference

/-- Expands a template from left to right. -/
def expandChars (t : LocaleTable) : List Char → List Char
  | [] => []
  | '@' :: '@' :: cs => '@' :: expandChars t cs
  | ':' :: ':' :: cs => ':' :: expandChars t cs
  | '@' :: cs => (Reference.read cs).1.render t ++ expandChars t (Reference.read cs).2
  | c :: cs => c :: expandChars t cs
termination_by cs => cs.length
decreasing_by
  · simp only [List.length_cons]; omega
  · simp only [List.length_cons]; omega
  · exact Nat.lt_succ_of_le (Reference.length_read cs)
  · simp only [List.length_cons]; omega

/-- Expands the references of a template. Text without any `@` stays as it is,
doubled colons included. -/
def expand (t : LocaleTable) (input : String) : String :=
  if input.toList.contains '@' then String.ofList (expandChars t input.toList) else input

end Phrasebook.Template
