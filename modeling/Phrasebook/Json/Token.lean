import Phrasebook.Json.Numeral
import Phrasebook.Json.Quoted
/-!
# JSON tokens

A text is cut into tokens up to the first lexeme that is none. That lexeme ends
the list as a `broken` token, so a reader meets it only where it stands, and an
earlier fault of the document is found first.
-/

namespace Phrasebook.Json

/-- The lexemes of JSON. -/
inductive Token
  | beginObject
  | endObject
  | beginArray
  | endArray
  | colon
  | comma
  | null
  | bool (value : Bool)
  | number (value : Number)
  | text (value : String)
  /-- A lexeme that fails; `quoted` tells whether it began as a text. -/
  | broken (quoted : Bool) (fault : Fault)
deriving Repr

namespace Token

/-- The white space between tokens. -/
def isSpace (c : Char) : Bool := c == ' ' || c == '\n' || c == '\t' || c == '\r'

/-- Reads the rest of a literal name. -/
def readWord (expected : List Char) (cs : List Char) : Except Fault (List Char) :=
  match expected with
  | [] => .ok cs
  | e :: expected =>
    match cs with
    | [] => .error .truncated
    | c :: cs => if c = e then readWord expected cs else .error .malformed

theorem length_of_readWord {expected cs rest : List Char}
    (h : readWord expected cs = .ok rest) : rest.length ≤ cs.length := by
  induction expected generalizing cs with
  | nil => simp only [readWord, Except.ok.injEq] at h; simp [h]
  | cons e expected ih =>
    cases cs with
    | nil => simp [readWord] at h
    | cons c cs =>
      by_cases hc : c = e
      · simp only [readWord, hc, if_true] at h
        exact Nat.le_succ_of_le (ih h)
      · simp [readWord, hc] at h

/-- The token of a character that is one by itself. -/
def ofMark? (c : Char) : Option Token :=
  match c with
  | '\x7b' => some .beginObject
  | '\x7d' => some .endObject
  | '[' => some .beginArray
  | ']' => some .endArray
  | ':' => some .colon
  | ',' => some .comma
  | _ => none

/-- Reads the token that starts with `c`, which is neither white space nor a
quote. -/
def readPlain (c : Char) (cs : List Char) : Except Fault (Token × List Char) :=
  match ofMark? c with
  | some token => .ok (token, cs)
  | none =>
    match c with
    | 'n' => (readWord ['u', 'l', 'l'] cs).map fun rest => (.null, rest)
    | 't' => (readWord ['r', 'u', 'e'] cs).map fun rest => (.bool true, rest)
    | 'f' => (readWord ['a', 'l', 's', 'e'] cs).map fun rest => (.bool false, rest)
    | _ =>
      if c = '-' || c.isDigit then
        match Numeral.read (c :: cs) with
        | .error fault => .error fault
        | .ok (numeral, rest) =>
          match numeral.number? with
          | some n => .ok (.number n, rest)
          | none => .error .malformed
      else .error .malformed

theorem length_of_readPlain {c : Char} {cs rest : List Char} {token : Token}
    (h : readPlain c cs = .ok (token, rest)) : rest.length ≤ cs.length := by
  have word : ∀ {expected : List Char} {t : Token},
      (readWord expected cs).map (fun rest => (t, rest)) = .ok (token, rest) →
        rest.length ≤ cs.length := by
    intro expected t h
    obtain ⟨r, hr, he⟩ := exists_of_map_eq_ok h
    simp only [Prod.mk.injEq] at he
    exact he.2 ▸ length_of_readWord hr
  unfold readPlain at h
  split at h
  · simp only [Except.ok.injEq, Prod.mk.injEq] at h; simp [h.2]
  · split at h
    · exact word h
    · exact word h
    · exact word h
    · split at h
      · split at h
        · simp at h
        · rename_i numeral r hr
          split at h
          · simp only [Except.ok.injEq, Prod.mk.injEq] at h
            have := Numeral.length_of_read hr
            simp only [List.length_cons] at this
            rw [← h.2]; omega
          · simp at h
      · simp at h

/-- The tokens of a text. -/
def scan (cs : List Char) : List Token :=
  match cs with
  | [] => []
  | c :: cs =>
    if isSpace c then scan cs
    else if c = '"' then
      match h : Quoted.read cs with
      | .error fault => [.broken true fault]
      | .ok (chars, rest) =>
        have := Quoted.length_of_read h
        .text (String.ofList chars) :: scan rest
    else
      match h : readPlain c cs with
      | .error fault => [.broken false fault]
      | .ok (token, rest) =>
        have := length_of_readPlain h
        token :: scan rest
termination_by cs.length

/-- The tokens of a text. -/
def ofText (s : String) : List Token := scan s.toList

end Token

end Phrasebook.Json
