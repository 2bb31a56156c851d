import Phrasebook.Json.Quoted
/-!
# TOML strings

Basic strings have escapes, literal strings have none; either may span lines
between triple quotes. A line break directly behind the opening triple is
dropped, and every line break reads as a line feed.
-/

namespace Phrasebook.Toml.Quoted

/-- Whether a character may stand in a string as it is: a tab, or anything that
is no control character. -/
def isPlain (c : Char) : Bool := c == '\t' || (0x20 ≤ c.toNat && c.toNat ≠ 0x7F)

/-- The number written by `k` hexadecimal digits. -/
def hexadecimal? : Nat → List Char → Option Nat
  | 0, _ => some 0
  | _ + 1, [] => none
  | k + 1, c :: cs => do
    let d ← Json.Quoted.hexValue? c
    let n ← hexadecimal? k cs
    return d * Nat.pow 16 k + n

/-- The character with a code point, if there is one. -/
def scalar? (n : Nat) : Option Char :=
  if n < 0xD800 ∨ (0xDFFF < n ∧ n < 0x110000) then some (Char.ofNat n) else none

/-- Reads what follows a backslash: the character, and how many characters
write it. -/
def unescape? : List Char → Option (Char × Nat)
  | 'b' :: _ => some ('\x08', 1)
  | 't' :: _ => some ('\t', 1)
  | 'n' :: _ => some ('\n', 1)
  | 'f' :: _ => some ('\x0c', 1)
  | 'r' :: _ => some ('\r', 1)
  | '"' :: _ => some ('"', 1)
  | '\\' :: _ => some ('\\', 1)
  | 'u' :: cs => do return (← scalar? (← hexadecimal? 4 cs), 5)
  | 'U' :: cs => do return (← scalar? (← hexadecimal? 8 cs), 9)
  | _ => none

/-- Puts a character before a text that was read. -/
def push (c : Char) (r : Option (List Char × List Char)) : Option (List Char × List Char) :=
  r.map fun (text, rest) => (c :: text, rest)

/-- Reads a basic string behind its quote. -/
def basic? (cs : List Char) : Option (List Char × List Char) :=
  match cs with
  | [] => none
  | c :: cs =>
    if c = '"' then some ([], cs)
    else if c = '\\' then
      match unescape? cs with
      | some (c, n) => push c (basic? (cs.drop n))
      | none => none
    else if isPlain c then push c (basic? cs)
    else none
termination_by cs.length
decreasing_by all_goals (simp only [List.length_cons, List.length_drop]; omega)

/-- Reads a literal string behind its quote. -/
def literal? : List Char → Option (List Char × List Char)
  | [] => none
  | c :: cs =>
    if c = '\'' then some ([], cs)
    else if isPlain c then push c (literal? cs)
    else none

/-- Whether a character is blank within a line. -/
def isSpace (c : Char) : Bool := c == ' ' || c == '\t'

/-- Drops blanks and line breaks; a carriage return stands only before a line
feed. -/
def dropBreaks : List Char → List Char
  | '\r' :: '\n' :: cs => dropBreaks cs
  | c :: cs => if isSpace c || c == '\n' then dropBreaks cs else c :: cs
  | [] => []

theorem length_dropBreaks (cs : List Char) : (dropBreaks cs).length ≤ cs.length := by
  fun_induction dropBreaks cs <;> simp_all <;> omega

/-- Whether a line ends here, after blanks. -/
def endsLine (cs : List Char) : Bool :=
  match cs.dropWhile isSpace with
  | '\n' :: _ => true
  | '\r' :: '\n' :: _ => true
  | _ => false

/-- Reads a string over several lines behind its triple of `quote`; backslashes
escape where `escapes` is set. Up to two quotes may stand before the closing
triple. -/
def multiline? (quote : Char) (escapes : Bool) (cs : List Char) :
    Option (List Char × List Char) :=
  match cs with
  | [] => none
  | c :: cs =>
    if c = quote then
      match cs with
      | a :: b :: rest =>
        if a = quote ∧ b = quote then
          let extra := (rest.takeWhile (· == quote)).take 2
          some (extra, rest.drop extra.length)
        else push c (multiline? quote escapes (a :: b :: rest))
      | _ => none
    else if escapes ∧ c = '\\' then
      if endsLine cs then multiline? quote escapes (dropBreaks cs)
      else
        match unescape? cs with
        | some (c, n) => push c (multiline? quote escapes (cs.drop n))
        | none => none
    else if c = '\r' then
      match cs with
      | '\n' :: rest => push '\n' (multiline? quote escapes rest)
      | _ => none
    else if c = '\n' ∨ isPlain c then push c (multiline? quote escapes cs)
    else none
termination_by cs.length
decreasing_by
  · simp only [List.length_cons]; omega
  · exact Nat.lt_succ_of_le (length_dropBreaks cs)
  · simp only [List.length_cons, List.length_drop]; omega
  · simp only [List.length_cons]; omega
  · simp only [List.length_cons]; omega

/-- Drops a line break behind the opening triple. -/
def dropFirstBreak : List Char → List Char
  | '\n' :: cs => cs
  | '\r' :: '\n' :: cs => cs
  | cs => cs

/-- Reads a string on one line, as a key may be, from its opening quote on. -/
def singleLine? : List Char → Option (List Char × List Char)
  | '"' :: cs => basic? cs
  | '\'' :: cs => literal? cs
  | _ => none

/-- Reads a string of any kind, from its opening quote on. -/
def read? : List Char → Option (List Char × List Char)
  | '"' :: '"' :: '"' :: cs => multiline? '"' true (dropFirstBreak cs)
  | '\'' :: '\'' :: '\'' :: cs => multiline? '\'' false (dropFirstBreak cs)
  | cs => singleLine? cs

end Phrasebook.Toml.Quoted
