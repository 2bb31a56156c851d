import Phrasebook.Json.Value
/-!
# Quoted text

Quotes, backslashes and the characters below U+0020 are escaped, and all else
stands for itself. Reading also accepts the escapes that writing never uses.
-/

namespace Phrasebook.Json.Quoted

/-- The lower-case hexadecimal digit of a number below sixteen. -/
def hexDigit (n : Nat) : Char := Nat.digitChar n

/-- The written form of one character. -/
def escapeChar (c : Char) : List Char :=
  if c = '"' then ['\\', '"']
  else if c = '\\' then ['\\', '\\']
  else if c = '\x08' then ['\\', 'b']
  else if c = '\x0c' then ['\\', 'f']
  else if c = '\n' then ['\\', 'n']
  else if c = '\r' then ['\\', 'r']
  else if c = '\t' then ['\\', 't']
  else if c.toNat < 0x20 then
    ['\\', 'u', '0', '0', hexDigit (c.toNat / 16), hexDigit (c.toNat % 16)]
  else [c]

/-- The written form of a text, without its quotes. -/
def escape (cs : List Char) : List Char := cs.flatMap escapeChar

/-- The written form of a text. -/
def write (s : String) : String :=
  String.ofList ('"' :: (escape s.toList ++ ['"']))

/-- The value of a hexadecimal digit of either case. -/
def hexValue? (c : Char) : Option Nat :=
  if c.isDigit then some (c.toNat - '0'.toNat)
  else if 'a' ≤ c ∧ c ≤ 'f' then some (c.toNat - 'a'.toNat + 10)
  else if 'A' ≤ c ∧ c ≤ 'F' then some (c.toNat - 'A'.toNat + 10)
  else none

/-- The number that four hexadecimal digits write; a text of fewer than four
bytes ends too soon. -/
def hexFour (cs : List Char) : Except Fault Nat :=
  let short := (cs.take 4).foldl (fun n c => n + c.utf8Size) 0 < 4
  match cs with
  | a :: b :: c :: d :: _ =>
    match hexValue? a, hexValue? b, hexValue? c, hexValue? d with
    | some a, some b, some c, some d => .ok (((a * 16 + b) * 16 + c) * 16 + d)
    | _, _, _, _ => .error .malformed
  | _ => .error (if short then .truncated else .malformed)

/-- Whether a code unit opens a surrogate pair. -/
def isHighSurrogate (n : Nat) : Bool := 0xD800 ≤ n && n ≤ 0xDBFF

/-- Whether a code unit closes a surrogate pair. -/
def isLowSurrogate (n : Nat) : Bool := 0xDC00 ≤ n && n ≤ 0xDFFF

/-- Reads the second half of a surrogate pair, behind the digits of its first
half `high`. -/
def lowHalf (high : Nat) (cs : List Char) : Except Fault Char :=
  match cs with
  | [] => .error .truncated
  | ['\\'] => .error .truncated
  | '\\' :: 'u' :: cs => do
    let low ← hexFour cs
    if isLowSurrogate low then
      return Char.ofNat (0x10000 + (high - 0xD800) * 0x400 + (low - 0xDC00))
    else .error .malformed
  | _ => .error .malformed

/-- Reads what follows a backslash: the character, and how many characters
write it. -/
def unescape (cs : List Char) : Except Fault (Char × Nat) :=
  match cs with
  | [] => .error .truncated
  | 'u' :: cs => do
    let unit ← hexFour cs
    if isLowSurrogate unit then .error .malformed
    else if isHighSurrogate unit then return (← lowHalf unit (cs.drop 4), 11)
    else return (Char.ofNat unit, 5)
  | '"' :: _ => .ok ('"', 1)
  | '\\' :: _ => .ok ('\\', 1)
  | '/' :: _ => .ok ('/', 1)
  | 'b' :: _ => .ok ('\x08', 1)
  | 'f' :: _ => .ok ('\x0c', 1)
  | 'n' :: _ => .ok ('\n', 1)
  | 'r' :: _ => .ok ('\r', 1)
  | 't' :: _ => .ok ('\t', 1)
  | _ => .error .malformed

/-- Reads a text behind its opening quote, and returns what follows the closing
one. -/
def read (cs : List Char) : Except Fault (List Char × List Char) :=
  match cs with
  | [] => .error .truncated
  | c :: cs =>
    if c = '"' then .ok ([], cs)
    else if c = '\\' then
      match unescape cs with
      | .error fault => .error fault
      | .ok (c, n) => (read (cs.drop n)).map fun (text, rest) => (c :: text, rest)
    else if c.toNat < 0x20 then .error .malformed
    else (read cs).map fun (text, rest) => (c :: text, rest)
termination_by cs.length
decreasing_by all_goals (simp only [List.length_cons, List.length_drop]; omega)

theorem length_of_read {cs text rest : List Char} (h : read cs = .ok (text, rest)) :
    rest.length < cs.length := by
  fun_induction read cs generalizing text with
  | case1 => simp at h
  | case2 cs => simp only [Except.ok.injEq, Prod.mk.injEq] at h; simp [← h.2]
  | case3 => simp at h
  | case4 cs hq c n hu ih =>
    obtain ⟨p, hp, he⟩ := exists_of_map_eq_ok h
    simp only [Prod.mk.injEq] at he
    have := @ih p.1 (by rw [hp, ← he.2])
    simp only [List.length_drop] at this
    simp only [List.length_cons]
    omega
  | case5 => simp at h
  | case6 c cs hq hb hc ih =>
    obtain ⟨p, hp, he⟩ := exists_of_map_eq_ok h
    simp only [Prod.mk.injEq] at he
    have := @ih p.1 (by rw [hp, ← he.2])
    simp only [List.length_cons]
    omega

end Phrasebook.Json.Quoted
