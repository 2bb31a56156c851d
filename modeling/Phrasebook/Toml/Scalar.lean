import Phrasebook.Decimal.Binary64
import Phrasebook.Toml.Quoted
import Phrasebook.Toml.Value
/-!
# TOML numbers, dates and truth values

A bare value runs over letters, digits and a few marks; what follows such a run
is never part of it, so the run is judged as a whole.
-/

namespace Phrasebook.Toml.Scalar

/-- Whether a character may stand in a bare value. -/
def isBare (c : Char) : Bool :=
  c.isAlphanum || c == '+' || c == '-' || c == '_' || c == '.' || c == ':'

/-- Digits of a class with single underscores between them: the digits. -/
def grouped? (isDigit : Char → Bool) : List Char → Option (List Char)
  | [] => none
  | [c] => if isDigit c then some [c] else none
  | c :: '_' :: cs => if isDigit c then (grouped? isDigit cs).map (c :: ·) else none
  | c :: cs => if isDigit c then (grouped? isDigit cs).map (c :: ·) else none

/-- The number that digits write in a base. -/
def natOf (base : Nat) (digits : List Char) : Nat :=
  digits.foldl (fun n c => base * n + (Json.Quoted.hexValue? c).getD 0) 0

/-- Splits off a sign. -/
def sign (cs : List Char) : Bool × List Char :=
  match cs with
  | '-' :: cs => (true, cs)
  | '+' :: cs => (false, cs)
  | _ => (false, cs)

/-- The digits of a decimal integer without sign: `0`, or no leading zero. -/
def decimal? (cs : List Char) : Option (List Char) :=
  match cs with
  | ['0'] => some cs
  | '0' :: _ => none
  | _ => grouped? Char.isDigit cs

/-- An integer of 64 bits with a sign. -/
def bounded? (n : Int) : Option Int :=
  if Int64.minValue.toInt ≤ n ∧ n ≤ Int64.maxValue.toInt then some n else none

/-- Whether a character is an octal digit. -/
def isOctal (c : Char) : Bool := '0' ≤ c && c ≤ '7'

/-- Whether a character is a binary digit. -/
def isBinary (c : Char) : Bool := c == '0' || c == '1'

/-- Whether a character is a hexadecimal digit. -/
def isHexadecimal (c : Char) : Bool := (Json.Quoted.hexValue? c).isSome

/-- An integer: decimal with an optional sign, or by a prefix of its base. -/
def integer? (cs : List Char) : Option Int :=
  match cs with
  | '0' :: 'x' :: cs => do bounded? (natOf 16 (← grouped? isHexadecimal cs))
  | '0' :: 'o' :: cs => do bounded? (natOf 8 (← grouped? isOctal cs))
  | '0' :: 'b' :: cs => do bounded? (natOf 2 (← grouped? isBinary cs))
  | _ => do
    let (negative, cs) := sign cs
    let n := natOf 10 (← decimal? cs)
    bounded? (if negative then -(n : Int) else n)

/-- Whether a decimal rounds to infinity. -/
def overflows (digits : List Char) (scale : Int) : Bool :=
  let digits := digits.dropWhile (· == '0')
  let size := digits.length + scale
  if digits.isEmpty || size < 300 then false
  else if 320 < size then true
  else (Binary64.ofRatio? (natOf 10 digits * Nat.pow 10 scale.toNat)
    (Nat.pow 10 (-scale).toNat)).isNone

/-- Cuts at the first character of a class. -/
def cutAt (p : Char → Bool) (cs : List Char) : List Char × Option (List Char) :=
  match cs.dropWhile fun c => !p c with
  | [] => (cs, none)
  | _ :: rest => (cs.takeWhile fun c => !p c, some rest)

/-- Whether a run of characters is a float: with a fraction, an exponent or
both, and not too large; or an infinity, or not a number. -/
def isReal (cs : List Char) : Bool :=
  let (negative, unsigned) := sign cs
  if unsigned == ['i', 'n', 'f'] || unsigned == ['n', 'a', 'n'] then true
  else
    let (mantissa, exponent) := cutAt (fun c => c == 'e' || c == 'E') unsigned
    let (whole, fraction) := cutAt (· == '.') mantissa
    let digits? : Option (List Char × Nat) := do
      let whole ← decimal? whole
      match fraction with
      | none => return (whole, 0)
      | some fraction =>
        let fraction ← grouped? Char.isDigit fraction
        return (whole ++ fraction, fraction.length)
    let scale? : Option Int := do
      match exponent with
      | none => return 0
      | some exponent =>
        let (negative, exponent) := sign exponent
        let n := natOf 10 (← grouped? Char.isDigit exponent)
        return if negative then -(n : Int) else n
    match digits?, scale? with
    | some (digits, places), some scale =>
      (exponent.isSome || fraction.isSome) &&
        (negative || !overflows digits (scale - places))
    | _, _ => false

/-- The number of two decimal digits, if it lies within bounds. -/
def two? (low high : Nat) (a b : Char) : Option Nat :=
  if a.isDigit && b.isDigit && low ≤ natOf 10 [a, b] && natOf 10 [a, b] ≤ high then
    some (natOf 10 [a, b])
  else none

/-- The number of days of a month. -/
def daysOf (year month : Nat) : Nat :=
  if month = 2 then
    if year % 4 = 0 ∧ (year % 100 ≠ 0 ∨ year % 400 = 0) then 29 else 28
  else if month = 4 ∨ month = 6 ∨ month = 9 ∨ month = 11 then 30
  else 31

/-- Reads a date, and returns what follows it. -/
def date? : List Char → Option (List Char)
  | a :: b :: c :: d :: '-' :: e :: f :: '-' :: g :: h :: rest =>
    if [a, b, c, d].all Char.isDigit then do
      let month ← two? 1 12 e f
      let day ← two? 1 31 g h
      if day ≤ daysOf (natOf 10 [a, b, c, d]) month then some rest else none
    else none
  | _ => none

/-- Reads a time of day, and returns what follows it. -/
def time? : List Char → Option (List Char)
  | a :: b :: ':' :: c :: d :: ':' :: e :: f :: rest => do
    let _ ← two? 0 23 a b
    let _ ← two? 0 59 c d
    let _ ← two? 0 60 e f
    match rest with
    | '.' :: g :: rest => if g.isDigit then some (rest.dropWhile Char.isDigit) else none
    | ['.'] => none
    | _ => some rest
  | _ => none

/-- Whether a text is an offset from universal time, or empty. -/
def isOffset : List Char → Bool
  | [] => true
  | ['Z'] => true
  | ['z'] => true
  | [s, a, b, ':', c, d] =>
    (s == '+' || s == '-') && (two? 0 23 a b).isSome && (two? 0 59 c d).isSome
  | _ => false

/-- Whether a text is a time of day with an optional offset. -/
def isZonedTime (cs : List Char) : Bool :=
  match time? cs with
  | some rest => isOffset rest
  | none => false

/-- Whether a text is a date, a time of day, or both. -/
def isMoment (cs : List Char) : Bool :=
  match date? cs with
  | some [] => true
  | some (c :: rest) => (c == 'T' || c == 't') && isZonedTime rest
  | none => time? cs == some []

/-- The value of a bare run. -/
def bare? (cs : List Char) : Option Value :=
  if cs == ['t', 'r', 'u', 'e'] then some (.bool true)
  else if cs == ['f', 'a', 'l', 's', 'e'] then some (.bool false)
  else if isMoment cs then some (.moment (String.ofList cs))
  else if isReal cs then some (.real (String.ofList cs))
  else (integer? cs).map .integer

/-- Reads a bare value. A date may be followed by a blank and a time. -/
def read? (cs : List Char) : Option (Value × List Char) :=
  let run := cs.takeWhile isBare
  let rest := cs.drop run.length
  match date? run, rest with
  | some [], ' ' :: c :: after =>
    if c.isDigit then
      let time := (c :: after).takeWhile isBare
      if isZonedTime time then
        some (.moment (String.ofList (run ++ ' ' :: time)), (c :: after).drop time.length)
      else none
    else (bare? run).map fun v => (v, rest)
  | _, _ => (bare? run).map fun v => (v, rest)

end Phrasebook.Toml.Scalar
