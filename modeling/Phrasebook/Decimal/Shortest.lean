import Phrasebook.Decimal.Binary64
/-!
# Shortest decimals

A double is written with the fewest digits that lie inside the interval of
reals that round to it; of two such decimals the nearer is taken.
-/

namespace Phrasebook

namespace Binary64

/-- The interval of reals that round to a magnitude, in units of
`2 ^ (exponent - 2)`: lower end, value, upper end. -/
def interval (x : Binary64) : Nat × Nat × Nat :=
  let low :=
    if x.mantissa = Nat.pow 2 52 && leastExponent < x.exponent then 4 * x.mantissa - 1
    else 4 * x.mantissa - 2
  (low, 4 * x.mantissa, 4 * x.mantissa + 2)

/-- `10 ^ p ≤ x`, for a magnitude. -/
def reaches (x : Binary64) (p : Int) : Bool :=
  let (num, den) := x.ratio
  den * Nat.pow 10 p.toNat ≤ num * Nat.pow 10 (-p).toNat

/-- The exponent of the leading decimal digit of a magnitude above zero. -/
def leadingPower (x : Binary64) : Int :=
  let bits : Int := (x.mantissa.log2 : Int) + x.exponent
  let guess := bits * 30103 / 100000
  if x.reaches (guess + 1) then guess + 1
  else if x.reaches guess then guess
  else guess - 1

/-- The best decimal `d * 10 ^ p` inside the interval of `x`, if there is one. -/
def onGrid? (x : Binary64) (p : Int) : Option Nat :=
  let (low, value, high) := x.interval
  -- everything in units of `2 ^ (exponent - 2) * 10 ^ p`, over `den`
  let e := x.exponent - 2
  let scale := Nat.pow 2 e.toNat * Nat.pow 10 (-p).toNat
  let den := Nat.pow 2 (-e).toNat * Nat.pow 10 p.toNat
  let closed := x.mantissa % 2 = 0
  let within (d : Nat) : Bool :=
    if closed then low * scale ≤ d * den && d * den ≤ high * scale
    else low * scale < d * den && d * den < high * scale
  let below := value * scale / den
  let above := below + 1
  let fromBelow := value * scale - below * den
  let fromAbove := above * den - value * scale
  match within below, within above with
  | false, false => none
  | true, false => some below
  | false, true => some above
  | true, true =>
    if fromBelow < fromAbove then some below
    else if fromAbove < fromBelow then some above
    else if below % 2 = 0 then some below else some above

/-- Tries ever finer grids, `fuel` of them. -/
def firstGrid (x : Binary64) (p : Int) : Nat → Nat × Int
  | 0 => (0, p)
  | fuel + 1 =>
    match x.onGrid? p with
    | some d => (d, p)
    | none => firstGrid x (p - 1) fuel

/-- The shortest decimal `d * 10 ^ p` of a magnitude above zero; seventeen
digits always suffice. -/
def shortest (x : Binary64) : Nat × Int :=
  firstGrid x x.leadingPower 18

/-- The digits of `d`, and the power of ten behind the last of them, without
trailing zeros. -/
def stripZeros (d : Nat) (p : Int) : Nat → Nat × Int
  | 0 => (d, p)
  | fuel + 1 => if d % 10 = 0 then stripZeros (d / 10) (p + 1) fuel else (d, p)

/-- Positional from `10 ^ -5` up to `10 ^ 16`, with `.0` on whole numbers, and
outside in exponent form, where the exponent always has a sign. -/
def text (x : Binary64) : String :=
  let sign := if x.negative then "-" else ""
  if x.mantissa = 0 then sign ++ "0.0"
  else
    let (d, p) := x.shortest
    let (d, p) := stripZeros d p 20
    let digits := (toString d).toList
    let point : Int := digits.length + p
    let zeros (k : Int) : String := String.ofList (List.replicate k.toNat '0')
    let body :=
      if 0 ≤ p && point ≤ 16 then String.ofList digits ++ zeros p ++ ".0"
      else if 0 < point && point ≤ 16 then
        String.ofList (digits.take point.toNat) ++ "." ++ String.ofList (digits.drop point.toNat)
      else if -5 < point && point ≤ 0 then "0." ++ zeros (-point) ++ String.ofList digits
      else
        let fraction := if digits.length = 1 then "" else "." ++ String.ofList (digits.drop 1)
        let mark := if 0 < point then "e+" else "e-"
        String.ofList (digits.take 1) ++ fraction ++ mark ++ toString (point - 1).natAbs
    sign ++ body

end Binary64

end Phrasebook
