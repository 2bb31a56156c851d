/-!
# Binary floating point by exact arithmetic

A finite double is `mantissa * 2 ^ exponent` with 53 bits of mantissa. Each
operation is exact on natural numbers and rounds once, to the nearest double,
a tie going to the even mantissa.
-/

namespace Phrasebook

/-- A finite double in sign and magnitude. -/
structure Binary64 where
  /-- Whether the sign bit is set; zero has both signs. -/
  negative : Bool
  /-- Below `2 ^ 53`, and at least `2 ^ 52` above the least exponent. -/
  mantissa : Nat
  /-- Between `-1074` and `971`. -/
  exponent : Int
deriving DecidableEq, Repr

namespace Binary64

/-- The exponent of the smallest magnitudes. -/
def leastExponent : Int := -1074

/-- The exponent of the largest magnitudes. -/
def greatestExponent : Int := 971

/-- The zero with the given sign. -/
def zero (negative : Bool) : Binary64 := ⟨negative, 0, leastExponent⟩

/-- `num / den` in units of `2 ^ e`, as a fraction. -/
def inUnits (num den : Nat) (e : Int) : Nat × Nat :=
  (num * Nat.pow 2 (-e).toNat, den * Nat.pow 2 e.toNat)

/-- The quotient nearest to `num / den`; of two, the even one. -/
def divideToEven (num den : Nat) : Nat :=
  let q := num / den
  let r := num % den
  if 2 * r < den then q
  else if den < 2 * r then q + 1
  else if q % 2 = 0 then q else q + 1

/-- The exponent under which `num / den` has 53 bits, or the least one. -/
def exponentOf (num den : Nat) : Int :=
  let guess : Int := (num.log2 : Int) - (den.log2 : Int)
  let (n, d) := inUnits num den guess
  max leastExponent (if n < d then guess - 53 else guess - 52)

/-- The double nearest to `num / den`, or nothing beyond the largest one. -/
def ofRatio? (num den : Nat) : Option Binary64 :=
  if num = 0 then some (zero false)
  else
    let e := exponentOf num den
    let (n, d) := inUnits num den e
    let m := divideToEven n d
    let (m, e) := if m = Nat.pow 2 53 then (Nat.pow 2 52, e + 1) else (m, e)
    if greatestExponent < e then none else some ⟨false, m, e⟩

/-- The magnitude as a fraction. -/
def ratio (x : Binary64) : Nat × Nat :=
  (x.mantissa * Nat.pow 2 x.exponent.toNat, Nat.pow 2 (-x.exponent).toNat)

/-- The product of the magnitudes. -/
def mul? (x y : Binary64) : Option Binary64 :=
  ofRatio? (x.ratio.1 * y.ratio.1) (x.ratio.2 * y.ratio.2)

/-- The quotient of the magnitudes; `y` is not zero. -/
def div? (x y : Binary64) : Option Binary64 :=
  ofRatio? (x.ratio.1 * y.ratio.2) (x.ratio.2 * y.ratio.1)

/-- The double nearest to `10 ^ k`. -/
def powerOfTen? (k : Nat) : Option Binary64 := ofRatio? (Nat.pow 10 k) 1

/-- Multiplies `digits` by `10 ^ scale`, rounding the digits, the power of ten
and each product or quotient of the two. Powers above `10 ^ 308` are out of
range; below `10 ^ -308` the division is done in steps of `10 ^ 308`. -/
def ofDecimal? (digits : Nat) (scale : Int) : Option Binary64 := do
  let m ← ofRatio? digits 1
  if digits = 0 then return m
  if 308 < scale then none
  else if 0 ≤ scale then m.mul? (← powerOfTen? scale.toNat)
  else if -308 ≤ scale then m.div? (← powerOfTen? (-scale).toNat)
  else if -616 ≤ scale then
    let m ← m.div? (← powerOfTen? 308)
    m.div? (← powerOfTen? (-scale - 308).toNat)
  else return zero false

end Binary64

end Phrasebook
