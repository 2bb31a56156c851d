import Phrasebook.Plural.Category
/-!
# Plural conditions

A condition looks at the magnitude of a number: at all of it (`n`), its whole
part (`i`), the count and the value of its fraction digits (`v`, `w`, `f`, `t`),
or the remainder of one of these. Counts are whole, so their fraction is empty.
-/

namespace Phrasebook.Plural

/-- The parts of a number that a condition may look at. -/
inductive Operand
  /-- The magnitude. -/
  | n
  /-- The whole part. -/
  | i
  /-- The number of fraction digits. -/
  | v
  /-- The number of fraction digits without trailing zeros. -/
  | w
  /-- The fraction digits as a number. -/
  | f
  /-- The fraction digits without trailing zeros as a number. -/
  | t
deriving DecidableEq, Repr

/-- The value of an operand for a whole magnitude. -/
def Operand.value (magnitude : Nat) : Operand → Nat
  | .n => magnitude
  | .i => magnitude
  | .v => 0
  | .w => 0
  | .f => 0
  | .t => 0

/-- An operand, or its remainder if the modulus is not zero. -/
structure Term where
  operand : Operand
  modulus : Nat
deriving DecidableEq, Repr

/-- Conditions on a number. -/
inductive Condition
  /-- The term lies between two bounds, both included. -/
  | among (term : Term) (low high : Nat)
  | not (c : Condition)
  | and (a b : Condition)
  | or (a b : Condition)
deriving DecidableEq, Repr

namespace Term

/-- The magnitude. -/
def n : Term := ⟨.n, 0⟩
/-- The whole part. -/
def i : Term := ⟨.i, 0⟩
/-- The number of fraction digits. -/
def v : Term := ⟨.v, 0⟩
/-- The fraction digits as a number. -/
def f : Term := ⟨.f, 0⟩
/-- The fraction digits without trailing zeros as a number. -/
def t : Term := ⟨.t, 0⟩

instance : HMod Term Nat Term := ⟨fun term m => { term with modulus := m }⟩

/-- The value of a term for a whole magnitude; the remainder by zero is the
number itself. -/
def value (magnitude : Nat) (term : Term) : Nat :=
  term.operand.value magnitude % term.modulus

/-- The term is `k`. -/
def is (term : Term) (k : Nat) : Condition := .among term k k

/-- The term is not `k`. -/
def isNot (term : Term) (k : Nat) : Condition := .not (term.is k)

/-- The term lies between two bounds, both included. -/
def within (term : Term) (low high : Nat) : Condition := .among term low high

/-- The term is one of several numbers. -/
def oneOf (term : Term) : List Nat → Condition
  | [] => .among term 1 0
  | [k] => term.is k
  | k :: rest => .or (term.is k) (term.oneOf rest)

end Term

namespace Condition

instance : AndOp Condition := ⟨.and⟩
instance : OrOp Condition := ⟨.or⟩
instance : Complement Condition := ⟨.not⟩

/-- Whether a whole magnitude meets a condition. -/
def holds (magnitude : Nat) : Condition → Bool
  | .among term low high =>
    low ≤ term.value magnitude && term.value magnitude ≤ high
  | .not c => !c.holds magnitude
  | .and a b => a.holds magnitude && b.holds magnitude
  | .or a b => a.holds magnitude || b.holds magnitude

end Condition

/-- Categories with their conditions, tried in order. -/
abbrev RuleSet := List (Category × Condition)

namespace RuleSet

/-- The first category whose condition a magnitude meets, else `other`. -/
def classify (rules : RuleSet) (magnitude : Nat) : Category :=
  match rules.find? fun rule => rule.2.holds magnitude with
  | some rule => rule.1
  | none => .other

/-- The category of a count, by its magnitude. The least count has no magnitude
of 64 bits with a sign, and no category. -/
def select (rules : RuleSet) (count : Count) : Option Category :=
  if count = Int64.minValue then none else some (classify rules count.toInt.natAbs)

end RuleSet

/-- Languages that share their rules. -/
structure RuleGroup where
  languages : List String
  rules : RuleSet
deriving DecidableEq, Repr

end Phrasebook.Plural
