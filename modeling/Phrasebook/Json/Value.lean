import Phrasebook.OrderedMap
import Phrasebook.Decimal.Shortest
import Phrasebook.Results
/-!
# JSON documents

Objects keep their members in the order of first mention; a repeated name keeps
its place and takes the last value.
-/

namespace Phrasebook.Json

/-- Why a text was refused, judged at the first place where it goes wrong. -/
inductive Fault
  /-- The text ends before the document does. -/
  | truncated
  /-- Well-formed so far, but of another type than the one wanted. -/
  | mismatched
  /-- No document begins like this. -/
  | malformed
deriving DecidableEq, Repr

/-- A number: whole within 64 bits, signed or unsigned, else a double. -/
inductive Number
  | whole (value : Int)
  | real (value : Binary64)
deriving DecidableEq, Repr

/-- The decimal form of a number; a double always shows a point or an exponent. -/
def Number.text : Number → String
  | .whole value => toString value
  | .real value => value.text

/-- A JSON document. -/
inductive Value
  | null
  | bool (value : Bool)
  | number (value : Number)
  | text (value : String)
  | array (items : List Value)
  | object (members : List (String × Value))
deriving Repr, Inhabited

namespace Value

/-- Whether a value is an object or an array. -/
def isContainer : Value → Bool
  | .array _ => true
  | .object _ => true
  | _ => false

end Value

end Phrasebook.Json
