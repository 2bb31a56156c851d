import Phrasebook.Document
/-!
# Records with a JSON form

Three shapes of value and their JSON forms: a record with texts, a choice that
is written as one text, and a map whose keys are lists, which has a JSON form
only when it is empty.
-/

namespace Phrasebook.Document

open Json (Value Fault)

/-- A record with a text, an optional text, a number and a list of texts. -/
structure Banner where
  heading : String
  footer : Option String
  width : UInt32
  tags : List String
deriving DecidableEq, Repr

namespace Banner

/-- The member `name` of a record. -/
def field (members : List (String × Value)) (name : String) : Value :=
  (Assoc.get? name members).getD .null

/-- Reads a text. -/
def readText : Value → Except Fault String
  | .text s => .ok s
  | _ => .error .mismatched

/-- Reads a text that may be absent. -/
def readOptional : Value → Except Fault (Option String)
  | .text s => .ok (some s)
  | .null => .ok none
  | _ => .error .mismatched

/-- Reads a number of at most 32 bits. -/
def readWidth : Value → Except Fault UInt32
  | .number (.whole n) =>
    if 0 ≤ n ∧ n < UInt32.size then .ok (UInt32.ofNat n.toNat) else .error .mismatched
  | _ => .error .mismatched

/-- Reads a list of texts. -/
def readTexts : List Value → Except Fault (List String)
  | [] => .ok []
  | .text s :: rest => (readTexts rest).map (s :: ·)
  | _ :: _ => .error .mismatched

/-- The JSON form of a banner; an absent footer is null. -/
def encode (b : Banner) : Value :=
  .object [
    ("heading", .text b.heading),
    ("footer", (b.footer.map Value.text).getD .null),
    ("width", .number (.whole b.width.toNat)),
    ("tags", .array (b.tags.map .text))]

/-- The banner of a JSON form. -/
def decode : Value → Except Fault Banner
  | .object members => do
    let heading ← readText (field members "heading")
    let footer ← readOptional (field members "footer")
    let width ← readWidth (field members "width")
    match field members "tags" with
    | .array items => return ⟨heading, footer, width, ← readTexts items⟩
    | _ => .error .mismatched
  | _ => .error .mismatched

instance : Coded Banner := ⟨fun b => .ok b.encode, decode⟩

end Banner

/-- A choice that is written as one text, of which two are templates. -/
inductive Level
  | low
  | high
  | plain
  | top
deriving DecidableEq, Repr

namespace Level

/-- The written form of a level. -/
def form : Level → String
  | .low => "@level.low"
  | .high => "@level.high:top"
  | .plain => "plain"
  | .top => "top"

/-- The levels. -/
def all : List Level := [.low, .high, .plain, .top]

/-- The level with a written form. -/
def decode : Value → Except Fault Level
  | .text s =>
    match all.find? fun level => level.form == s with
    | some level => .ok level
    | none => .error .mismatched
  | _ => .error .mismatched

instance : Coded Level := ⟨fun level => .ok (.text level.form), decode⟩

end Level

/-- A map whose keys are lists of texts. -/
structure ListKeyed where
  keys : List (List String)
deriving DecidableEq, Repr

namespace ListKeyed

/-- Only an empty map has a JSON form, because names are texts. -/
def encode (m : ListKeyed) : Except Fault Value :=
  if m.keys.isEmpty then .ok (.object []) else .error .malformed

/-- The map of a JSON form. -/
def decode : Value → Except Fault ListKeyed
  | .object [] => .ok ⟨[]⟩
  | _ => .error .mismatched

instance : Coded ListKeyed := ⟨encode, decode⟩

end ListKeyed

end Phrasebook.Document
