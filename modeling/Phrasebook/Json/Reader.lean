import Phrasebook.Json.Token
/-!
# Reading JSON documents

A reader is an automaton over tokens: its state holds the containers that are
open, innermost first, and says what may come next. It stops at the first token
that cannot come next, so a fault is judged where it stands.
-/

namespace Phrasebook.Json

namespace Reader

/-- A container that has been opened and not closed. -/
inductive Frame
  /-- The items so far, latest first. -/
  | array (items : List Value)
  /-- The members so far, and the name of the member being read. -/
  | object (members : List (String × Value)) (name : String)

/-- What a reader expects next. -/
inductive State
  /-- A value. -/
  | value (outer : List Frame)
  /-- The first item of an array, or its end. -/
  | arrayStart (outer : List Frame)
  /-- The first name of an object, or its end. -/
  | objectStart (outer : List Frame)
  /-- A further name. -/
  | name (members : List (String × Value)) (outer : List Frame)
  /-- The colon behind a name. -/
  | colon (members : List (String × Value)) (name : String) (outer : List Frame)
  /-- A comma, or the end of an array. -/
  | afterItem (items : List Value) (outer : List Frame)
  /-- A comma, or the end of an object. -/
  | afterMember (members : List (String × Value)) (outer : List Frame)
  /-- Nothing: the document is complete. -/
  | complete (document : Value)

/-- The most containers that may be open at once. -/
def deepest : Nat := 127

/-- Puts a finished value where it belongs. -/
def place (v : Value) : List Frame → State
  | [] => .complete v
  | .array items :: outer => .afterItem (v :: items) outer
  | .object members name :: outer => .afterMember (Assoc.put name v members) outer

/-- Takes the first token of a value. -/
def beginValue (outer : List Frame) : Token → Except Fault State
  | .null => .ok (place .null outer)
  | .bool b => .ok (place (.bool b) outer)
  | .number n => .ok (place (.number n) outer)
  | .text s => .ok (place (.text s) outer)
  | .beginArray => if outer.length < deepest then .ok (.arrayStart outer) else .error .malformed
  | .beginObject => if outer.length < deepest then .ok (.objectStart outer) else .error .malformed
  | .broken _ fault => .error fault
  | _ => .error .malformed

/-- Takes the name of a member. -/
def takeName (members : List (String × Value)) (outer : List Frame) :
    Token → Except Fault State
  | .text s => .ok (.colon members s outer)
  | .broken true fault => .error fault
  | _ => .error .malformed

/-- Takes one token. -/
def step : State → Token → Except Fault State
  | .value outer, token => beginValue outer token
  | .arrayStart outer, .endArray => .ok (place (.array []) outer)
  | .arrayStart outer, token => beginValue (.array [] :: outer) token
  | .objectStart outer, .endObject => .ok (place (.object []) outer)
  | .objectStart outer, token => takeName [] outer token
  | .name members outer, token => takeName members outer token
  | .colon members name outer, .colon => .ok (.value (.object members name :: outer))
  | .afterItem items outer, .comma => .ok (.value (.array items :: outer))
  | .afterItem items outer, .endArray => .ok (place (.array items.reverse) outer)
  | .afterMember members outer, .comma => .ok (.name members outer)
  | .afterMember members outer, .endObject => .ok (place (.object members) outer)
  | _, _ => .error .malformed

/-- Takes all tokens from a state; the document has to be complete then. -/
def run (state : State) : List Token → Except Fault Value
  | [] =>
    match state with
    | .complete v => .ok v
    | _ => .error .truncated
  | token :: tokens =>
    match step state token with
    | .ok state => run state tokens
    | .error fault => .error fault

end Reader

/-- Reads a document. -/
def Value.read (s : String) : Except Fault Value :=
  Reader.run (.value []) (Token.ofText s)

end Phrasebook.Json
