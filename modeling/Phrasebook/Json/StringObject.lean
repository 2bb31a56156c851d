import Phrasebook.Json.Token
/-!
# JSON objects of strings

String tables are stored as objects whose values are all strings. Such a text
is read into its members in order, repeated names included, and the members can
be written back.
-/

namespace Phrasebook.Json.StringObject

/-- Judges a token that stands where a string has to. -/
def atValue : Token → Fault
  | .broken _ fault => fault
  | .endObject => .malformed
  | .endArray => .malformed
  | .colon => .malformed
  | .comma => .malformed
  | _ => .mismatched

/-- Judges the tokens from the end of a member on. -/
def afterMember : List Token → Fault
  | [] => .truncated
  | _ => .malformed

/-- Judges the tokens from a member on, the first fault from the left. -/
def inMember : List Token → Fault
  | [] => .truncated
  | [.text _] => .truncated
  | .text _ :: .colon :: [] => .truncated
  | .text _ :: .colon :: .text _ :: rest => afterMember rest
  | .text _ :: .colon :: token :: _ => atValue token
  | .broken true fault :: _ => fault
  | _ => .malformed

/-- The members from a name on, up to the brace that ends the text. -/
def members : List Token → Except Fault (List (String × String))
  | .text name :: .colon :: .text value :: .comma :: rest =>
    (members rest).map ((name, value) :: ·)
  | [.text name, .colon, .text value, .endObject] => .ok [(name, value)]
  | tokens => .error (inMember tokens)

/-- The members of an object of strings. -/
def ofTokens : List Token → Except Fault (List (String × String))
  | [] => .error .truncated
  | [.beginObject, .endObject] => .ok []
  | .beginObject :: rest => members rest
  | token :: _ => .error (atValue token)

/-- Reads an object of strings. -/
def read (s : String) : Except Fault (List (String × String)) :=
  ofTokens (Token.ofText s)

/-- Writes one member. -/
def writeMember (pair : String × String) : String :=
  Quoted.write pair.1 ++ ":" ++ Quoted.write pair.2

/-- Writes members as an object, in their order. -/
def write (pairs : List (String × String)) : String :=
  "\x7b" ++ String.intercalate "," (pairs.map writeMember) ++ "\x7d"

end Phrasebook.Json.StringObject
