import Phrasebook.Json.Quoted
/-!
# Writing JSON documents

Two layouts: compact, without any white space, and indented by two spaces a
level, where empty containers stay on one line.
-/

namespace Phrasebook.Json

namespace Value

mutual

/-- The compact form of a document. -/
def compact : Value → String
  | .null => "null"
  | .bool true => "true"
  | .bool false => "false"
  | .number n => n.text
  | .text s => Quoted.write s
  | .array items => "[" ++ String.intercalate "," (compactItems items) ++ "]"
  | .object members => "\x7b" ++ String.intercalate "," (compactMembers members) ++ "\x7d"

/-- The compact form of each item. -/
def compactItems : List Value → List String
  | [] => []
  | v :: rest => compact v :: compactItems rest

/-- The compact form of each member. -/
def compactMembers : List (String × Value) → List String
  | [] => []
  | (name, v) :: rest => (Quoted.write name ++ ":" ++ compact v) :: compactMembers rest

end

/-- Starts a line `level` levels deep. -/
def newline (level : Nat) : String :=
  "\n" ++ String.ofList (List.replicate (2 * level) ' ')

/-- Lays out the parts of a container, one a line. -/
def block (opening closing : String) (level : Nat) (parts : List String) : String :=
  if parts.isEmpty then opening ++ closing
  else
    opening ++ newline (level + 1) ++
      String.intercalate ("," ++ newline (level + 1)) parts ++ newline level ++ closing

mutual

/-- The indented form of a document that stands `level` levels deep. -/
def indented (level : Nat) : Value → String
  | .array items => block "[" "]" level (indentedItems (level + 1) items)
  | .object members => block "\x7b" "\x7d" level (indentedMembers (level + 1) members)
  | v => compact v

/-- The indented form of each item. -/
def indentedItems (level : Nat) : List Value → List String
  | [] => []
  | v :: rest => indented level v :: indentedItems level rest

/-- The indented form of each member. -/
def indentedMembers (level : Nat) : List (String × Value) → List String
  | [] => []
  | (name, v) :: rest =>
    (Quoted.write name ++ ": " ++ indented level v) :: indentedMembers level rest

end

end Value

end Phrasebook.Json
