import Phrasebook.Toml.Scalar
/-!
# Reading TOML documents

A document is read line by line: a header opens a table, and a key sets a value
in the table that is open. Values nest at most 79 containers deep, and a key has
at most 79 parts.
-/

namespace Phrasebook.Toml

namespace Reader

open Quoted (isSpace)

/-- Drops blanks within a line. -/
def skipSpace (cs : List Char) : List Char := cs.dropWhile isSpace

/-- The bound on nesting and on the parts of a key. -/
def bound : Nat := 80

/-- Whether a character may stand in a bare key. -/
def isBareKey (c : Char) : Bool := c.isAlphanum || c == '_' || c == '-'

/-- Reads one part of a key. -/
def keyPart? (cs : List Char) : Option (String × List Char) :=
  let run := cs.takeWhile isBareKey
  if run.isEmpty then (Quoted.singleLine? cs).map fun (text, rest) => (String.ofList text, rest)
  else some (String.ofList run, cs.drop run.length)

/-- Reads the parts of a key, with dots between them. -/
def keyParts? : Nat → List Char → Option (List String × List Char)
  | 0, _ => none
  | fuel + 1, cs => do
    let (part, cs) ← keyPart? (skipSpace cs)
    match skipSpace cs with
    | '.' :: cs =>
      let (parts, cs) ← keyParts? fuel cs
      return (part :: parts, cs)
    | cs => return ([part], cs)

/-- Reads a key: the parts before the last, and the last. -/
def key? (cs : List Char) : Option (List String × String × List Char) := do
  let (parts, cs) ← keyParts? (bound - 1) cs
  let last ← parts.getLast?
  return (parts.dropLast, last, cs)

/-- Drops a comment up to the end of its line, if it holds no control
character. -/
def skipComment? (cs : List Char) : Option (List Char) :=
  match cs with
  | '#' :: cs => some (cs.dropWhile Quoted.isPlain)
  | _ => some cs

/-- Reads the end of a line; the end of the text ends a line as well. -/
def lineEnd? (cs : List Char) : Option (List Char) := do
  match ← skipComment? (skipSpace cs) with
  | [] => some []
  | '\n' :: cs => some cs
  | '\r' :: '\n' :: cs => some cs
  | _ => none

/-- Drops blanks, comments and line breaks, as they may stand in an array. -/
def skipBreaks? : Nat → List Char → Option (List Char)
  | 0, _ => none
  | fuel + 1, cs =>
    match Quoted.dropBreaks cs with
    | '#' :: cs => do skipBreaks? fuel (← lineEnd? ('#' :: cs))
    | cs => some cs

mutual

/-- Reads a value that stands `depth` containers deep. -/
def value? : Nat → Nat → List Char → Option (Value × List Char)
  | 0, _, _ => none
  | fuel + 1, depth, cs =>
    match cs with
    | '"' :: _ => (Quoted.read? cs).map fun (text, rest) => (.text (String.ofList text), rest)
    | '\'' :: _ => (Quoted.read? cs).map fun (text, rest) => (.text (String.ofList text), rest)
    | '[' :: cs =>
      if depth + 1 < bound then items? fuel (depth + 1) [] cs else none
    | '\x7b' :: cs =>
      if depth + 1 < bound then
        match skipSpace cs with
        | '\x7d' :: cs => some (.table .inline [], cs)
        | cs => members? fuel (depth + 1) [] cs
      else none
    | _ => Scalar.read? cs

/-- Reads the items of an array behind those read, the latest of them first, up
to its bracket. -/
def items? : Nat → Nat → List Value → List Char → Option (Value × List Char)
  | 0, _, _, _ => none
  | fuel + 1, depth, items, cs => do
    match ← skipBreaks? (cs.length + 1) cs with
    | ']' :: cs => return (.array items.reverse, cs)
    | cs =>
      let (item, cs) ← value? fuel depth cs
      match ← skipBreaks? (cs.length + 1) cs with
      | ',' :: cs => items? fuel depth (item :: items) cs
      | ']' :: cs => return (.array (item :: items).reverse, cs)
      | _ => none

/-- Reads the members of an inline table behind those read, up to its brace. -/
def members? : Nat → Nat → Members → List Char → Option (Value × List Char)
  | 0, _, _, _ => none
  | fuel + 1, depth, members, cs => do
    let (path, name, cs) ← key? cs
    match skipSpace cs with
    | '=' :: cs =>
      let (v, cs) ← value? fuel depth (skipSpace cs)
      let (_, members) ← assign path name v .defined members
      match skipSpace cs with
      | ',' :: cs => members? fuel depth members cs
      | '\x7d' :: cs => return (.table .inline members, cs)
      | _ => none
    | _ => none

end

/-- A document so far, and the path of the table that is open. -/
structure State where
  document : Members
  header : List String

/-- Reads the rest of a header and opens its table. -/
def header? (s : State) (element : Bool) (cs : List Char) : Option (State × List Char) := do
  let (path, name, cs) ← key? cs
  let cs ← match element, cs with
    | false, ']' :: cs => some cs
    | true, ']' :: ']' :: cs => some cs
    | _, _ => none
  let cs ← lineEnd? cs
  let opening := if element then openElement name else openTable name
  let (_, document) ← change .implied opening path .defined s.document
  return (⟨document, path ++ [name]⟩, cs)

/-- Reads the rest of a line that sets a value. -/
def setting? (s : State) (cs : List Char) : Option (State × List Char) := do
  let (path, name, cs) ← key? cs
  match cs with
  | '=' :: cs =>
    let (v, cs) ← value? (cs.length + 1) 0 (skipSpace cs)
    let cs ← lineEnd? cs
    let (_, document) ← change .implied (assign path name v) s.header .defined s.document
    return ({ s with document }, cs)
  | _ => none

/-- Reads the lines of a document. -/
def lines? : Nat → State → List Char → Option Members
  | 0, _, _ => none
  | fuel + 1, s, cs =>
    match skipSpace cs with
    | [] => some s.document
    | '\n' :: cs => lines? fuel s cs
    | '\r' :: '\n' :: cs => lines? fuel s cs
    | '#' :: cs => do lines? fuel s (← lineEnd? ('#' :: cs))
    | '[' :: '[' :: cs => do
      let (s, cs) ← header? s true cs
      lines? fuel s cs
    | '[' :: cs => do
      let (s, cs) ← header? s false cs
      lines? fuel s cs
    | cs => do
      let (s, cs) ← setting? s cs
      lines? fuel s cs

end Reader

/-- Reads a document; a byte order mark may precede it. -/
def read? (s : String) : Option Members :=
  let cs := match s.toList with
    | '\uFEFF' :: cs => cs
    | cs => cs
  Reader.lines? (cs.length + 1) ⟨[], []⟩ cs

end Phrasebook.Toml
