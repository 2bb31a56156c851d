import Phrasebook.Storage.Path
/-!
# The command line

A command line names one command, its arguments and options. Some options belong
to all commands and may stand before or behind the command; behind it they win.
-/

namespace Phrasebook.Command

/-- What a command line asks for. -/
inductive Task
  | lookup (id : String) (fallback : Option String)
  | render (template : String)
  | translate (input : Path) (shallow : Bool)
  | plural (id : String) (count : Int64) (mode : String) (word : Bool)
  | stats (locales : List String)
  | languages
  | regions (language : String)
deriving Repr

/-- A command line that was understood. -/
structure Invocation where
  config : Option Path
  root : Option Path
  folder : Option Path
  locale : Option String
  task : Task
deriving Repr

/-- Why a command line leads to no task. -/
inductive Stop
  /-- It is not understood. -/
  | usage
  /-- It asks for the help of a command, or of the program. -/
  | help (command : Option String)
  /-- It asks for the version. -/
  | version
deriving DecidableEq, Repr

/-- What an option takes. -/
inductive Takes
  | nothing
  | text
  /-- A path, which is not empty. -/
  | path
deriving DecidableEq, Repr

/-- An option by its long and short name. -/
structure Flag where
  long : String
  short : Option Char
  takes : Takes
  /-- What the help says about it. -/
  about : String
deriving Repr

/-- What a positional argument may be. -/
inductive Positional
  | text
  | path
  /-- A number of 64 bits, which may be negative. -/
  | count
  /-- Any number of texts. -/
  | many
deriving DecidableEq, Repr

/-- A command: its options and its positional arguments with their names. -/
structure Spec where
  name : String
  about : String
  flags : List Flag
  positionals : List (String × Positional × String)

/-- The options of all commands. -/
def globalFlags : List Flag := [
  ⟨"config", some 'c', .path, "TOML configuration file"⟩,
  ⟨"root", none, .path, "Root directory the string-table folder is resolved against"⟩,
  ⟨"folder", none, .path, "String-table folder, relative to the root"⟩,
  ⟨"locale", some 'l', .text, "Locale to activate instead of the system locale"⟩]

/-- The option that asks for help. -/
def helpFlag : Flag := ⟨"help", some 'h', .nothing, "Print help"⟩

/-- The option that asks for the version. -/
def versionFlag : Flag := ⟨"version", some 'V', .nothing, "Print version"⟩

/-- The commands. -/
def specs : List Spec := [
  ⟨"lookup", "Look up one string identifier",
    [⟨"default", some 'd', .text, "Text returned when the identifier has no entry"⟩],
    [("ID", .text, "String identifier")]⟩,
  ⟨"render", "Expand `@token:default` references in a template", [],
    [("TEMPLATE", .text, "Template text")]⟩,
  ⟨"translate", "Expand every string in a JSON document",
    [⟨"shallow", none, .nothing, "Leave nested objects and arrays untouched"⟩],
    [("INPUT", .path, "JSON file to translate")]⟩,
  ⟨"plural", "Plural or ordinal form of a string identifier or word",
    [⟨"mode", some 'm', .text, "`cardinal` or `ordinal` [default: cardinal]"⟩,
      ⟨"word", none, .nothing,
        "Treat the argument as a literal word instead of an identifier"⟩],
    [("ID", .text, "String identifier (or the word itself with `--word`)"),
      ("COUNT", .count, "Count selecting the form")]⟩,
  ⟨"stats", "Print load statistics for locales", [],
    [("LOCALES", .many, "Locales to load; the active locale when empty")]⟩,
  ⟨"languages", "List languages with string tables", [], []⟩,
  ⟨"regions", "List regions with string tables for a language", [],
    [("LANGUAGE", .text, "Language code")]⟩]

/-- Whether a text is a number as far as its shape goes: digits, with a point
and an exponent perhaps. -/
def looksNumeric (cs : List Char) : Bool :=
  let rec go (first dot : Bool) : List Char → Bool
    | [] => true
    | c :: cs =>
      if c.isDigit then go false dot cs
      else if c = '.' && !dot && !first then go false true cs
      else if (c = 'e' || c = 'E') && !first then !cs.isEmpty && cs.all Char.isDigit
      else false
  go true false cs

/-- Reads a whole number of 64 bits, with an optional sign. -/
def readCount? (s : String) : Option Int64 :=
  let (negative, digits) := match s.toList with
    | '-' :: cs => (true, cs)
    | '+' :: cs => (false, cs)
    | cs => (false, cs)
  if digits.isEmpty || !digits.all Char.isDigit then none
  else
    let n : Nat := digits.foldl (fun n c => 10 * n + (c.toNat - '0'.toNat)) 0
    let value : Int := if negative then -(n : Int) else n
    if Int64.minValue.toInt ≤ value ∧ value ≤ Int64.maxValue.toInt then some (Int64.ofInt value)
    else none

/-- The arguments gathered so far. -/
structure Gathered where
  /-- Options with their values, in order. -/
  options : List (String × String)
  positionals : List String
deriving Repr

namespace Gathered

/-- No arguments. -/
def empty : Gathered := ⟨[], []⟩

/-- The value of an option. -/
def option? (g : Gathered) (name : String) : Option String :=
  (g.options.find? fun o => o.1 == name).map Prod.snd

/-- Whether an option was given. -/
def has (g : Gathered) (name : String) : Bool := (g.option? name).isSome

/-- Notes an option. It may be given once, and a path is not empty. -/
def put (g : Gathered) (flag : Flag) (value : String) : Except Stop Gathered :=
  if g.has flag.long then .error .usage
  else if flag.takes = .path ∧ value = "" then .error .usage
  else .ok { g with options := g.options ++ [(flag.long, value)] }

/-- The kind of the next positional argument. -/
def next? (g : Gathered) (spec : Spec) : Option Positional :=
  match spec.positionals[g.positionals.length]? with
  | some (_, kind, _) => some kind
  | none =>
    match spec.positionals.getLast? with
    | some (_, .many, _) => some .many
    | _ => none

/-- Notes a positional argument, if there is a place for it and it fits. -/
def push (g : Gathered) (spec : Spec) (value : String) : Except Stop Gathered :=
  let fits := match g.next? spec with
    | none => false
    | some .path => value ≠ ""
    | some .count => (readCount? value).isSome
    | some _ => true
  if fits then .ok { g with positionals := g.positionals ++ [value] } else .error .usage

end Gathered

/-- How far reading has come. -/
inductive Reading
  /-- All that was read is noted. -/
  | settled (gathered : Gathered)
  /-- The next argument is the value of an option. -/
  | awaiting (gathered : Gathered) (flag : Flag)
  /-- An option has its value, but is not noted yet: that waits for what
  follows. -/
  | held (gathered : Gathered) (flag : Flag) (value : String)

/-- Notes what is left to note. -/
def Reading.settle : Reading → Except Stop Gathered
  | settled g => .ok g
  | awaiting _ _ => .error .usage
  | held g flag value => g.put flag value

/-- Acts on an option without a value. -/
def raise (spec : Spec) (isProgram : Bool) (g : Gathered) (flag : Flag) :
    Except Stop Reading :=
  if flag.long = helpFlag.long then
    .error (.help (if isProgram then none else some spec.name))
  else if flag.long = versionFlag.long then .error .version
  else (g.put flag "true").map .settled

/-- Reads a long option, given what stands behind its dashes. -/
def readLong (spec : Spec) (isProgram : Bool) (g : Gathered) (cs : List Char) :
    Except Stop Reading :=
  let name := String.ofList (cs.takeWhile (· ≠ '='))
  let attached := match cs.dropWhile (· ≠ '=') with
    | _ :: value => some (String.ofList value)
    | [] => none
  match spec.flags.find? fun f => f.long == name with
  | none => .error .usage
  | some flag =>
    match flag.takes, attached with
    | .nothing, none => raise spec isProgram g flag
    | .nothing, some _ => .error .usage
    | _, some value => (g.put flag value).map .settled
    | _, none => .ok (.awaiting g flag)

/-- Reads short options, given what stands behind their dash. -/
def readShort (spec : Spec) (isProgram : Bool) (g : Gathered) : List Char → Except Stop Reading
  | [] => .ok (.settled g)
  | c :: cs =>
    match spec.flags.find? fun f => f.short == some c with
    | none => .error .usage
    | some flag =>
      match flag.takes, cs with
      | .nothing, _ => do
        match ← raise spec isProgram g flag with
        | .settled g => readShort spec isProgram g cs
        | reading => return reading
      | _, [] => .ok (.awaiting g flag)
      | _, '=' :: value => (g.put flag (String.ofList value)).map .settled
      | _, value => (g.put flag (String.ofList value)).map .settled

/-- What an argument looks like. -/
inductive Shape
  /-- Two dashes alone. -/
  | separator
  /-- A long option, by what stands behind its dashes. -/
  | long (rest : List Char)
  /-- Short options, by what stands behind their dash. -/
  | short (rest : List Char)
  | plain

/-- The shape of an argument; a negative number is plain where a count is
expected. -/
def Shape.of (counting : Bool) (arg : String) : Shape :=
  match arg.toList with
  | ['-', '-'] => .separator
  | '-' :: '-' :: cs => .long cs
  | '-' :: c :: cs => if counting && looksNumeric (c :: cs) then .plain else .short (c :: cs)
  | _ => .plain

/-- What gathering arguments comes to. -/
inductive Gathering
  /-- All arguments were read. -/
  | finished (gathered : Gathered)
  /-- A command was named, and its arguments follow. -/
  | entered (reading : Reading) (command : String) (rest : List String)

/-- Whether a name is that of a command. -/
def isCommand (name : String) : Bool := name == "help" || specs.any fun spec => spec.name == name

/-- Gathers arguments. Behind `--` all are positional; the program itself has no
positional arguments, and stops at the name of a command. -/
def gather (spec : Spec) (isProgram : Bool) :
    List String → Bool → Reading → Except Stop Gathering
  | [], _, reading => reading.settle.map .finished
  | arg :: rest, true, reading => do
    gather spec isProgram rest true (.settled (← (← reading.settle).push spec arg))
  | arg :: rest, false, .awaiting g flag =>
    match Shape.of (g.next? spec == some .count) arg with
    | .plain => gather spec isProgram rest false (.held g flag arg)
    | _ => .error .usage
  | arg :: rest, false, reading =>
    if isProgram && isCommand arg then .ok (.entered reading arg rest)
    else do
      let g ← reading.settle
      match Shape.of (g.next? spec == some .count) arg with
      | .separator => gather spec isProgram rest true (.settled g)
      | .long cs => gather spec isProgram rest false (← readLong spec isProgram g cs)
      | .short cs => gather spec isProgram rest false (← readShort spec isProgram g cs)
      | .plain => gather spec isProgram rest false (.settled (← g.push spec arg))

/-- The program as a command of its own. -/
def program : Spec :=
  ⟨"lstr", "Command line front end for locale-strings tables",
    globalFlags ++ [helpFlag, versionFlag], []⟩

/-- The options that a command knows. -/
def Spec.complete (spec : Spec) : Spec :=
  { spec with flags := spec.flags ++ globalFlags ++ [helpFlag] }

/-- The task of a command with its arguments, all of which have to be there. -/
def task? (name : String) (g : Gathered) : Option Task :=
  match name, g.positionals with
  | "lookup", [id] => some (.lookup id (g.option? "default"))
  | "render", [template] => some (.render template)
  | "translate", [input] => some (.translate ⟨input⟩ (g.has "shallow"))
  | "plural", [id, count] => do
    let mode := (g.option? "mode").getD "cardinal"
    return .plural id (← readCount? count) mode (g.has "word")
  | "stats", locales => some (.stats locales)
  | "languages", [] => some .languages
  | "regions", [language] => some (.regions language)
  | _, _ => none

/-- Answers the command that asks for help about commands. -/
def askedHelp : List String → Stop
  | [] => .help none
  | [name] => if isCommand name then .help (some name) else .usage
  | _ => .usage

/-- Reads a command line. What stands before the command is noted only after
what stands behind it, so a request for help there comes first. -/
def parse (args : List String) : Except Stop Invocation := do
  match ← gather program true args false (.settled Gathered.empty) with
  | .finished _ => .error .usage
  | .entered reading name rest =>
    if name = "help" then .error (askedHelp rest)
    else
      match specs.find? fun spec => spec.name == name with
      | none => .error .usage
      | some spec =>
        match ← gather spec.complete false rest false (.settled Gathered.empty) with
        | .entered _ _ _ => .error .usage
        | .finished g =>
          let before ← reading.settle
          match task? name g with
          | none => .error .usage
          | some task =>
            let option (name : String) : Option String := (g.option? name).or (before.option? name)
            return {
              config := (option "config").map Path.mk
              root := (option "root").map Path.mk
              folder := (option "folder").map Path.mk
              locale := option "locale"
              task := task }

end Phrasebook.Command
