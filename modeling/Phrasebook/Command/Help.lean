import Phrasebook.Command.Line
/-!
# Help

The help of the program or of a command: what it is for, how it is called, and
its commands, arguments and options in aligned columns.
-/

namespace Phrasebook.Command

/-- A row of two columns. -/
abbrev Row := String × String

/-- Rows under a title, the right column aligned. -/
def table (title : String) (rows : List Row) : String :=
  let width := (rows.map fun row => row.1.length).foldl max 0
  let line (row : Row) : String :=
    "  " ++ row.1 ++ String.ofList (List.replicate (width - row.1.length + 2) ' ') ++ row.2 ++ "\n"
  title ++ ":\n" ++ String.join (rows.map line)

/-- The row of an option. -/
def Flag.row (flag : Flag) : Row :=
  let short := match flag.short with
    | some c => "-" ++ c.toString ++ ", "
    | none => "    "
  let value := if flag.takes = .nothing then "" else " <" ++ flag.long.toUpper ++ ">"
  (short ++ "--" ++ flag.long ++ value, flag.about)

/-- How a positional argument is written in a usage line. -/
def Positional.shown (kind : Positional) (name : String) : String :=
  if kind = .many then "[" ++ name ++ "]..." else "<" ++ name ++ ">"

/-- What orders options that were declared at the same place of two lists: the
short name, or else the long one. -/
def Flag.key (flag : Flag) : String := (flag.short.map Char.toString).getD flag.long

/-- Merges own and common options by their places in the two lists. -/
def mergeFlags : List Flag → List Flag → List Flag
  | [], common => common
  | own, [] => own
  | a :: own, b :: common =>
    (if a.key < b.key then [a, b] else [b, a]) ++ mergeFlags own common

/-- The options of a command as its help lists them. -/
def Spec.shownFlags (spec : Spec) : List Flag := mergeFlags spec.flags globalFlags ++ [helpFlag]

/-- What the help says about asking for help. -/
def helpAbout : String := "Print this message or the help of the given subcommand(s)"

/-- The help of the program. -/
def programHelp : String :=
  program.about ++ "\n\nUsage: " ++ program.name ++ " [OPTIONS] <COMMAND>\n\n" ++
    table "Commands" (specs.map (fun spec => (spec.name, spec.about)) ++ [("help", helpAbout)]) ++
    "\n" ++ table "Options" (program.flags.map Flag.row)

/-- The help of a command. -/
def Spec.help (spec : Spec) : String :=
  let arguments := spec.positionals.map fun (name, kind, about) => (kind.shown name, about)
  let usage := " ".intercalate ([program.name, spec.name, "[OPTIONS]"] ++ arguments.map Prod.fst)
  spec.about ++ "\n\nUsage: " ++ usage ++ "\n\n" ++
    (if arguments.isEmpty then "" else table "Arguments" arguments ++ "\n") ++
    table "Options" (spec.shownFlags.map Flag.row)

/-- The help of the command that asks for help. -/
def helpHelp : String :=
  helpAbout ++ "\n\nUsage: " ++ program.name ++ " help [COMMAND]...\n\n" ++
    table "Arguments" [("[COMMAND]...", "Print help for the subcommand(s)")]

/-- The help that is asked for. -/
def helpText : Option String → String
  | none => programHelp
  | some name =>
    match specs.find? fun spec => spec.name == name with
    | some spec => spec.help
    | none => helpHelp

end Phrasebook.Command
