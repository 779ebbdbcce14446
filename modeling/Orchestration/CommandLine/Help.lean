import Orchestration.CommandLine.Grammar

/-!
# Help with a command

What a command does, how it is written, and lists of its commands, values and options, each in two columns.
-/

namespace Orchestration.CommandLine

/-- A text filled up with blanks. -/
def padTo (width : Nat) (s : String) : String :=
  s ++ .ofList (List.replicate (width - s.length) ' ')

/-- Two columns, the second two blanks after the widest of the first. -/
def columns (rows : List (String × String)) : List String :=
  let width := (rows.map (·.1.length)).foldl max 0
  rows.map fun row => "  " ++ padTo (width + 2) row.1 ++ row.2

/-- A list under a heading, with an empty line above; nothing if it is empty. -/
def listUnder (heading : String) (rows : List (String × String)) : List String :=
  if rows.isEmpty then [] else ["", heading ++ ":"] ++ columns rows

namespace CommandOption

/-- How the option is written. -/
def usage (o : CommandOption) : String :=
  let letter := match o.letter with
    | some c => .ofList ['-', c, ',', ' ']
    | none => "    "
  let value := match o.label with
    | some label => s!" <{label}>"
    | none => ""
  letter ++ "--" ++ o.name ++ value

/-- What the option is for, and its value when it is not given. -/
def note (o : CommandOption) : String :=
  match o.default with
  | some d => if o.help.isEmpty then s!"[default: {d}]" else s!"{o.help} [default: {d}]"
  | none => o.help

/-- What the option is sorted by among those of one rank. -/
def sortKey (o : CommandOption) : String :=
  match o.letter with
  | some c => .ofList [c.toLower, if c.isLower then '0' else '1']
  | none => o.name

end CommandOption

/-- How a value is written. -/
def Positional.usage (p : Positional) : String :=
  if p.isRequired then s!"<{p.label}>" else s!"[{p.label}]"

/-- Options with their ranks: their places in a list. -/
def ranked : Nat → List CommandOption → List (Nat × CommandOption)
  | _, [] => []
  | rank, o :: os => (rank, o) :: ranked (rank + 1) os

/-- Whether one option is listed before another. -/
def listedBefore (a b : Nat × CommandOption) : Bool :=
  a.1 < b.1 || (a.1 = b.1 && a.2.sortKey ≤ b.2.sortKey)

/-- The options that ask for help and for the version. -/
def askingOptions (isOutermost : Bool) : List CommandOption :=
  [{ name := "help", letter := some 'h', help := "Print help" }] ++
    if isOutermost then [{ name := "version", letter := some 'V', help := "Print version" }] else []

/-- The options of a command in the order in which they are listed. -/
def listedOptions (g : ProgramGrammar) (isOutermost : Bool) (c : CommandGrammar) :
    List CommandOption :=
  ((ranked 0 c.options ++ ranked 0 g.everywhere).mergeSort listedBefore).map (·.2) ++
    askingOptions isOutermost

/-- How a command is written. -/
def usageLine (g : ProgramGrammar) (path : List String) (c : CommandGrammar) : String :=
  " ".intercalate <| ["Usage:"] ++ path ++
    (if c.options.isEmpty && g.everywhere.isEmpty then [] else ["[OPTIONS]"]) ++
    c.positionals.map (·.usage) ++
    if c.commands.isEmpty then [] else ["<COMMAND>"]

/-- The commands of a command, and the one that helps with them. -/
def commandRows (c : CommandGrammar) : List (String × String) :=
  if c.commands.isEmpty then []
  else c.commands.map (fun inner => (inner.name, inner.about)) ++
    [("help", "Print this message or the help of the given subcommand(s)")]

/-- Help with a command that names lead to. -/
def helpText (g : ProgramGrammar) (path : List String) (c : CommandGrammar) : String :=
  let lines := [c.about, "", usageLine g path c] ++
    listUnder "Commands" (commandRows c) ++
    listUnder "Arguments" (c.positionals.map fun p => (p.usage, p.help)) ++
    listUnder "Options" ((listedOptions g (path.length = 1) c).map fun o => (o.usage, o.note))
  "\n".intercalate lines ++ "\n"

end Orchestration.CommandLine
