/-!
# The grammar of a command line

A command takes options and values by position, or has commands of its own. What stands on a command line is
read from left to right; the first thing that does not fit, or that asks for help, ends the reading.

* `read` — what the words of a command line say.
-/

namespace Orchestration.CommandLine

/-- An option of a command. -/
structure CommandOption where
  /-- its name -/
  name : String
  /-- a letter that stands for it -/
  letter : Option Char := none
  /-- what its value is called, if it has one -/
  label : Option String := none
  /-- what it is for -/
  help : String := ""
  /-- its value when it is not given -/
  default : Option String := none
  /-- whether it may be given more than once -/
  isRepeatable : Bool := false
  /-- whether it may have a value -/
  accepts : String → Bool := fun _ => true

/-- A value that is given by its position. -/
structure Positional where
  /-- what it is called -/
  label : String
  /-- what it is for -/
  help : String := ""
  /-- whether it must be given -/
  isRequired : Bool := true

/-- A command. -/
structure CommandGrammar where
  /-- its name -/
  name : String
  /-- what it does -/
  about : String
  /-- its options -/
  options : List CommandOption := []
  /-- the values it takes -/
  positionals : List Positional := []
  /-- the commands that it has of its own -/
  commands : List CommandGrammar := []

/-- The grammar of a program. -/
structure ProgramGrammar where
  /-- the program as a command -/
  root : CommandGrammar
  /-- the options that every command has -/
  everywhere : List CommandOption := []

/-- What a command line says. -/
structure Reading where
  /-- the names of the commands, outermost first -/
  path : List String
  /-- the options that were given and their values; what has no value has an empty one -/
  options : List (String × String)
  /-- the values by position -/
  positions : List String

/-- Why a command line is not carried out. -/
inductive Stop where
  /-- it asks for help with a command; the names that lead to the command -/
  | help (path : List String) (command : CommandGrammar)
  /-- it asks for the version -/
  | version
  /-- it does not fit -/
  | misuse

namespace Reading

/-- The value of an option; of several the last. -/
def option? (r : Reading) (name : String) : Option String :=
  (r.options.reverse.find? (·.1 = name)).map (·.2)

/-- The values of an option that may be given more than once. -/
def all (r : Reading) (name : String) : List String :=
  (r.options.filter (·.1 = name)).map (·.2)

/-- Whether an option was given. -/
def has (r : Reading) (name : String) : Bool := (r.option? name).isSome

/-- The value at a position. -/
def position? (r : Reading) (index : Nat) : Option String := r.positions[index]?

/-- The value at a position that is always given. -/
def position (r : Reading) (index : Nat) : String := (r.position? index).getD ""

end Reading

/-- How far the reading has come. -/
structure Progress where
  /-- the names that lead to the command -/
  path : List String
  /-- the command -/
  command : CommandGrammar
  /-- the options that were given to the commands around it -/
  outer : List (String × String) := []
  /-- the options that were given to it -/
  options : List (String × String) := []
  /-- the values by position -/
  positions : List String := []
  /-- the option that waits for its value -/
  waiting : Option CommandOption := none
  /-- whether only values by position may follow -/
  onlyPositions : Bool := false

namespace Progress

/-- Takes an option with its value. -/
def give (p : Progress) (o : CommandOption) (value : String) : Except Stop Progress :=
  if p.waiting.isSome || !o.accepts value || (!o.isRepeatable && p.options.any (·.1 = o.name)) then
    .error .misuse
  else .ok { p with options := p.options ++ [(o.name, value)] }

/-- Takes a value by position. -/
def place (p : Progress) (value : String) : Except Stop Progress :=
  if p.waiting.isSome || p.command.positionals.length ≤ p.positions.length then .error .misuse
  else .ok { p with positions := p.positions ++ [value] }

/-- Ends the reading with something that is asked for, unless an option waits for its value. -/
def askFor (p : Progress) (stop : Stop) : Except Stop Progress :=
  .error (if p.waiting.isSome then .misuse else stop)

/-- Enters a command of the present one. -/
def enter (p : Progress) (c : CommandGrammar) : Progress where
  path := p.path ++ [c.name]
  command := c
  outer := p.outer ++ p.options

/-- Whether the command is the program as a whole. -/
def isOutermost (p : Progress) : Bool := p.path.length = 1

/-- The options of the present command. -/
def known (p : Progress) (g : ProgramGrammar) : List CommandOption := p.command.options ++ g.everywhere

/-- Takes an option given by its name. -/
def takeNamed (p : Progress) (g : ProgramGrammar) (name : String) (value : Option String) :
    Except Stop Progress :=
  match (p.known g).find? (·.name = name), value with
  | some o, some value => if o.label.isSome then p.give o value else .error .misuse
  | some o, none =>
    if o.label.isNone then p.give o ""
    else if p.waiting.isSome then .error .misuse
    else .ok { p with waiting := some o }
  | none, some _ => .error .misuse
  | none, none =>
    if name = "help" then p.askFor (.help p.path p.command)
    else if name = "version" ∧ p.isOutermost then p.askFor .version
    else .error .misuse

/-- Takes options given by letters. -/
def takeLetters (g : ProgramGrammar) : List Char → Progress → Except Stop Progress
  | [], p => .ok p
  | c :: cs, p =>
    match (p.known g).find? (·.letter = some c) with
    | some o => do takeLetters g cs (← p.give o "")
    | none =>
      if c = 'h' then p.askFor (.help p.path p.command)
      else if c = 'V' ∧ p.isOutermost then p.askFor .version
      else .error .misuse

/-- Takes a value for the option that waits for one, or by position. -/
def takeValue (p : Progress) (value : String) : Except Stop Progress :=
  match p.waiting with
  | some o => { p with waiting := none }.give o value
  | none => p.place value

/-- The name of an option and the value that is attached to it. -/
def splitOption (cs : List Char) : String × Option String :=
  match cs.dropWhile (· ≠ '=') with
  | [] => (.ofList cs, none)
  | _ :: value => (.ofList (cs.takeWhile (· ≠ '=')), some (.ofList value))

/-- Takes a word that names no command. -/
def take (p : Progress) (g : ProgramGrammar) (word : String) : Except Stop Progress :=
  if p.onlyPositions then p.place word
  else match word.toList with
    | ['-', '-'] => .ok { p with onlyPositions := true }
    | '-' :: '-' :: cs =>
      let (name, value) := splitOption cs
      p.takeNamed g name value
    | '-' :: c :: cs => takeLetters g (c :: cs) p
    | _ => p.takeValue word

/-- What the command line says, once it has been read. -/
def finish (p : Progress) : Except Stop Reading :=
  let required := (p.command.positionals.filter (·.isRequired)).length
  if p.waiting.isSome || !p.command.commands.isEmpty || p.positions.length < required then
    .error .misuse
  else .ok ⟨p.path, p.outer ++ p.options, p.positions⟩

/-- The command that a word names here, if a command may stand here. -/
def named? (p : Progress) (word : String) : Option CommandGrammar :=
  if p.onlyPositions || p.waiting.isSome then none else p.command.commands.find? (·.name = word)

/-- Whether a word asks for help with a command that is named after it. -/
def asksForHelp (p : Progress) (word : String) : Bool :=
  word = "help" && !p.command.commands.isEmpty && !p.onlyPositions && p.waiting.isNone

/-- Help with the command that names lead to. -/
def helpWith : List String → List String → CommandGrammar → Stop
  | [], path, c => .help path c
  | name :: names, path, c =>
    match c.commands.find? (·.name = name) with
    | some inner => helpWith names (path ++ [name]) inner
    | none => .misuse

/-- Reads further words. -/
def readOn (g : ProgramGrammar) : List String → Progress → Except Stop Reading
  | [], p => p.finish
  | word :: words, p =>
    match p.named? word with
    | some c => readOn g words (p.enter c)
    | none =>
      if p.asksForHelp word then .error (helpWith words p.path p.command)
      else do readOn g words (← p.take g word)

end Progress

/-- What the words of a command line say. -/
def read (g : ProgramGrammar) (words : List String) : Except Stop Reading :=
  Progress.readOn g words { path := [g.root.name], command := g.root }

end Orchestration.CommandLine
