import Orchestration.CommandLine.Grammar
import Orchestration.Number.Reading
import Orchestration.Planner.Create

/-!
# The commands of the program

What can be asked of the program at the command line.

* `grammar` — how its commands are written.
* `Command.ofReading` — the command that a command line names.
-/

namespace Orchestration.CommandLine

open Number

/-- A command with what it was given. -/
inductive Command where
  /-- serves other programs -/
  | serve (transport : Option String)
  /-- fetches the model for this machine -/
  | downloadModel
  /-- saves a text -/
  | save (text : String) (key collection description : Option String)
  /-- searches by meaning -/
  | search (query : String) (collection : Option String) (limit : Nat) (least : Option Float)
      (asJson : Bool)
  /-- shows what is saved under a key -/
  | get (key : String) (collection : Option String)
  /-- removes what is saved under a key -/
  | remove (key : String) (collection : Option String)
  /-- shows the collections -/
  | collections
  /-- shows the functions -/
  | functions (plugin : Option String)
  /-- calls a function -/
  | invoke (function : String) (input : Option String) (pairs : List String)
  /-- makes a plan -/
  | plan (goal : String) (planner : Planner) (execute asJson : Bool)
  /-- answers a question turn by turn -/
  | stepwise (question : String) (verbose : Bool)
  /-- shows the health report -/
  | doctor

/-- The planner of a name, if there is one. -/
def planner? (name : String) : Option Planner := (Planner.parse name).toOption

/-- The option that names the collection. -/
def collectionOption : CommandOption := { name := "collection", label := some "COLLECTION" }

/-- The commands about memory. -/
def memoryCommands : List CommandGrammar := [
  { name := "save", about := "Save text to memory"
    positionals := [{ label := "TEXT" }]
    options := [{ name := "key", label := some "KEY" }, collectionOption,
      { name := "description", label := some "DESCRIPTION" }] },
  { name := "search", about := "Search memory by meaning"
    positionals := [{ label := "QUERY" }]
    options := [collectionOption,
      { name := "limit", label := some "LIMIT", default := some "5"
        accepts := fun s => (readNatural? largest64 s).isSome },
      { name := "min-relevance", label := some "MIN_RELEVANCE"
        accepts := fun s => (readFloat? s).isSome },
      { name := "json" }] },
  { name := "get", about := "Show one memory by key"
    positionals := [{ label := "KEY" }], options := [collectionOption] },
  { name := "remove", about := "Remove one memory by key"
    positionals := [{ label := "KEY" }], options := [collectionOption] },
  { name := "collections", about := "List collections" }]

/-- The commands of the program. -/
def commands : List CommandGrammar := [
  { name := "serve", about := "Start the MCP server"
    options := [{ name := "transport", label := some "TRANSPORT"
                  help := "Override the configured transport (stdio or http)" }] },
  { name := "model", about := "Manage the local embedding model"
    commands := [{
      name := "download"
      about := "Download the embedding model to the configured cache directory" }] },
  { name := "memory", about := "Work with semantic memory", commands := memoryCommands },
  { name := "functions", about := "List the kernel's functions"
    options := [{ name := "plugin", label := some "PLUGIN", help := "Only list this plugin" }] },
  { name := "invoke", about := "Invoke a function by its qualified name, e.g. `text.uppercase`"
    positionals := [{ label := "FUNCTION" },
      { label := "INPUT", help := "Value of the `input` variable", isRequired := false }]
    options := [{ name := "var", label := some "VARS", help := "Extra variables as key=value"
                  isRepeatable := true }] },
  { name := "plan", about := "Create a plan for a goal"
    positionals := [{ label := "GOAL" }]
    options := [
      { name := "planner", label := some "PLANNER", help := "sequential, action, or basic"
        default := some "sequential", accepts := fun s => (planner? s).isSome },
      { name := "execute", help := "Run the plan after creating it" },
      { name := "json", help := "Print the plan as JSON" }] },
  { name := "stepwise", about := "Answer a question with the stepwise planner"
    positionals := [{ label := "QUESTION" }]
    options := [{ name := "verbose", letter := some 'v'
                  help := "Print every thought, action, and observation" }] },
  { name := "doctor", about := "Check configuration and database health" }]

/-- How the commands of the program are written. -/
def grammar : ProgramGrammar where
  root := {
    name := "skernel", about := "Semantic memory, plugins, and planners for LLM apps", commands }
  everywhere := [{
    name := "config", label := some "CONFIG"
    help := "Config file (defaults to ~/.skernel/config.toml)"
    accepts := fun s => !s.isEmpty }]

/-- The version of the program. -/
def versionText : String := "skernel 0.1.0"

/-- The command about memory that a command line names. -/
def memoryCommand? (r : Reading) (name : String) : Option Command :=
  let collection := r.option? "collection"
  match name with
  | "save" => some (.save (r.position 0) (r.option? "key") collection (r.option? "description"))
  | "search" =>
    let limit := ((r.option? "limit").bind (readNatural? largest64)).getD 5
    let least := (r.option? "min-relevance").bind readFloat?
    some (.search (r.position 0) collection limit least (r.has "json"))
  | "get" => some (.get (r.position 0) collection)
  | "remove" => some (.remove (r.position 0) collection)
  | "collections" => some .collections
  | _ => none

/-- The command that a command line names. -/
def Command.ofReading (r : Reading) : Option Command :=
  match r.path.tail with
  | ["serve"] => some (.serve (r.option? "transport"))
  | ["model", "download"] => some .downloadModel
  | ["memory", name] => memoryCommand? r name
  | ["functions"] => some (.functions (r.option? "plugin"))
  | ["invoke"] => some (.invoke (r.position 0) (r.position? 1) (r.all "var"))
  | ["plan"] =>
    let planner := ((r.option? "planner").bind planner?).getD .sequential
    some (.plan (r.position 0) planner (r.has "execute") (r.has "json"))
  | ["stepwise"] => some (.stepwise (r.position 0) (r.has "verbose"))
  | ["doctor"] => some .doctor
  | _ => none

end Orchestration.CommandLine
