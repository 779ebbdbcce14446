import Orchestration.CommandLine.Command
import Orchestration.CommandLine.Help
import Orchestration.Commands.Doctor
import Orchestration.Commands.Functions
import Orchestration.Commands.Plans
import Orchestration.Commands.Remember

/-!
# Running the program

A run reads the command line, then the configuration, and carries the command out. What it shows and how it
ends is all that a caller sees.

* `run` — a run for the words of a command line.
* `Ending.code`, `Ending.complaint` — how a run ends for the caller.
-/

namespace Orchestration.CommandLine

/-- How a run ends. -/
inductive Ending where
  /-- everything was done -/
  | done
  /-- the command line does not fit -/
  | misuse
  /-- something failed -/
  | failed (failure : Failure)
  /-- services are ready to be used by other programs -/
  | serving (services : Services) (overHttp : Bool)

namespace Ending

/-- The code that tells the caller how a run ended. -/
def code : Ending → Nat
  | .done => 0
  | .misuse => 2
  | .failed _ => 1
  | .serving .. => 0

/-- What the caller is told when something failed: the outermost wording on a line of its own, and below it
what lies behind it. -/
def complaint : Ending → Option String
  | .failed f =>
    let behind := (f.contexts ++ [f.cause.message]).tail
    let lines := behind.map ("    " ++ ·)
    some ("Error: " ++ f.headline ++
      if behind.isEmpty then "" else "\n\nCaused by:\n" ++ "\n".intercalate lines)
  | _ => none

end Ending

/-- Carries out a command that uses services. -/
def withServices (c : Config) (use : Services → Effect Failure Unit) : Effect Failure Ending := do
  use (← Services.build c)
  return .done

/-- Makes services ready for other programs. -/
def makeReady (c : Config) (transport : String) : Effect Failure Ending := do
  match transport with
  | "stdio" => return .serving (← Services.build c) false
  | "http" | "sse" => return .serving (← Services.build c) true
  | other => throw (.text s!"unknown transport: {other}. Supported: stdio, http")

/-- Carries out a command. -/
def Command.perform (c : Config) : Command → Effect Failure Ending
  | .serve transport => makeReady c (transport.getD c.server.transport)
  | .downloadModel => do
    LocalModel.download c.embedding
    return .done
  | .doctor => do
    Commands.doctor c
    return .done
  | .save text key collection description => withServices c fun s =>
    Commands.save s text key collection description
  | .search query collection limit least asJson => withServices c fun s =>
    Commands.search s query collection limit least asJson
  | .get key collection => withServices c fun s => Commands.get s key collection
  | .remove key collection => withServices c fun s => Commands.remove s key collection
  | .collections => withServices c Commands.collections
  | .functions plugin => withServices c fun s => Commands.functions s plugin
  | .invoke function input pairs => withServices c fun s =>
    Commands.invoke s function input pairs
  | .plan goal planner execute asJson => withServices c fun s =>
    Commands.plan s goal planner execute asJson
  | .stepwise question verbose => withServices c fun s => Commands.stepwise s question verbose

/-- Loads the configuration and carries out a command. -/
def carryOut (configPath : Option String) (command : Command) : Effect Failure Ending := do
  let config ← match configPath with
    | some path => Config.loadFrom path
    | none => Config.load
  command.perform config

/-- Shows a text and ends. -/
def showAndEnd (text : String) : Program Outside Ending := do
  Program.request (S := Outside) (.print text)
  return .done

/-- A run for the words of a command line. -/
def run (words : List String) : Program Outside Ending :=
  match read grammar words with
  | .error (.help path command) => showAndEnd (helpText grammar path command)
  | .error .version => showAndEnd (versionText ++ "\n")
  | .error .misuse => return .misuse
  | .ok reading =>
    match Command.ofReading reading with
    | none => return .misuse
    | some command => do
      match ← (carryOut (reading.option? "config") command).run with
      | .ok ending => return ending
      | .error failure => return .failed failure

end Orchestration.CommandLine
