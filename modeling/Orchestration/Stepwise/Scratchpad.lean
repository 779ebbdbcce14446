import Orchestration.Stepwise.Step

/-!
# The scratchpad

What a model is shown of the turns so far: the first thought always, and of the rest as many recent turns
as fit. A turn is taken as long as what was taken before it has at most three bytes for each token that an
answer may have.
-/

namespace Orchestration

open Text

namespace Scratchpad

/-- The line above the turns. -/
def heading : String :=
  "This was my previous work (but they haven't seen any of it! They only see what I return as final answer):"

/-- The line of a thought. -/
def thoughtLine (s : Step) : String := Step.thoughtMark ++ " " ++ s.thought

/-- The line of an action. -/
def actionLine (s : Step) : String :=
  Step.actionMark ++ " \x7b\"action\": \"" ++ s.action ++ "\",\"action_variables\": " ++
    (Json.ofTexts s.actionVariables).compact ++ "\x7d"

/-- The line of an observation. -/
def observationLine (s : Step) : String := Step.observationMark ++ " " ++ s.observation

/-- The lines of the turn with the given number; the thought of the first stands above. -/
def linesOf (index : Nat) (s : Step) : List String :=
  (if index = 0 then [] else [thoughtLine s]) ++
    (if s.action.isEmpty then [] else [actionLine s]) ++
    (if s.observation.isEmpty then [] else [observationLine s])

/-- How many bytes lines have. -/
def size (lines : List String) : Nat := (lines.map (·.utf8ByteSize)).foldr (· + ·) 0

/-- The lines of the turns that fit, given the latest first, and the bytes taken already. -/
def recent (budget : Nat) : Nat → List (Nat × Step) → List String
  | _, [] => []
  | taken, (index, s) :: earlier =>
    if budget < taken then []
    else
      let lines := linesOf index s
      recent budget (taken + size lines) earlier ++ lines

/-- Turns with their numbers, from the given one on. -/
def numbered : Nat → List Step → List (Nat × Step)
  | _, [] => []
  | index, s :: steps => (index, s) :: numbered (index + 1) steps

/-- The scratchpad of the turns so far. -/
def write (steps : List Step) (maxTokens : Nat) : String :=
  match steps with
  | [] => ""
  | first :: _ =>
    let header := [heading, thoughtLine first]
    let kept := recent (3 * maxTokens) (size header) (numbered 0 steps).reverse
    trim ("\n".intercalate (header ++ kept))

end Scratchpad

end Orchestration
