import Orchestration.Planner.Choice
import Orchestration.Text.Search

/-!
# Turns of a conversation

In a stepwise run a model answers with a thought and perhaps an action, or with its final answer. The
parts are introduced by marks; an action is a document after its mark, plain, with its outer braces
doubled, or between backticks.

* `Step.parse` — an answer in its parts.
* `actionText?` — the document of the first action that can be made out.
-/

namespace Orchestration

open Text

/-- A turn of a stepwise run. -/
structure Step where
  /-- what the model thinks -/
  thought : String := ""
  /-- the function it wants called -/
  action : String := ""
  /-- the arguments of the call -/
  actionVariables : Dictionary String := ∅
  /-- what came of the call, or what is wrong with the answer -/
  observation : String := ""
  /-- the final answer -/
  finalAnswer : String := ""
  /-- the answer of the model as it was -/
  originalResponse : String := ""
  deriving DecidableEq, Inhabited

namespace Step

/-- Introduces a thought. -/
def thoughtMark : String := "[THOUGHT]"

/-- Introduces an action. -/
def actionMark : String := "[ACTION]"

/-- Introduces an observation. -/
def observationMark : String := "[OBSERVATION]"

/-- Introduces the final answer. -/
def finalMark : String := "[FINAL ANSWER]"

/-! ### Actions -/

/-- Whether a character is a brace. -/
def isBrace (c : Char) : Bool := c = '\x7b' || c = '\x7d'

/-- The characters up to the first brace, and the rest. -/
def beforeBrace (cs : List Char) : List Char × List Char :=
  (cs.takeWhile (!isBrace ·), cs.dropWhile (!isBrace ·))

/-- A pair of braces without others inside, the text before it, and the rest. -/
def group? (cs : List Char) : Option (List Char × List Char) :=
  match beforeBrace cs with
  | (before, '\x7b' :: cs) =>
    match beforeBrace cs with
    | (inside, '\x7d' :: rest) => some (before ++ '\x7b' :: inside ++ ['\x7d'], rest)
    | _ => none
  | _ => none

/-- As many groups as follow each other, and the rest; `bound` is at least the length of the text. -/
def groups : Nat → List Char → List Char × List Char
  | 0, cs => ([], cs)
  | bound + 1, cs =>
    match group? cs with
    | none => ([], cs)
    | some (g, rest) =>
      let (more, rest) := groups bound rest
      (g ++ more, rest)

/-- Whether a line ends here. -/
def endsLine : List Char → Bool
  | [] => true
  | c :: _ => c = '\n'

/-- A closing brace, or two, at the end of a line, and the rest. -/
def close? : List Char → Option (List Char × List Char)
  | '\x7d' :: rest =>
    if endsLine rest then some (['\x7d'], rest)
    else match rest with
      | '\x7d' :: rest => if endsLine rest then some (['\x7d', '\x7d'], rest) else none
      | _ => none
  | _ => none

/-- What stands after an opening: groups, text without braces, and a closing at the end of a line. -/
def braced? (cs : List Char) : Option (List Char × List Char) :=
  let (inside, rest) := groups cs.length cs
  let (last, rest) := beforeBrace rest
  (close? rest).map fun (closing, rest) => (inside ++ last ++ closing, rest)

/-- The document after a mark, with its outer braces single or double, and the rest. -/
def actionAt? (cs : List Char) : Option (List Char × List Char) :=
  match actionMark.toList.isPrefixOf? cs with
  | none => none
  | some cs =>
    match (beforeBrace cs).2 with
    | '\x7b' :: cs =>
      match braced? cs with
      | some (text, rest) => some ('\x7b' :: text, rest)
      | none =>
        match cs with
        | '\x7b' :: cs => (braced? cs).map fun (text, rest) => ('\x7b' :: '\x7b' :: text, rest)
        | _ => none
    | _ => none

/-- A document without the doubling of its outer braces. -/
def single (cs : List Char) : List Char :=
  if ['\x7b', '\x7b'].isPrefixOf cs && ['\x7d', '\x7d'].isSuffixOf cs then cs.tail.dropLast else cs

/-- The document of the first action that can be made out, backticks aside. -/
def actionText? (response : List Char) : Option (List Char) :=
  (findAll actionAt? (response.filter (· ≠ '\x60'))).head?.map single

/-- An action and its arguments. -/
structure Action where
  /-- the function -/
  name : String
  /-- the arguments -/
  arguments : Dictionary String

/-- Reads an action from a document; neither field need be there. -/
def Action.decoder : Decoder Action := .record ["action", "action_variables"] fun f => do
  let name ← f.withDefault "action" "" .string
  let arguments ← f.withDefault "action_variables" ∅ (.map .json)
  return { name, arguments := Planner.argumentTexts arguments }

/-! ### Answers -/

/-- The final answer, if the mark is there and anything follows it. -/
def finalAnswer? (response : List Char) : Option (List Char) :=
  match splitFirst? finalMark.toList response with
  | some (_, c :: cs) => some (trimChars (c :: cs))
  | _ => none

/-- The lines before the first that starts with an action. -/
def thoughtLines (lines : List (List Char)) : List (List Char) :=
  lines.takeWhile fun line => !actionMark.toList.isPrefixOf (dropBlanks line)

/-- What the model thinks: the text before an action, without the marks. -/
def thoughtOf (response : String) : String :=
  let all := lineList response.toList
  let before := thoughtLines all
  let text := if before.length < all.length then "\n".intercalate (before.map .ofList) else response
  trim (replaceAll thoughtMark "" text)

/-- What is noted when an answer has neither thought nor action. -/
def emptyAnswer : String :=
  "System step error, no thought or action found. Please give a valid thought and/or action."

/-- A step with the note that there is nothing in it, if that is so. -/
def noted (s : Step) : Step :=
  if s.thought.isEmpty && s.action.isEmpty && s.observation.isEmpty then
    { s with observation := emptyAnswer }
  else s

/-- An answer in its parts. -/
def parse (response : String) : Step :=
  match finalAnswer? response.toList with
  | some answer => { finalAnswer := .ofList answer, originalResponse := response }
  | none =>
    let step : Step := { thought := thoughtOf response, originalResponse := response }
    match actionText? response.toList with
    | none => step.noted
    | some document =>
      let text : String := .ofList document
      match Action.decoder.read? text with
      | some a => { step with action := a.name, actionVariables := a.arguments }.noted
      | none =>
        { step with observation := s!"System step parsing error, invalid JSON: {text}" }.noted

end Step

end Orchestration
