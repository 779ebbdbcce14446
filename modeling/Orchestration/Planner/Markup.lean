import Orchestration.Kernel.Basic
import Orchestration.Plan.Basic
import Orchestration.Text.Search
import Orchestration.Text.Word

/-!
# Plans in markup

A model may write a plan as elements inside `<plan>`: each element named `function.` and a function is a
step, its attributes are the arguments. Comments inside the plan mean nothing, and neither do other
elements or text.

* `planBody?` — the text between `<plan>` and `</plan>`.
* `element?` — an element with all its attributes.
* `unescape` — an attribute value with its five entities decoded.
* `readMarkup` — the plan that a text describes.
-/

namespace Orchestration.Planner

open Text

/-! ### Text -/

/-- The body of a plan that starts here, and what follows it: nothing for `<plan/>`; otherwise up to
`</plan>`, or to the end. -/
def planAt? (cs : List Char) : Option (List Char × List Char) :=
  match "<plan".toList.isPrefixOf? cs with
  | none => none
  | some rest =>
    match dropBlanks rest with
    | '/' :: '>' :: after => some ([], after)
    | '>' :: inside => some ((splitFirst? "</plan>".toList inside).getD (inside, []))
    | _ => none

/-- The body of the first plan in a text. -/
def planBody? (cs : List Char) : Option (List Char) := (findAll planAt? cs).head?

/-- A comment that starts here, and what follows it. -/
def comment? (cs : List Char) : Option (Unit × List Char) :=
  match "<!--".toList.isPrefixOf? cs with
  | none => none
  | some rest => (splitFirst? "-->".toList rest).map fun (_, after) => ((), after)

/-- A text without its comments. -/
def dropComments (cs : List Char) : List Char := replaceFound comment? (fun _ => []) cs

/-! ### Elements -/

/-- An element with its attributes. -/
structure Element where
  /-- its name -/
  name : String
  /-- the names and values of its attributes, as they are written -/
  attributes : List (String × String)
  deriving DecidableEq

/-- Whether a character may start the name of an element. -/
def startsElement (c : Char) : Bool := c.isAlpha || c = '_'

/-- Whether a character may stand in the name of an element. -/
def isElementChar (c : Char) : Bool := isWordChar c || c = '.' || c = '-'

/-- Whether a character may stand in the name of an attribute. -/
def isAttributeChar (c : Char) : Bool := isElementChar c || c = ':'

/-- A value between quotes of either kind, and what follows it. -/
def quotedValue? : List Char → Option (List Char × List Char)
  | q :: cs => if q = '"' ∨ q = '\'' then splitFirst? [q] cs else none
  | [] => none

/-- An attribute after at least one blank, and what follows it. -/
def attribute? : List Char → Option ((String × String) × List Char)
  | [] => none
  | c :: cs =>
    if !isBlank c then none
    else
      let cs := dropBlanks cs
      let name := cs.takeWhile isAttributeChar
      if name.isEmpty then none
      else match dropBlanks (cs.dropWhile isAttributeChar) with
        | '=' :: cs =>
          (quotedValue? (dropBlanks cs)).map fun (value, rest) =>
            ((.ofList name, .ofList value), rest)
        | _ => none

/-- As many attributes as follow each other, and what follows them; `bound` is at least the length of the
text. -/
def attributes : Nat → List Char → List (String × String) × List Char
  | 0, cs => ([], cs)
  | bound + 1, cs =>
    match attribute? cs with
    | none => ([], cs)
    | some (a, rest) =>
      let (more, rest) := attributes bound rest
      (a :: more, rest)

/-- What follows the end of a tag. -/
def tagEnd? (cs : List Char) : Option (List Char) :=
  match dropBlanks cs with
  | '/' :: '>' :: rest => some rest
  | '>' :: rest => some rest
  | _ => none

/-- An element that starts here, and what follows its tag. -/
def element? : List Char → Option (Element × List Char)
  | '<' :: c :: cs =>
    if !startsElement c then none
    else
      let name := c :: cs.takeWhile isElementChar
      let rest := cs.dropWhile isElementChar
      let (attributes, rest) := attributes rest.length rest
      (tagEnd? rest).map fun rest => (⟨.ofList name, attributes⟩, rest)
  | _ => none

/-! ### Steps -/

/-- An attribute value with its entities decoded. -/
def unescape (value : String) : String :=
  replaceAll "&amp;" "&" <| replaceAll "&apos;" "'" <| replaceAll "&quot;" "\"" <|
    replaceAll "&gt;" ">" <| replaceAll "&lt;" "<" value

/-- What the name of an element that calls a function starts with. -/
def functionMark : String := "function."

/-- The name of the function that an element calls. -/
def Element.function? (e : Element) : Option String :=
  (functionMark.toList.isPrefixOf? e.name.toList).map .ofList

/-- A step with an attribute taken into account. -/
def withAttribute (s : PlanStep) (a : String × String) : PlanStep :=
  let value := unescape a.2
  if a.1 = "setContextVariable" then s.withOutput value
  else if a.1 = "appendToResult" then s.appendingTo value
  else s.withParameter a.1 value

/-- The step that an element describes, calling the function of a view. -/
def stepOf (v : FunctionView) (attributes : List (String × String)) : PlanStep :=
  attributes.foldl withAttribute { plugin := v.plugin, function := v.name }

/-- The steps that elements describe. A function that is not there is a failure, or is left out. -/
def stepsOf (k : Kernel) (allowMissing : Bool) : List Element → Except PlanningError (List PlanStep)
  | [] => .ok []
  | e :: es =>
    match e.function? with
    | none => stepsOf k allowMissing es
    | some name =>
      match k.registry.find name with
      | .ok f => (stepsOf k allowMissing es).map (stepOf f.view e.attributes :: ·)
      | .error _ => if allowMissing then stepsOf k allowMissing es else .error (.functionNotFound name)

/-- The elements of the first plan in a text, comments aside. -/
def planElements? (text : String) : Option (List Element) :=
  (planBody? text.toList).map fun body => findAll element? (dropComments body)

/-- The plan that a text describes. -/
def readMarkup (text goal : String) (k : Kernel) (allowMissing : Bool) :
    Except PlanningError Plan :=
  match planElements? text with
  | none => .error (.invalidPlan s!"no <plan> element found in: {text}")
  | some elements => do
    let steps ← stepsOf k allowMissing elements
    if steps.isEmpty then throw (.invalidPlan "plan contains no steps")
    return Plan.ofSteps goal steps

end Orchestration.Planner
