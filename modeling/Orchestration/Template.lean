import Orchestration.Text.Blank
import Orchestration.Text.Search
import Orchestration.Text.Word
import Orchestration.Variables

/-!
# Prompt templates

A template is a text with references of the form `{{$name}}`; blanks may stand inside the braces.
Everything else, other braces included, stands for itself.

* `Template.render` — every reference replaced by its variable, or by nothing. What was put in is not
  read again.
* `Template.variableNames` — the small forms of the names, each once, in order of first use.
-/

namespace Orchestration

open Text

/-- A text with references to variables. -/
structure Template where
  /-- the text as it was written -/
  text : String
  deriving DecidableEq

namespace Template

/-- Whether a character may stand in the name of a reference. -/
def isReferenceChar (c : Char) : Bool := isNameChar c || c = '.'

/-- The name referred to at the start of a text, and what follows the reference. -/
def reference? : List Char → Option (String × List Char)
  | '\x7b' :: '\x7b' :: cs =>
    match dropBlanks cs with
    | '$' :: cs =>
      let name := cs.takeWhile isReferenceChar
      match dropBlanks (cs.dropWhile isReferenceChar) with
      | '\x7d' :: '\x7d' :: rest => if name.isEmpty then none else some (.ofList name, rest)
      | _ => none
    | _ => none
  | _ => none

/-- The distinct members of a list, in order of their first occurrence. -/
def distinct (names : List String) : List String :=
  names.foldl (fun seen name => if seen.contains name then seen else seen ++ [name]) []

/-- The names of the variables that a template refers to. -/
def variableNames (t : Template) : List String :=
  distinct ((findAll reference? t.text.toList).map lower)

/-- The template with its references replaced. -/
def render (t : Template) (v : Variables) : String :=
  .ofList (replaceFound reference? (fun name => ((v.get? name).getD "").toList) t.text.toList)

end Template

end Orchestration
