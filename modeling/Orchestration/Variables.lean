import Orchestration.Dictionary
import Orchestration.Json.Decode
import Orchestration.Text.Case

/-!
# Variables

The named texts that functions pass to each other. A name stands for its small form: `City`, `CITY` and
`city` are one variable. The variable `input` is what a function works on.

* `Variables.get?_set`, `Variables.get?_remove` — what each operation does to look-ups.
* `Variables.ext_held` — variables are determined by what is held under each key.
-/

namespace Orchestration

open Text

/-- Named texts. -/
structure Variables where
  /-- the texts under the small forms of their names -/
  held : Dictionary String := ∅
  deriving DecidableEq

namespace Variables

instance : EmptyCollection Variables := ⟨{}⟩

instance : Inhabited Variables := ⟨∅⟩

/-- The name of the variable that a function works on. -/
def inputName : String := "input"

/-- The text of a variable. -/
def get? (v : Variables) (name : String) : Option String := v.held.get? (lower name)

/-- Gives a variable a text. -/
def set (v : Variables) (name value : String) : Variables := ⟨v.held.insert (lower name) value⟩

/-- Takes a variable away. -/
def remove (v : Variables) (name : String) : Variables := ⟨v.held.erase (lower name)⟩

/-- Whether a variable has a text. -/
def contains (v : Variables) (name : String) : Bool := v.held.contains (lower name)

/-- The main input; nothing when it is not set. -/
def input (v : Variables) : String := (v.get? inputName).getD ""

/-- Gives the main input a text. -/
def setInput (v : Variables) (value : String) : Variables := v.set inputName value

/-- Variables of which only the main input is set. -/
def ofInput (value : String) : Variables := (∅ : Variables).setInput value

/-- Every variable of `other`, which wins over those of `v`. -/
def extend (v other : Variables) : Variables := ⟨v.held.extend other.held⟩

/-- The variables set one after another. -/
def ofList (pairs : List (String × String)) : Variables :=
  pairs.foldl (fun v p => v.set p.1 p.2) ∅

/-- The names and texts, in order of the names. -/
def toList (v : Variables) : List (String × String) := v.held.entries

/-- How many variables have a text. -/
def size (v : Variables) : Nat := v.held.size

/-- Whether no variable has a text. -/
def isEmpty (v : Variables) : Bool := v.held.isEmpty

/-- The variables as a document. -/
def toJson (v : Variables) : Json := .ofTexts v.held

/-- Reads variables from a document: names are taken as they stand. -/
def decoder : Decoder Variables := fun depth tree => (Decoder.texts depth tree).map .mk

/-- Variables with the same under every key are the same. -/
theorem ext_held {v w : Variables} (h : ∀ key, v.held.get? key = w.held.get? key) : v = w := by
  cases v
  cases w
  exact congrArg mk (Dictionary.ext_get? h)

theorem held_set (v : Variables) (name value key : String) :
    (v.set name value).held.get? key = if key = lower name then some value else v.held.get? key :=
  Dictionary.get?_insert ..

theorem get?_set (v : Variables) (name other value : String) :
    (v.set name value).get? other =
      if lower other = lower name then some value else v.get? other :=
  held_set ..

@[simp] theorem get?_set_self (v : Variables) (name value : String) :
    (v.set name value).get? name = some value := by
  simp [get?_set]

theorem get?_remove (v : Variables) (name other : String) :
    (v.remove name).get? other = if lower other = lower name then none else v.get? other := by
  by_cases h : lower other = lower name
  · simp [get?, remove, h]
  · simp [get?, remove, h, Dictionary.get?_erase_ne]

theorem input_setInput (v : Variables) (value : String) : (v.setInput value).input = value := by
  simp [input, setInput]

end Variables

end Orchestration
