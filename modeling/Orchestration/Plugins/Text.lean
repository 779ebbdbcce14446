import Orchestration.Kernel.Function
import Orchestration.Text.Blank

/-!
# Text functions
-/

namespace Orchestration.Plugins

open Text

/-- A function from the input to the output. -/
def onInput (name description : String) (parameter : String) (f : String → String) : Function :=
  .native name description [{ name := "input", description := parameter }] fun v =>
    return f v.input

/-- Functions on texts. -/
def textFunctions : List Function := [
  onInput "trim" "Trim whitespace from both ends of the input" "Text to trim" trim,
  onInput "trim_start" "Trim whitespace from the start of the input" "Text to trim" trimStart,
  onInput "trim_end" "Trim whitespace from the end of the input" "Text to trim" trimEnd,
  onInput "uppercase" "Convert the input to uppercase" "Text to convert" upper,
  onInput "lowercase" "Convert the input to lowercase" "Text to convert" lower,
  onInput "length" "Count the characters in the input" "Text to measure" fun s => s!"{s.length}",
  .native "concat" "Concatenate the input with input2" [
      { name := "input", description := "First text" },
      { name := "input2", description := "Second text", default := some "" }] fun v =>
    return v.input ++ (v.get? "input2").getD "",
  onInput "echo" "Return the input unchanged" "Text to echo" id]

end Orchestration.Plugins
