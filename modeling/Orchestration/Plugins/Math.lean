import Orchestration.Kernel.Function
import Orchestration.Number.Reading
import Orchestration.Text.Blank

/-!
# Arithmetic functions

Sums and differences of whole numbers of 64 bits; a result beyond them is the nearest of them.
-/

namespace Orchestration.Plugins

open Number Text

/-- The least number that the functions work with. -/
def leastInteger : Int := -twoTo 63

/-- The greatest number that the functions work with. -/
def greatestInteger : Int := twoTo 63 - 1

/-- A number that the functions work with. -/
def clampInteger (n : Int) : Int := max leastInteger (min greatestInteger n)

/-- The number in a variable, blanks around it aside. -/
def integerIn (v : Variables) (name : String) : Except KernelError Int :=
  let text := (v.get? name).getD ""
  match readInteger? leastInteger greatestInteger (trim text) with
  | some n => .ok n
  | none => .error (.invalidArgument name s!"{quoted text} is not an integer")

/-- A function of the input and an amount. -/
def arithmetic (name description : String) (f : Int → Int → Int) : Function :=
  .native name description [
      { name := "input", description := "The value to start from" },
      { name := "amount", description := "The amount to apply", default := some "0" }] fun v =>
    Effect.mapError (fun e : KernelError => (e : Failure)) <| Effect.ofExcept do
      let value ← integerIn v "input"
      let amount ← integerIn v "amount"
      return s!"{clampInteger (f value amount)}"

/-- Functions on numbers. -/
def mathFunctions : List Function := [
  arithmetic "add" "Add amount to the input value" (· + ·),
  arithmetic "subtract" "Subtract amount from the input value" (· - ·)]

end Orchestration.Plugins
