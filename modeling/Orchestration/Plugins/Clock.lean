import Orchestration.Kernel.Function
import Orchestration.Number.Reading
import Orchestration.Number.Layout
import Orchestration.Text.Blank

/-!
# The clock: telling the time and waiting
-/

namespace Orchestration.Plugins

open Number Text Time

/-- A function that tells something of the time at this place. -/
def ofLocalTime (name description : String) (f : Zoned → String) : Function :=
  .native name description [] fun _ => return f (← Effect.ask .localNow)

/-- Functions that tell the time. -/
def timeFunctions : List Function := [
  ofLocalTime "today" "Get the current date" (·.dateText),
  ofLocalTime "now" "Get the current date and time in the local time zone" (·.dateTimeText),
  .native "utc_now" "Get the current UTC date and time" [] fun _ => do
    let now ← Effect.ask .now
    return (Zoned.mk now 0).dateTimeText,
  ofLocalTime "year" "Get the current year" fun z => s!"{z.date.year}",
  ofLocalTime "month" "Get the current month name" (·.date.monthName),
  ofLocalTime "day" "Get the current day of the month" fun z => padded 2 z.date.day,
  ofLocalTime "day_of_week" "Get the current day of the week" (·.date.weekdayName)]

/-- Seconds as nanoseconds, unless they are too many for 64 bits; no number and negative ones count as
none. -/
def nanoseconds? (seconds : Float) : Option Nat :=
  match partsOf seconds with
  | .nan | .infinite true | .finite true .. => some 0
  | .infinite false => none
  | .finite false significand exponent =>
    let (num, den) := scaled significand 1 exponent
    let nanos := roundToEven (num * 1000000000) den
    if nanos < twoTo 64 * 1000000000 then some nanos else none

/-- Lets as many seconds pass as the input says. -/
def waitSeconds (v : Variables) : Effect Failure String := do
  let text := trim v.input
  match readFloat? text with
  | none => throw (KernelError.invalidArgument "input" s!"{quoted text} is not a number of seconds" : Failure)
  | some seconds =>
    match nanoseconds? seconds with
    | none =>
      throw (KernelError.invalidArgument "input"
        "cannot convert float seconds to Duration: value is either too big or NaN" : Failure)
    | some nanos =>
      Effect.ask (.wait nanos)
      return ""

/-- Functions that wait. -/
def waitFunctions : List Function := [
  .native "seconds" "Wait a given amount of seconds"
    [{ name := "input", description := "Number of seconds to wait", default := some "0" }] waitSeconds]

end Orchestration.Plugins
