import Orchestration.Number.Reading
import Orchestration.Text.Blank
import Orchestration.Text.Case
import Orchestration.Time.Calendar

/-!
# Points in time

A point in time to the nanosecond, with room for a leap second, and its writing as a date, a time of
day and an offset from universal time.

* `Timestamp.document` — the writing in documents, ending in `Z`.
* `Timestamp.stored` — the writing in database files, ending in `+00:00`.
* `Zoned.readStrict?` — a reader of the exchange format, which fixes the width of every field.
* `Zoned.readLoose?` — a reader that also takes blanks, short fields and years beyond four digits.
-/

namespace Orchestration.Time

open Number Text

/-- A point in time. -/
structure Timestamp where
  /-- whole seconds since the start of 1970 in universal time -/
  seconds : Int
  /-- nanoseconds into the second; a billion and more inside a leap second, which follows it -/
  nanos : Nat
  deriving DecidableEq, Repr

/-- A point in time as a clock shows it at some distance from universal time. -/
structure Zoned where
  /-- the point in time -/
  instant : Timestamp
  /-- how many seconds the clock is ahead of universal time -/
  offset : Int
  deriving DecidableEq, Repr

/-- A number with leading zeros. -/
def padded (width : Nat) (n : Nat) : String :=
  let ds := Nat.toDigits 10 n
  .ofList (List.replicate (width - ds.length) '0' ++ ds)

/-- A year: four digits, or a sign and at least four digits. -/
def writeYear (year : Int) : String :=
  if 0 ≤ year ∧ year ≤ 9999 then padded 4 year.toNat
  else (if year < 0 then "-" else "+") ++ padded 4 year.natAbs

/-- Nanoseconds as none, three, six or nine digits after a point, as few as show them. -/
def writeFraction (nanos : Nat) : String :=
  if nanos = 0 then ""
  else if nanos % 1000000 = 0 then "." ++ padded 3 (nanos / 1000000)
  else if nanos % 1000 = 0 then "." ++ padded 6 (nanos / 1000)
  else "." ++ padded 9 nanos

namespace Timestamp

/-- The day in universal time. -/
def date (t : Timestamp) : Date := .ofDays (t.seconds / 86400)

/-- The second of the day in universal time. -/
def secondOfDay (t : Timestamp) : Nat := (t.seconds % 86400).toNat

/-- Date and time of day without an offset. -/
def write (t : Timestamp) : String :=
  let d := t.date
  let s := t.secondOfDay
  let leap := t.nanos / 1000000000
  s!"{writeYear d.year}-{padded 2 d.month}-{padded 2 d.day}T{padded 2 (s / 3600)}:" ++
    s!"{padded 2 (s / 60 % 60)}:{padded 2 (s % 60 + leap)}{writeFraction (t.nanos % 1000000000)}"

/-- The writing in documents. -/
def document (t : Timestamp) : String := t.write ++ "Z"

/-- The writing in database files. -/
def stored (t : Timestamp) : String := t.write ++ "+00:00"

end Timestamp

/-! ### Reading -/

/-- The fields of a written time. -/
structure Fields where
  /-- the day -/
  date : Date
  /-- the hour of the day -/
  hour : Nat
  /-- the minute of the hour -/
  minute : Nat
  /-- the second of the minute, 60 for a leap second -/
  second : Nat
  /-- nanoseconds into the second -/
  nanos : Nat
  /-- how many seconds the clock is ahead of universal time -/
  offset : Int

/-- The point in time that some fields name, if there is one. -/
def Fields.zoned? (f : Fields) : Option Zoned :=
  if f.date.isValid && f.hour < 24 && f.minute < 60 && f.second ≤ 60 && f.offset.natAbs < 86400 then
    let leap := if f.second = 60 then 1 else 0
    let clock : Int := f.date.toDays * 86400 + (f.hour * 3600 + f.minute * 60 + f.second - leap : Nat)
    let instant : Timestamp := ⟨clock - f.offset, f.nanos + leap * 1000000000⟩
    let year := instant.date.year
    if Date.firstYear ≤ year ∧ year ≤ Date.lastYear then some ⟨instant, f.offset⟩ else none
  else none

/-- From `least` to `most` digits, as many as there are, and what follows them. -/
def readDigits? (least most : Nat) (cs : List Char) : Option (Nat × List Char) :=
  let ds := (cs.take most).takeWhile Char.isDigit
  if ds.length < least then none else some (digitsValue ds, cs.drop ds.length)

/-- What follows a character that must come first. -/
def expect? (c : Char) : List Char → Option (List Char)
  | first :: rest => if first = c then some rest else none
  | [] => none

/-- What follows the mark between date and time. -/
def readMark? : List Char → Option (List Char)
  | c :: rest => if c = 'T' ∨ c = 't' ∨ c = ' ' then some rest else none
  | [] => none

/-- Nanoseconds after a point, if there is one: nine digits count, further ones are passed over. -/
def readNanos? : List Char → Option (Nat × List Char)
  | '.' :: cs =>
    let (ds, rest) := spanDigits cs
    if ds.isEmpty then none
    else
      let counted := ds.take 9
      some (digitsValue counted * tenTo (9 - counted.length), rest)
  | cs => some (0, cs)

/-- An offset: `Z`, or a sign, two digits of hours, what `separator?` takes, two digits of minutes. -/
def readOffset? (separator? : List Char → Option (List Char)) (cs : List Char) :
    Option (Int × List Char) :=
  match cs with
  | 'Z' :: rest | 'z' :: rest => some (0, rest)
  | sign :: rest =>
    if sign = '+' ∨ sign = '-' ∨ sign = '−' then do
      let (hours, rest) ← readDigits? 2 2 rest
      let rest ← separator? rest
      let (minutes, rest) ← readDigits? 2 2 rest
      if 60 ≤ minutes then none
      let seconds : Int := hours * 3600 + minutes * 60
      return (if sign = '+' then seconds else -seconds, rest)
    else none
  | [] => none

namespace Zoned

/-- A time in the exchange format, all of the text. -/
def readStrict? (s : String) : Option Zoned := do
  let (year, cs) ← readDigits? 4 4 s.toList
  let cs ← expect? '-' cs
  let (month, cs) ← readDigits? 2 2 cs
  let cs ← expect? '-' cs
  let (day, cs) ← readDigits? 2 2 cs
  let cs ← readMark? cs
  let (hour, cs) ← readDigits? 2 2 cs
  let cs ← expect? ':' cs
  let (minute, cs) ← readDigits? 2 2 cs
  let cs ← expect? ':' cs
  let (second, cs) ← readDigits? 2 2 cs
  let (nanos, cs) ← readNanos? cs
  let (offset, cs) ← readOffset? (expect? ':') cs
  if cs.isEmpty then (Fields.mk ⟨year, month, day⟩ hour minute second nanos offset).zoned? else none

/-- A year: up to four digits, or a sign and any number of digits. -/
def readYear? : List Char → Option (Int × List Char)
  | '-' :: cs => (readDigits? 1 cs.length cs).map fun (n, rest) => (-(n : Int), rest)
  | '+' :: cs => (readDigits? 1 cs.length cs).map fun (n, rest) => ((n : Int), rest)
  | cs => (readDigits? 1 4 cs).map fun (n, rest) => ((n : Int), rest)

/-- A time in the exchange format or a loose form of it, all of the text but blanks at its end. -/
def readLoose? (s : String) : Option Zoned := do
  let (year, cs) ← readYear? (dropBlanks s.toList)
  let cs ← expect? '-' (dropBlanks cs)
  let (month, cs) ← readDigits? 1 2 (dropBlanks cs)
  let cs ← expect? '-' (dropBlanks cs)
  let (day, cs) ← readDigits? 1 2 (dropBlanks cs)
  let cs ← readMark? cs
  let (hour, cs) ← readDigits? 1 2 (dropBlanks cs)
  let cs ← expect? ':' (dropBlanks cs)
  let (minute, cs) ← readDigits? 1 2 (dropBlanks cs)
  let cs ← expect? ':' (dropBlanks cs)
  let (second, cs) ← readDigits? 1 2 (dropBlanks cs)
  let (nanos, cs) ← readNanos? cs
  let cs := dropBlanks cs
  let (offset, cs) ←
    if sameAsciiLetters (.ofList (cs.take 3)) "utc" then some (0, cs.drop 3)
    else readOffset? (fun cs => some (cs.dropWhile fun c => c = ':' || isBlank c)) cs
  if cs.all isBlank then (Fields.mk ⟨year, month, day⟩ hour minute second nanos offset).zoned?
  else none

/-- The day that the clock shows. -/
def date (z : Zoned) : Date := .ofDays ((z.instant.seconds + z.offset) / 86400)

/-- The second of the day that the clock shows. -/
def secondOfDay (z : Zoned) : Nat := ((z.instant.seconds + z.offset) % 86400).toNat

/-- The day, in words: `Tuesday, 05 March, 2024`. -/
def dateText (z : Zoned) : String :=
  let d := z.date
  s!"{d.weekdayName}, {padded 2 d.day} {d.monthName}, {writeYear d.year}"

/-- The day and the time of day on a twelve-hour clock: `Tuesday, March 05, 2024 02:07 PM`. -/
def dateTimeText (z : Zoned) : String :=
  let d := z.date
  let hour := z.secondOfDay / 3600
  let shown := if hour % 12 = 0 then 12 else hour % 12
  let half := if hour < 12 then "AM" else "PM"
  s!"{d.weekdayName}, {d.monthName} {padded 2 d.day}, {writeYear d.year} {padded 2 shown}:" ++
    s!"{padded 2 (z.secondOfDay / 60 % 60)} {half}"

end Zoned

end Orchestration.Time
