import Orchestration.Number.Layout
import Orchestration.Number.Reading
import Orchestration.Text.Search
import Orchestration.Time.Calendar
import Orchestration.Toml.Value

/-!
# Texts, numbers and dates of a configuration file

* `readText?` — a text between quotes, on one line or several, with escapes or without.
* `plainValue?` — a value that is not quoted: a truth value, a number, a date or a time.
-/

namespace Orchestration.Toml

open Number Text Time

/-! ### Texts -/

/-- Whether a character may stand in a text as it is. -/
def isTextChar (c : Char) : Bool := c = '\t' || (' ' ≤ c && c ≠ '\x7f')

/-- Whether a character is a blank within a line. -/
def isInlineBlank (c : Char) : Bool := c = ' ' || c = '\t'

/-- The end of a line, and what follows it. -/
def lineEnd? : List Char → Option (List Char × List Char)
  | '\n' :: rest => some (['\n'], rest)
  | '\r' :: '\n' :: rest => some (['\r', '\n'], rest)
  | _ => none

/-- The number that so many hexadecimal digits stand for, and what follows them. -/
def readHex? : Nat → Nat → List Char → Option (Nat × List Char)
  | 0, n, cs => some (n, cs)
  | left + 1, n, c :: cs => (hexValue? c).bind fun d => readHex? left (n * 16 + d) cs
  | _ + 1, _, [] => none

/-- The character of a number, if it has one. -/
def charOf? (n : Nat) : Option Char :=
  if n < 0xD800 ∨ 0xDFFF < n ∧ n < 0x110000 then some (.ofNat n) else none

/-- The character that an escape names, given what follows the backslash, and what follows the escape. -/
def escape? : List Char → Option (Char × List Char)
  | [] => none
  | c :: cs =>
    let coded (digits : Nat) : Option (Char × List Char) :=
      (readHex? digits 0 cs).bind fun (n, rest) => (charOf? n).map (·, rest)
    match c with
    | '"' => some ('"', cs)
    | '\\' => some ('\\', cs)
    | 'b' => some ('\x08', cs)
    | 'f' => some ('\x0c', cs)
    | 'n' => some ('\n', cs)
    | 'r' => some ('\r', cs)
    | 't' => some ('\t', cs)
    | 'e' => some ('\x1b', cs)
    | 'x' => coded 2
    | 'u' => coded 4
    | 'U' => coded 8
    | _ => none

/-- What follows a backslash at the end of a line, with the blanks and lines after it left out. -/
def continuation? (cs : List Char) : Option (List Char) :=
  (lineEnd? (cs.dropWhile isInlineBlank)).map fun (_, rest) =>
    rest.dropWhile fun c => isInlineBlank c || c = '\n' || c = '\r'

/-- How a text is written. -/
structure TextForm where
  /-- the quote around it -/
  quote : Char
  /-- whether it may have several lines -/
  hasLines : Bool

/-- Whether backslashes have a meaning. -/
def TextForm.hasEscapes (f : TextForm) : Bool := f.quote = '"'

/-- The quotes at the end of a text of several lines, and what follows: up to two quotes in front of the
closing three belong to the text. -/
def closeLines? (quote : Char) (cs : List Char) : Option (List Char × List Char) :=
  let count := ((cs.take 5).takeWhile (· = quote)).length
  if count < 3 then none else some (List.replicate (count - 3) quote, cs.drop count)

/-- The end of a text, if it ends here: its last characters, and what follows it. -/
def TextForm.close? (f : TextForm) (cs : List Char) : Option (List Char × List Char) :=
  if f.hasLines then closeLines? f.quote cs
  else match cs with
    | c :: rest => if c = f.quote then some ([], rest) else none
    | [] => none

/-- The next characters of a text, and what follows them. -/
def TextForm.next? (f : TextForm) (cs : List Char) : Option (List Char × List Char) :=
  match cs with
  | [] => none
  | c :: rest =>
    if c = '\\' ∧ f.hasEscapes then
      match escape? rest with
      | some (c, rest) => some ([c], rest)
      | none => if f.hasLines then (continuation? rest).map ([], ·) else none
    else if isTextChar c then some ([c], rest)
    else if f.hasLines then lineEnd? cs
    else none

/-- The rest of a text, and what follows it; `bound` exceeds the number of characters. -/
def TextForm.read? (f : TextForm) : Nat → List Char → Option (List Char × List Char)
  | 0, _ => none
  | bound + 1, cs =>
    match f.close? cs with
    | some found => some found
    | none => do
      let (here, rest) ← f.next? cs
      let (more, rest) ← f.read? bound rest
      return (here ++ more, rest)

/-- A line end right after the opening of a text of several lines does not belong to it. -/
def dropLineEnd (cs : List Char) : List Char := ((lineEnd? cs).map (·.2)).getD cs

/-- A text of one line, given by its opening quote, and what follows it. -/
def readLine? : List Char → Option (List Char × List Char)
  | c :: cs =>
    if c = '"' ∨ c = '\'' then (TextForm.mk c false).read? (cs.length + 1) cs else none
  | [] => none

/-- A text, given by its opening quotes, and what follows it. -/
def readText? : List Char → Option (List Char × List Char)
  | a :: b :: c :: cs =>
    if (a = '"' ∨ a = '\'') ∧ b = a ∧ c = a then
      let cs := dropLineEnd cs
      (TextForm.mk a true).read? (cs.length + 1) cs
    else readLine? (a :: b :: c :: cs)
  | cs => readLine? cs

/-! ### Numbers -/

/-- Digits, with single underscores between them left out. -/
def digitsIn? (isDigit : Char → Bool) (cs : List Char) : Option (List Char) :=
  let groups := splitOn '_' cs
  if groups.all fun g => !g.isEmpty && g.all isDigit then some groups.flatten else none

/-- Whether a character is a digit of a number system. -/
def isDigitOf (base : Nat) (c : Char) : Bool := ((hexValue? c).map (decide <| · < base)).getD false

/-- A whole number in a number system of its own. -/
def basedInteger? (base : Nat) (cs : List Char) : Option Int :=
  (digitsIn? (isDigitOf base) cs).map fun ds =>
    (ds.foldl (fun n c => n * base + (hexValue? c).getD 0) 0 : Nat)

/-- Whether digits start with a zero that says nothing. -/
def hasIdleZero (ds : List Char) : Bool := 1 < ds.length && ds.head? = some '0'

/-- The digits of a decimal number in front of its point. -/
def wholeDigits? (cs : List Char) : Option (List Char) :=
  (digitsIn? Char.isDigit cs).filter (!hasIdleZero ·)

/-- Whether the program can hold a whole number. -/
def isHeld (n : Int) : Bool := -(twoTo 127 : Int) ≤ n && n < twoTo 128

/-- A whole number. -/
def integer? (cs : List Char) : Option Int :=
  match cs with
  | '0' :: 'x' :: cs => basedInteger? 16 cs
  | '0' :: 'o' :: cs => basedInteger? 8 cs
  | '0' :: 'b' :: cs => basedInteger? 2 cs
  | _ =>
    let (negative, cs) := readSign cs
    (wholeDigits? cs).map fun ds => if negative then -(digitsValue ds : Int) else digitsValue ds

/-- The digits after a point, if there is one. -/
def fraction? : List Char → Option (List Char)
  | [] => some []
  | '.' :: cs => digitsIn? Char.isDigit cs
  | _ => none

/-- The power of ten after its mark, if there is one. -/
def power? : List Char → Option Int
  | [] => some 0
  | _ :: cs =>
    let (negative, cs) := readSign cs
    (digitsIn? Char.isDigit cs).map fun ds =>
      if negative then -(digitsValue ds : Int) else digitsValue ds

/-- Whether a character introduces a power of ten. -/
def isPowerMark (c : Char) : Bool := c = 'e' || c = 'E'

/-- A number with a point or an exponent; one that is too large is refused. -/
def decimal? (cs : List Char) : Option Float := do
  let (negative, cs) := readSign cs
  let base := cs.takeWhile (!isPowerMark ·)
  let whole ← wholeDigits? (base.takeWhile (· ≠ '.'))
  let fraction ← fraction? (base.dropWhile (· ≠ '.'))
  let exponent ← power? (cs.dropWhile (!isPowerMark ·))
  let x := Numeral.toFloat ⟨negative, whole, fraction, exponent⟩
  if isFinite x then some x else none

/-- A number that is not finite. -/
def unbounded? (cs : List Char) : Option Float :=
  let (negative, cs) := readSign cs
  if cs = "inf".toList then some (floatOfParts (.infinite negative))
  else if cs = "nan".toList then some (floatOfParts .nan)
  else none

/-! ### Dates and times -/

/-- So many digits, and what follows them. -/
def readCount? (count : Nat) (cs : List Char) : Option (Nat × List Char) :=
  let ds := cs.take count
  if ds.length = count ∧ ds.all Char.isDigit then some (digitsValue ds, cs.drop count) else none

/-- What follows a date. -/
def afterDate? (cs : List Char) : Option (List Char) := do
  let (year, cs) ← readCount? 4 cs
  let some ('-', cs) := cs.head?.map (·, cs.tail) | none
  let (month, cs) ← readCount? 2 cs
  let some ('-', cs) := cs.head?.map (·, cs.tail) | none
  let (day, cs) ← readCount? 2 cs
  if Date.isValid ⟨year, month, day⟩ then some cs else none

/-- What follows a fraction of a second, if there is one. -/
def afterFraction? : List Char → Option (List Char)
  | '.' :: cs => if (cs.head?.map Char.isDigit).getD false then some (cs.dropWhile Char.isDigit) else none
  | cs => some cs

/-- What follows the seconds of a time of day, which may be left out. -/
def afterSeconds? : List Char → Option (List Char)
  | ':' :: cs => (readCount? 2 cs).bind fun (second, cs) =>
    if second ≤ 60 then afterFraction? cs else none
  | cs => some cs

/-- What follows two numbers of two digits with a colon between them. -/
def afterHours? (mostHours : Nat) (cs : List Char) : Option (List Char) := do
  let (hours, cs) ← readCount? 2 cs
  let some (':', cs) := cs.head?.map (·, cs.tail) | none
  let (minutes, cs) ← readCount? 2 cs
  if hours ≤ mostHours ∧ minutes < 60 then some cs else none

/-- What follows a time of day. -/
def afterTime? (cs : List Char) : Option (List Char) := (afterHours? 23 cs).bind afterSeconds?

/-- Whether this is the distance of a clock from universal time, or nothing. -/
def isOffset : List Char → Bool
  | [] => true
  | c :: cs =>
    if c = 'Z' ∨ c = 'z' then cs.isEmpty
    else (c = '+' || c = '-') && afterHours? 23 cs = some []

/-- Whether this is a time of day, with or without an offset. -/
def isClock (cs : List Char) : Bool := ((afterTime? cs).map isOffset).getD false

/-- Whether this is a date, a time of day, or both. -/
def isMoment (cs : List Char) : Bool :=
  match afterDate? cs with
  | none => afterTime? cs = some []
  | some [] => true
  | some (c :: cs) => (c = 'T' || c = 't' || c = ' ') && isClock cs

/-! ### Values that are not quoted -/

/-- A value that is not quoted. -/
def plainValue? (cs : List Char) : Option Value :=
  if cs = "true".toList then some (.boolean true)
  else if cs = "false".toList then some (.boolean false)
  else match integer? cs with
    | some n => if isHeld n then some (.integer n) else none
    | none =>
      match unbounded? cs, decimal? cs with
      | some x, _ | none, some x => some (.float x)
      | none, none => if isMoment cs then some (.moment (.ofList cs)) else none

/-- Whether a character ends a value that is not quoted. -/
def endsPlain (c : Char) : Bool :=
  isInlineBlank c || c = '\n' || c = '\r' || "=,[]\x7b\x7d#\"'".toList.contains c

/-- The characters of a value that is not quoted, and what follows them. A blank may stand between a date
and a time of day. -/
def spanPlain (cs : List Char) : List Char × List Char :=
  let first := cs.takeWhile (!endsPlain ·)
  match afterDate? first, cs.dropWhile (!endsPlain ·) with
  | some [], ' ' :: c :: rest =>
    if c.isDigit then
      (first ++ ' ' :: (c :: rest).takeWhile (!endsPlain ·), (c :: rest).dropWhile (!endsPlain ·))
    else (first, ' ' :: c :: rest)
  | _, rest => (first, rest)

end Orchestration.Toml
