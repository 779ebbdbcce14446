import Orchestration.Number.Reading

/-!
# Tokens of a document

A document text as brackets, commas, names and literals, blanks left out.

A text literal is kept even if its escapes name no character (half of a pair of units): a reader that
passes the literal over does not mind, one that wants the text refuses it.

* `Token.scan?` — the tokens of a text, if it consists of tokens.
-/

namespace Orchestration

open Number

/-- A token of a document. -/
inductive JsonToken where
  | leftBrace
  | rightBrace
  | leftBracket
  | rightBracket
  | comma
  | colon
  | null
  | bool (value : Bool)
  /-- a number, and whether it is written without point and exponent -/
  | number (numeral : Numeral) (isWhole : Bool)
  /-- a text, or `none` if its escapes name no text -/
  | string (text : Option String)
  deriving DecidableEq, Repr

namespace JsonToken

/-- Whether a character may stand between tokens. -/
def isSpace (c : Char) : Bool := c = ' ' || c = '\n' || c = '\t' || c = '\r'

/-- The number that four hexadecimal digits stand for. -/
def hexUnit? (a b c d : Char) : Option Nat := do
  let a ← hexValue? a
  let b ← hexValue? b
  let c ← hexValue? c
  let d ← hexValue? d
  return ((a * 16 + b) * 16 + c) * 16 + d

/-- The character after a backslash as the character it names. -/
def escaped? : Char → Option Char
  | '"' => some '"'
  | '\\' => some '\\'
  | '/' => some '/'
  | 'b' => some '\x08'
  | 'f' => some '\x0c'
  | 'n' => some '\n'
  | 'r' => some '\r'
  | 't' => some '\t'
  | _ => none

/-- What a text literal is made of. -/
inductive Part where
  /-- a character, plain or escaped -/
  | char (c : Char)
  /-- a unit of 16 bits -/
  | unit (n : Nat)

/-- The parts of a text literal up to its closing quote, and what follows it. -/
def readParts? : List Char → Option (List Part × List Char)
  | [] => none
  | '"' :: rest => some ([], rest)
  | '\\' :: 'u' :: a :: b :: c :: d :: rest =>
    match hexUnit? a b c d, readParts? rest with
    | some n, some (parts, after) => some (.unit n :: parts, after)
    | _, _ => none
  | '\\' :: e :: rest =>
    match escaped? e, readParts? rest with
    | some c, some (parts, after) => some (.char c :: parts, after)
    | _, _ => none
  | c :: rest =>
    if c = '\\' ∨ c.toNat < 32 then none
    else (readParts? rest).map fun (parts, after) => (.char c :: parts, after)

/-- The text that the parts of a literal name: two halves of a pair make one character, and a half
that stands alone makes none. -/
def joinParts? : List Part → Option (List Char)
  | [] => some []
  | .char c :: rest => (joinParts? rest).map (c :: ·)
  | .unit high :: .unit low :: rest =>
    if 0xD800 ≤ high ∧ high ≤ 0xDBFF then
      if 0xDC00 ≤ low ∧ low ≤ 0xDFFF then
        (joinParts? rest).map
          (Char.ofNat (0x10000 + (high - 0xD800) * 0x400 + (low - 0xDC00)) :: ·)
      else none
    else if 0xDC00 ≤ high ∧ high ≤ 0xDFFF then none
    else (joinParts? (.unit low :: rest)).map (Char.ofNat high :: ·)
  | .unit n :: rest =>
    if 0xD800 ≤ n ∧ n ≤ 0xDFFF then none
    else (joinParts? rest).map (Char.ofNat n :: ·)

/-- A text literal after its opening quote, and what follows it. -/
def readString? (cs : List Char) : Option (JsonToken × List Char) :=
  (readParts? cs).map fun (parts, rest) => (.string ((joinParts? parts).map .ofList), rest)

/-- The digits after a point, at least one; without a point, none. -/
def readFraction? : List Char → Option (List Char × List Char)
  | '.' :: cs =>
    let (ds, rest) := spanDigits cs
    if ds.isEmpty then none else some (ds, rest)
  | cs => some ([], cs)

/-- The power of ten after an exponent mark, with at least one digit; without a mark, none. -/
def readPower? : List Char → Option (Option Int × List Char)
  | [] => some (none, [])
  | c :: cs =>
    if c = 'e' ∨ c = 'E' then
      let (negative, cs) := readSign cs
      let (ds, rest) := spanDigits cs
      if ds.isEmpty then none
      else some (some (if negative then -(digitsValue ds : Int) else digitsValue ds), rest)
    else some (none, c :: cs)

/-- A number, and what follows it. Its whole part has no leading zero. -/
def readNumber? (cs : List Char) : Option (JsonToken × List Char) := do
  let (negative, cs) := match cs with
    | '-' :: cs => (true, cs)
    | cs => (false, cs)
  let (whole, cs) := match cs with
    | '0' :: cs => (['0'], cs)
    | cs => spanDigits cs
  if whole.isEmpty then none
  let (fraction, cs) ← readFraction? cs
  let (power, cs) ← readPower? cs
  return (.number ⟨negative, whole, fraction, power.getD 0⟩ (fraction.isEmpty && power.isNone), cs)

/-- A literal of letters, and what follows it. -/
def readWord? (cs : List Char) : Option (JsonToken × List Char) :=
  match "null".toList.isPrefixOf? cs with
  | some rest => some (.null, rest)
  | none =>
    match "true".toList.isPrefixOf? cs with
    | some rest => some (.bool true, rest)
    | none => ("false".toList.isPrefixOf? cs).map (.bool false, ·)

/-- The token that a text without blanks in front starts with, and what follows it. -/
def readToken? : List Char → Option (JsonToken × List Char)
  | [] => none
  | '{' :: cs => some (.leftBrace, cs)
  | '}' :: cs => some (.rightBrace, cs)
  | '[' :: cs => some (.leftBracket, cs)
  | ']' :: cs => some (.rightBracket, cs)
  | ',' :: cs => some (.comma, cs)
  | ':' :: cs => some (.colon, cs)
  | '"' :: cs => readString? cs
  | c :: cs => if c = '-' || c.isDigit then readNumber? (c :: cs) else readWord? (c :: cs)

/-- The tokens of a text; `bound` is at least the number of its characters. -/
def scanWithin? : Nat → List Char → Option (List JsonToken)
  | 0, cs => if (cs.dropWhile isSpace).isEmpty then some [] else none
  | bound + 1, cs =>
    match cs.dropWhile isSpace with
    | [] => some []
    | c :: cs => do
      let (token, rest) ← readToken? (c :: cs)
      let tokens ← scanWithin? bound rest
      return token :: tokens

/-- The tokens of a text. -/
def scan? (s : String) : Option (List JsonToken) :=
  let cs := s.toList
  scanWithin? cs.length cs

end JsonToken

end Orchestration
