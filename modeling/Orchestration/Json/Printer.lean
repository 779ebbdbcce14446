import Orchestration.Json.Value
import Orchestration.Number.Layout

/-!
# Documents in writing

* `Json.compact` — without blanks.
* `Json.pretty` — one item or field a line, indented by two spaces for each level.

In a text only quotes, backslashes and controls are escaped.
-/

namespace Orchestration

namespace Json

open Number

/-- A hexadecimal digit. -/
def hexDigit (n : Nat) : Char := Nat.digitChar n

/-- A character inside a text literal. -/
def escape (c : Char) : List Char :=
  match c with
  | '"' => ['\\', '"']
  | '\\' => ['\\', '\\']
  | '\n' => ['\\', 'n']
  | '\r' => ['\\', 'r']
  | '\t' => ['\\', 't']
  | '\x08' => ['\\', 'b']
  | '\x0c' => ['\\', 'f']
  | _ =>
    if c.toNat < 32 then ['\\', 'u', '0', '0', hexDigit (c.toNat / 16), hexDigit (c.toNat % 16)]
    else [c]

/-- A text literal. -/
def writeString (s : String) : List Char :=
  '"' :: s.toList.flatMap escape ++ ['"']

/-- A whole number in digits. -/
def writeInt (n : Int) : List Char :=
  if n < 0 then '-' :: digitChars n.natAbs else digitChars n.natAbs

/-- A number; what no digits can write is `null`. -/
def writeNumber : JsonNumber → List Char
  | .integer n => writeInt n
  | .double x => ((documentText? x).getD "null").toList
  | .single x => (x.documentText?.getD "null").toList

/-- A literal without parts. -/
def writeBool (b : Bool) : List Char := if b then "true".toList else "false".toList

mutual

/-- A document without blanks. -/
def write : Json → List Char
  | .null => "null".toList
  | .bool b => writeBool b
  | .number n => writeNumber n
  | .string s => writeString s
  | .array items => '[' :: writeItems items ++ [']']
  | .object fields => '\x7b' :: writeFields fields ++ ['\x7d']

/-- Documents with commas between them. -/
def writeItems : List Json → List Char
  | [] => []
  | [item] => write item
  | item :: items => write item ++ ',' :: writeItems items

/-- Named documents with commas between them. -/
def writeFields : List (String × Json) → List Char
  | [] => []
  | [(name, value)] => writeString name ++ ':' :: write value
  | (name, value) :: fields => writeString name ++ ':' :: write value ++ ',' :: writeFields fields

end

/-- A new line with the indentation of a level. -/
def newline (level : Nat) : List Char := '\n' :: List.replicate (2 * level) ' '

mutual

/-- A document with one item or field a line, inside `level` brackets. -/
def writePretty (level : Nat) : Json → List Char
  | .null => "null".toList
  | .bool b => writeBool b
  | .number n => writeNumber n
  | .string s => writeString s
  | .array [] => ['[', ']']
  | .array items => '[' :: prettyItems (level + 1) items ++ newline level ++ [']']
  | .object [] => ['\x7b', '\x7d']
  | .object fields => '\x7b' :: prettyFields (level + 1) fields ++ newline level ++ ['\x7d']

/-- Documents, each on a line of its own. -/
def prettyItems (level : Nat) : List Json → List Char
  | [] => []
  | [item] => newline level ++ writePretty level item
  | item :: items =>
    newline level ++ writePretty level item ++ ',' :: prettyItems level items

/-- Named documents, each on a line of its own. -/
def prettyFields (level : Nat) : List (String × Json) → List Char
  | [] => []
  | [(name, value)] => newline level ++ writeString name ++ ':' :: ' ' :: writePretty level value
  | (name, value) :: fields =>
    newline level ++ writeString name ++ ':' :: ' ' :: writePretty level value ++
      ',' :: prettyFields level fields

end

/-- A document without blanks. -/
def compact (j : Json) : String := .ofList j.write

/-- A document for a reader's eyes. -/
def pretty (j : Json) : String := .ofList (j.writePretty 0)

end Json

end Orchestration
