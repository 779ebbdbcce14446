import Orchestration.Text.QuoteTable
import Orchestration.Text.Ranges

/-!
# Quotations in messages

A message that quotes a text puts it between double quotes and spells out what could not be read
back: quotes and backslashes, the common controls by their letters, and other characters that do
not print by their number, as in `\u{7f}`.
-/

namespace Orchestration.Text

/-- A number in lower-case hexadecimal digits, without leading zeros. -/
def hex (n : Nat) : String := .ofList (Nat.toDigits 16 n)

/-- A character as a quotation spells it. -/
def spell (c : Char) : String :=
  match c with
  | '"' => "\\\""
  | '\\' => "\\\\"
  | '\n' => "\\n"
  | '\r' => "\\r"
  | '\t' => "\\t"
  | '\x00' => "\\0"
  | _ => if inRanges spelledRanges c then "\\u\x7b" ++ hex c.toNat ++ "\x7d" else c.toString

/-- A text between quotes, with what does not print spelled out. -/
def quoted (s : String) : String :=
  "\"" ++ String.join (s.toList.map spell) ++ "\""

end Orchestration.Text
