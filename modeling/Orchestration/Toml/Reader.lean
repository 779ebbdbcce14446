import Orchestration.Toml.Scalar
import Orchestration.Toml.Table

/-!
# Reading a configuration file

A file is a row of statements, one a line: the header of a table, the header of a further table in a row
of them, or a key with its value. `read?` puts what they say into one table.
-/

namespace Orchestration.Toml

/-! ### Between values -/

/-- The text without blanks in front. -/
def skipBlanks (cs : List Char) : List Char := cs.dropWhile isInlineBlank

/-- What stands at the end of a line, a comment left out. -/
def skipComment? : List Char → Option (List Char)
  | '#' :: cs =>
    match cs.dropWhile isTextChar with
    | [] => some []
    | rest => if (lineEnd? rest).isSome then some rest else none
  | cs => some cs

/-- The text without blanks, comments and line ends in front; `bound` is at least its length. -/
def skipLines? : Nat → List Char → Option (List Char)
  | 0, cs => some cs
  | bound + 1, cs => do
    let cs ← skipComment? (skipBlanks cs)
    match lineEnd? cs with
    | some (_, rest) => skipLines? bound rest
    | none => some cs

/-- The text without blanks, comments and line ends in front. -/
def skipFiller? (cs : List Char) : Option (List Char) := skipLines? cs.length cs

/-! ### Keys -/

/-- Whether a character may stand in a name without quotes. -/
def isBareChar (c : Char) : Bool := c.isAlphanum || c = '_' || c = '-'

/-- A name, and what follows it. -/
def readName? (cs : List Char) : Option (String × List Char) :=
  match readLine? cs with
  | some (name, rest) => some (.ofList name, rest)
  | none =>
    let name := cs.takeWhile isBareChar
    if name.isEmpty then none else some (.ofList name, cs.dropWhile isBareChar)

/-- Names with dots between them, and what follows them; `bound` exceeds the number of characters. -/
def readKeyWithin? : Nat → List Char → Option (Key × List Char)
  | 0, _ => none
  | bound + 1, cs => do
    let (name, rest) ← readName? (skipBlanks cs)
    match skipBlanks rest with
    | '.' :: rest =>
      let (key, rest) ← readKeyWithin? bound rest
      return (⟨name :: key.parents, key.name⟩, rest)
    | rest => return (⟨[], name⟩, rest)

/-- A key, and what follows it. -/
def readKey? (cs : List Char) : Option (Key × List Char) := readKeyWithin? (cs.length + 1) cs

/-- A key with the mark of its value, and what follows the mark. -/
def readKeyMark? (cs : List Char) : Option (Key × List Char) := do
  match ← readKey? cs with
  | (key, '=' :: rest) => return (key, skipBlanks rest)
  | _ => none

/-! ### Values -/

/-- How deep brackets may enclose each other. -/
def nestingLimit : Nat := 80

mutual

/-- A value inside so many further brackets, and what follows it; `bound` exceeds the number of
characters. -/
def readValue? : Nat → Nat → List Char → Option (Value × List Char)
  | 0, _, _ => none
  | bound + 1, levels, cs =>
    match cs, levels with
    | '[' :: cs, level + 1 => (readItems? bound level cs).map fun (items, rest) => (.array items, rest)
    | '\x7b' :: cs, level + 1 =>
      (readEntries? bound level [] cs).map fun (entries, rest) => (.table (valuesOf entries), rest)
    | '"' :: _, _ | '\'' :: _, _ =>
      (readText? cs).map fun (text, rest) => (.string (.ofList text), rest)
    | _, _ =>
      let (word, rest) := spanPlain cs
      (plainValue? word).map (·, rest)

/-- The values up to a closing bracket; a comma may follow the last. -/
def readItems? : Nat → Nat → List Char → Option (List Value × List Char)
  | 0, _, _ => none
  | bound + 1, level, cs => do
    match ← skipFiller? cs with
    | ']' :: rest => return ([], rest)
    | cs =>
      let (item, rest) ← readValue? bound level cs
      match ← skipFiller? rest with
      | ',' :: rest =>
        let (items, rest) ← readItems? bound level rest
        return (item :: items, rest)
      | ']' :: rest => return ([item], rest)
      | _ => none

/-- The entries up to a closing brace, put into a table; a comma may follow the last. -/
def readEntries? : Nat → Nat → Entries → List Char → Option (Entries × List Char)
  | 0, _, _, _ => none
  | bound + 1, level, held, cs => do
    match ← skipFiller? cs with
    | '\x7d' :: rest => return (held, rest)
    | cs =>
      let (key, rest) ← readKeyMark? cs
      let (value, rest) ← readValue? bound level rest
      let held ← assign key value held
      match ← skipFiller? rest with
      | ',' :: rest => readEntries? bound level held rest
      | '\x7d' :: rest => return (held, rest)
      | _ => none

end

/-! ### Statements -/

/-- What a line says. -/
inductive Statement where
  /-- the header of a table -/
  | header (key : Key)
  /-- the header of a further table in a row -/
  | nextHeader (key : Key)
  /-- a key and its value -/
  | entry (key : Key) (value : Value)

/-- A statement, and what follows it. -/
def readStatement? : List Char → Option (Statement × List Char)
  | '[' :: '[' :: cs => do
    match ← readKey? cs with
    | (key, ']' :: ']' :: rest) => return (.nextHeader key, rest)
    | _ => none
  | '[' :: cs => do
    match ← readKey? cs with
    | (key, ']' :: rest) => return (.header key, rest)
    | _ => none
  | cs => do
    let (key, rest) ← readKeyMark? cs
    let (value, rest) ← readValue? (rest.length + 1) nestingLimit rest
    return (.entry key value, rest)

/-- What follows the end of a line, blanks and a comment left out. -/
def endLine? (cs : List Char) : Option (List Char) := do
  match ← skipComment? (skipBlanks cs) with
  | [] => return []
  | cs => return (← lineEnd? cs).2

/-- The statements of a text; `bound` exceeds the number of characters. -/
def readStatements? : Nat → List Char → Option (List Statement)
  | 0, _ => none
  | bound + 1, cs => do
    match ← skipFiller? cs with
    | [] => return []
    | cs =>
      let (statement, rest) ← readStatement? cs
      let statements ← readStatements? bound (← endLine? rest)
      return statement :: statements

/-- Puts what statements say into a table, given the way to the table that was declared last. -/
def gather : List String → List Statement → Entries → Option Entries
  | _, [], entries => some entries
  | _, .header key :: rest, entries =>
    (declare key entries).bind (gather (key.parents ++ [key.name]) rest)
  | _, .nextHeader key :: rest, entries =>
    (declareNext key entries).bind (gather (key.parents ++ [key.name]) rest)
  | header, .entry key value :: rest, entries =>
    (assignIn header key value entries).bind (gather header rest)

/-- A mark of the encoding at the start of a text says nothing. -/
def dropByteOrderMark : List Char → List Char
  | '\ufeff' :: cs => cs
  | cs => cs

/-- The table that a text describes. -/
def read? (text : String) : Option Value := do
  let cs := dropByteOrderMark text.toList
  let statements ← readStatements? (cs.length + 1) cs
  return .table (valuesOf (← gather [] statements []))

end Orchestration.Toml
