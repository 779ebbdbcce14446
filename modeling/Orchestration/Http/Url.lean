import Orchestration.Http.Exchange
import Orchestration.Number.Layout
import Orchestration.Number.Reading
import Orchestration.Text.Search

/-!
# Addresses

An address is written in many ways and has one normal form: a small scheme and host, no port that goes
without saying, no `.` and `..` in the path, and a percent sign with two digits for every byte that may not
stand in its place. Names of hosts are those of plain ASCII.

* `Url.read?` — the parts of an address.
* `Url.text` — the normal form.
* `Request.failureText` — the words for a request that reaches nobody.
-/

namespace Orchestration.Http

open Number Text

/-- An address in its parts, each in normal form. -/
structure Url where
  /-- the scheme -/
  scheme : String
  /-- the host with its port, if the address has one -/
  authority : Option String
  /-- the path -/
  path : String
  /-- what follows the question mark -/
  query : Option String
  /-- what follows the number sign -/
  fragment : Option String
  deriving DecidableEq

namespace Url

/-- The address in writing. -/
def text (u : Url) : String :=
  let authority := match u.authority with
    | some a => "//" ++ a
    | none => ""
  let query := match u.query with
    | some q => "?" ++ q
    | none => ""
  let fragment := match u.fragment with
    | some f => "#" ++ f
    | none => ""
  u.scheme ++ ":" ++ authority ++ u.path ++ query ++ fragment

/-! ### Bytes in writing -/

/-- A byte as a percent sign and two digits. -/
def percentByte (b : UInt8) : List Char :=
  let digit (n : Nat) : Char := (Nat.digitChar n).toUpper
  ['%', digit (b.toNat / 16), digit (b.toNat % 16)]

/-- Characters with those that may not stand here, and all beyond ASCII, written as bytes. -/
def percentEncode (isKept : Char → Bool) (cs : List Char) : List Char :=
  cs.flatMap fun c =>
    if ' ' ≤ c ∧ c < '\x7f' ∧ isKept c then [c]
    else (String.singleton c).toUTF8.toList.flatMap percentByte

/-- Whether a character may stand in a fragment. -/
def isFragmentChar (c : Char) : Bool := !" \"<>`".toList.contains c

/-- Whether a character may stand in a query. -/
def isQueryChar (isCommon : Bool) (c : Char) : Bool :=
  !" \"#<>".toList.contains c && !(isCommon && c = '\'')

/-- Whether a character may stand in a path. -/
def isPathChar (c : Char) : Bool := isFragmentChar c && !"#?\x7b\x7d".toList.contains c

/-- Bytes that are written with a percent sign as the characters they are, if they are of ASCII. -/
def percentDecode? : List Char → Option (List Char)
  | '%' :: a :: b :: rest =>
    match hexValue? a, hexValue? b with
    | some high, some low =>
      if high < 8 then (percentDecode? rest).map (Char.ofNat (16 * high + low) :: ·) else none
    | _, _ => (percentDecode? (a :: b :: rest)).map ('%' :: ·)
  | c :: rest => (percentDecode? rest).map (c :: ·)
  | [] => some []

/-! ### Hosts -/

/-- Whether no host may have this character in its name. -/
def isForbiddenInHost (c : Char) : Bool :=
  c ≤ ' ' || '\x7f' ≤ c || "#/:<>?@[\\]^|%".toList.contains c

/-- A number of the address of a machine: after `0x` in sixteens, after `0` in eights, else in tens. -/
def hostNumber? (cs : List Char) : Option Nat :=
  let digits (base : Nat) (ds : List Char) : Option Nat :=
    ds.foldl (fun n d => do
      let d ← hexValue? d
      if d < base then return (← n) * base + d else none) (some 0)
  match cs with
  | [] => none
  | '0' :: 'x' :: ds | '0' :: 'X' :: ds => digits 16 ds
  | ['0'] => some 0
  | '0' :: ds => digits 8 ds
  | ds => digits 10 ds

/-- The parts of a name between its dots; a dot at the end says nothing. -/
def hostParts (host : List Char) : List (List Char) :=
  let parts := splitOn '.' host
  if parts.length > 1 ∧ parts.getLast? = some [] then parts.dropLast else parts

/-- Whether a name ends in a number, and so has to be the address of a machine. -/
def endsInNumber (host : List Char) : Bool :=
  match (hostParts host).getLast? with
  | none => false
  | some last => (!last.isEmpty && last.all Char.isDigit) || (hostNumber? last).isSome

/-- The address of a machine as four bytes: the last number fills the bytes that are left. -/
def machineAddress? (host : List Char) : Option Nat := do
  let numbers ← (hostParts host).mapM hostNumber?
  if 4 < numbers.length then none
  let first := numbers.dropLast
  let last ← numbers.getLast?
  if first.any (255 < ·) || twoTo (8 * (4 - first.length)) ≤ last then none
  return first.foldl (fun n b => n * 256 + b) 0 * twoTo (8 * (4 - first.length)) + last

/-- Four bytes with dots between them. -/
def writeMachine (n : Nat) : String :=
  ".".intercalate ([16777216, 65536, 256, 1].map fun unit => .ofList (digitChars (n / unit % 256)))

/-- A host in normal form. -/
def host? (cs : List Char) : Option String :=
  match cs with
  | '[' :: rest =>
    let isPart (c : Char) : Bool := (hexValue? c).isSome || c = ':' || c = '.'
    if rest.getLast? = some ']' ∧ rest.dropLast.all isPart ∧ rest.dropLast.contains ':' then
      some (.ofList (cs.map Char.toLower))
    else none
  | _ => do
    let host := (← percentDecode? cs).map Char.toLower
    if host.isEmpty || host.any isForbiddenInHost then none
    else if endsInNumber host then (machineAddress? host).map writeMachine
    else some (.ofList host)

/-- The port that goes without saying. -/
def defaultPort? (scheme : String) : Option Nat :=
  match scheme with
  | "http" | "ws" => some 80
  | "https" | "wss" => some 443
  | "ftp" => some 21
  | _ => none

/-- Host and port in normal form; who is to be logged in is left out. -/
def authority? (scheme : String) (cs : List Char) : Option String := do
  let place := match splitLast? '@' cs with
    | some (_, place) => place
    | none => cs
  let (host, port) := match splitLast? ':' place with
    | some (host, port) => if port.contains ']' then (place, []) else (host, port)
    | none => (place, [])
  let host ← host? host
  if port.isEmpty then return host
  if !port.all Char.isDigit || 65535 < digitsValue port then none
  if defaultPort? scheme = some (digitsValue port) then return host
  return host ++ ":" ++ .ofList (digitChars (digitsValue port))

/-! ### Paths -/

/-- Whether a part of a path stands for the directory it is in. -/
def isHere (part : List Char) : Bool := [".", "%2e"].contains (String.ofList (part.map Char.toLower))

/-- Whether a part of a path stands for the directory above. -/
def isAbove (part : List Char) : Bool :=
  ["..", ".%2e", "%2e.", "%2e%2e"].contains (String.ofList (part.map Char.toLower))

/-- The parts of a path without those that stand for directories, the last first. -/
def walkParts : List (List Char) → List (List Char) → List (List Char)
  | here, [] => here
  | here, [last] =>
    if isAbove last then [] :: here.tail else if isHere last then [] :: here else last :: here
  | here, part :: parts =>
    if isAbove part then walkParts here.tail parts
    else if isHere part then walkParts here parts
    else walkParts (part :: here) parts

/-- A path in normal form. -/
def normalPath (cs : List Char) : String :=
  let parts := walkParts [] (splitOn '/' cs)
  .join (parts.reverse.map fun part => "/" ++ .ofList (percentEncode isPathChar part))

/-! ### Reading -/

/-- Whether a scheme is one of those whose addresses always have a host. -/
def isCommon (scheme : String) : Bool := (defaultPort? scheme).isSome

/-- The scheme, and what follows its colon. -/
def readScheme? (cs : List Char) : Option (String × List Char) :=
  let isPart (c : Char) : Bool := c.isAlphanum || c = '+' || c = '-' || c = '.'
  match cs.takeWhile isPart, cs.dropWhile isPart with
  | c :: name, ':' :: rest =>
    if c.isAlpha then some (.ofList ((c :: name).map Char.toLower), rest) else none
  | _, _ => none

/-- A text up to a mark, and what follows the mark, if it is there. -/
def cutAt (mark : Char) (cs : List Char) : List Char × Option (List Char) :=
  match cs.dropWhile (· ≠ mark) with
  | [] => (cs, none)
  | _ :: rest => (cs.takeWhile (· ≠ mark), some rest)

/-- The parts of an address with a host. -/
def withHost? (scheme : String) (common : Bool) (cs : List Char) (query fragment : Option String) :
    Option Url := do
  let ends (c : Char) : Bool := c = '/' || (common && c = '\\')
  let authority ← authority? scheme (cs.takeWhile (!ends ·))
  let rest := (cs.dropWhile (!ends ·)).map fun c => if common && c = '\\' then '/' else c
  let path := match rest with
    | [] => if common then "/" else ""
    | _ :: rest => normalPath rest
  return { scheme, authority := some authority, path, query, fragment }

/-- The parts of an address. -/
def read? (address : String) : Option Url := do
  let isOutside (c : Char) : Bool := c ≤ ' '
  let cs := ((address.toList.dropWhile isOutside).reverse.dropWhile isOutside).reverse
  let cs := cs.filter fun c => c ≠ '\t' ∧ c ≠ '\n' ∧ c ≠ '\r'
  let (scheme, rest) ← readScheme? cs
  let common := isCommon scheme
  let (rest, fragment) := cutAt '#' rest
  let (rest, query) := cutAt '?' rest
  let query := query.map fun q => .ofList (percentEncode (isQueryChar common) q)
  let fragment := fragment.map fun f => .ofList (percentEncode isFragmentChar f)
  if common then
    withHost? scheme true (rest.dropWhile fun c => c = '/' || c = '\\') query fragment
  else match rest with
    | '/' :: '/' :: rest => withHost? scheme false rest query fragment
    | _ =>
      let path := .ofList (percentEncode (fun _ => true) rest)
      return { scheme, authority := none, path, query, fragment }

end Url

/-- Whether a text may be the value of a header field. -/
def isHeaderValue (s : String) : Bool := s.toList.all fun c => c = '\t' || (' ' ≤ c && c ≠ '\x7f')

/-- The words for a request that reaches nobody: it cannot be put together, or cannot be sent. -/
def Request.failureText (r : Request) : String :=
  match Url.read? r.url with
  | none => "builder error"
  | some u =>
    if u.authority.isNone then s!"builder error for url ({u.text})"
    else if !r.headers.all (isHeaderValue ·.2) then "builder error"
    else if u.scheme = "http" ∨ u.scheme = "https" then s!"error sending request for url ({u.text})"
    else s!"builder error for url ({u.text})"

/-- An address without slashes at its end. -/
def withoutEndSlashes (address : String) : String :=
  .ofList (address.toList.reverse.dropWhile (· = '/')).reverse

end Orchestration.Http
