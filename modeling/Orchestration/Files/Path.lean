/-!
# Paths

A path as it is written, the directory it lies in, and the parts it leads through.

* `parent?` — the path of the directory; parts that say nothing (`/` twice, `/.`) are passed over at
  its end.
* `join` — one path inside another; an absolute path stands for itself.
* `expandHome` — a path that starts with `~/` inside the home directory.
-/

namespace Orchestration.Files

/-- What stays of a path, read from its end, when the parts at the end that say nothing are left out.
The root stays. -/
def dropIdle : List Char → List Char
  | ['/'] => ['/']
  | '/' :: rest => dropIdle rest
  | '.' :: '/' :: rest => dropIdle ('/' :: rest)
  | cs => cs

/-- The directory that a path lies in; a bare name lies in the path that is empty. -/
def parent? (path : String) : Option String :=
  match dropIdle path.toList.reverse with
  | [] => none
  | ['/'] => none
  | cs =>
    match cs.dropWhile (· ≠ '/') with
    | [] => some ""
    | rest => some (.ofList (dropIdle rest).reverse)

/-- Whether a path starts at the root. -/
def isAbsolute (path : String) : Bool := path.toList.head? = some '/'

/-- A path inside a directory. -/
def join (directory path : String) : String :=
  if isAbsolute path then path
  else if directory.isEmpty ∨ directory.toList.getLast? = some '/' then directory ++ path
  else directory ++ "/" ++ path

/-- A path that starts with `~/` inside the home directory, if there is one. -/
def expandHome (home : Option String) (path : String) : String :=
  match home, path.toList with
  | some home, '~' :: '/' :: rest => join home (.ofList rest)
  | _, _ => path

end Orchestration.Files
