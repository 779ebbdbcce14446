import Orchestration.Files.Tree
import Orchestration.Http.Url
import Orchestration.Memory.Table
import Orchestration.Memory.Volatile
import Orchestration.Outside

/-!
# A world in memory

Surroundings that are a value: a tree of files, stores, a clock, a network that is a function, and a model
that answers from a script. Programs run against it without touching the machine, and what they did can
be looked up afterwards.

Unless a world says otherwise its network reaches nobody.

* `World.answer` — how the world answers a question.
* `World.run` — a program against a world.
-/

namespace Orchestration

open Files Memory Time

/-- A request to the attached model. -/
structure ModelCall where
  /-- the prompt -/
  prompt : String
  /-- the settings -/
  settings : CompletionSettings

/-- Surroundings in memory. -/
structure World where
  /-- what the attached model will answer, in order -/
  script : List (Except AiError String) := []
  /-- what the attached model was asked, in order -/
  calls : List ModelCall := []
  /-- what comes back over the network -/
  network : Http.Request → Except String Http.Response := fun r => .error r.failureText
  /-- the files -/
  files : Tree := {}
  /-- the collections in memory -/
  collections : Volatile := ∅
  /-- the private database -/
  tables : Database := .fresh
  /-- the environment variables -/
  environment : List (String × String) := []
  /-- the time -/
  time : Timestamp := ⟨0, 0⟩
  /-- how far the clocks of this place are ahead of universal time, in seconds -/
  offset : Int := 0
  /-- how many keys were given out -/
  keys : Nat := 0
  /-- what was shown to the user -/
  shown : String := ""

namespace World

/-- Takes the next answer from the script. -/
def complete (w : World) (prompt : String) (settings : CompletionSettings) :
    Except AiError String × World :=
  let w := { w with calls := w.calls ++ [ModelCall.mk prompt settings] }
  match w.script with
  | [] => (.error (.invalidResponse "script exhausted"), w)
  | answer :: rest => (answer, { w with script := rest })

/-- The time some nanoseconds later. -/
def later (t : Timestamp) (nanoseconds : Nat) : Timestamp :=
  let nanos := t.nanos + nanoseconds
  ⟨t.seconds + (nanos / 1000000000 : Nat), nanos % 1000000000⟩

/-- The key with the given number: keys come in increasing order. -/
def keyText (n : Nat) : String :=
  let digits := Nat.toDigits 16 n
  "01900000-0000-7000-8000-" ++ .ofList (List.replicate (12 - digits.length) '0' ++ digits)

/-- Changes files, if that can be done. -/
def changeFiles (w : World) : Except FileError Tree → Except FileError Unit × World
  | .ok files => (.ok (), { w with files })
  | .error e => (.error e, w)

/-- What there is under a path. -/
def look (w : World) (path : String) : Option FileKind :=
  match w.files.find path with
  | .ok .directory => some .directory
  | .ok (.text s) => some (.file s.utf8ByteSize)
  | .ok (.database d) => some (.file (if d.tables.isNone then 0 else 4096))
  | .error _ => none

/-- The world with a text in a file, if it can be put there. -/
def withFile (w : World) (path text : String) : World :=
  match w.files.write path text with
  | .ok files => { w with files }
  | .error _ => w

/-- The database under a path and where it is; a file that is not there is made. -/
def openDatabase (w : World) (path : String) : Except DatabaseError (List String × Database) :=
  match w.files.place path with
  | .error e => .error (.failed s!"unable to open database file: {e.message}")
  | .ok names =>
    match w.files.at? names with
    | none => .ok (names, {})
    | some e =>
      match e.database? with
      | some d => .ok (names, d)
      | none => .error (.failed "file is not a database")

/-- Whether a file holds something else than a database, which shows when it is first used. -/
def holdsOther (w : World) (path : String) : Bool :=
  match w.files.find path with
  | .ok (.text s) => !s.isEmpty
  | _ => false

/-- The outcome of an operation on a database file. -/
def database (w : World) (path : String) (o : DatabaseOperation) :
    Except DatabaseError o.Answer × World :=
  match w.openDatabase path with
  | .ok (names, d) =>
    let (answer, d) := d.apply o
    (answer, { w with files := w.files.put names (.database d) })
  | .error e =>
    match o with
    | .connect => (if w.holdsOther path then .ok () else .error e, w)
    | _ => (.error e, w)

/-- The answer of a store. -/
def store (w : World) (location : StoreLocation) (call : Call) :
    Except MemoryError call.Answer × World :=
  match location with
  | .volatile =>
    let (answer, collections) := w.collections.answer call
    (answer, { w with collections })
  | .privateTables =>
    let (answer, tables) := answerFromDatabase w.tables call
    (answer, { w with tables })
  | .file path =>
    match w.openDatabase path with
    | .error e => (.error (.storage e), w)
    | .ok (names, d) =>
      let (answer, d) := answerFromDatabase d call
      (answer, { w with files := w.files.put names (.database d) })

/-- How the world answers a question. -/
def answer : (r : OutsideRequest) → World → r.Answer × World
  | .complete prompt settings, w => w.complete prompt settings
  | .exchange request, w => (w.network request, w)
  | .wait nanoseconds, w => ((), { w with time := later w.time nanoseconds })
  | .now, w => (w.time, w)
  | .localNow, w => (⟨w.time, w.offset⟩, w)
  | .freshKey, w => (keyText w.keys, { w with keys := w.keys + 1 })
  | .environment name, w => ((w.environment.find? (·.1 = name)).map (·.2), w)
  | .readFile path, w => (w.files.read path, w)
  | .writeFile path text, w => w.changeFiles (w.files.write path text)
  | .makeDirectories path, w => w.changeFiles (w.files.makeDirectories path)
  | .look path, w => (w.look path, w)
  | .store location call, w => w.store location call
  | .database path operation, w => w.database path operation
  | .print text, w => ((), { w with shown := w.shown ++ text })

/-- The outcome of a program against a world, and the world after it. -/
def run {α : Type} (w : World) (p : Program Outside α) : α × World := p.run answer w

end World

end Orchestration
