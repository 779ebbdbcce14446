import Orchestration.CommandLine.Run
import Orchestration.Database.Document
import Orchestration.Memory.FreshKey
import Orchestration.Memory.Table
import Orchestration.Memory.Volatile
import Orchestration.Server.Message
import Std.Time

/-!
# The program on this machine

Carries out on the machine what programs ask of the world outside. No model is attached, and the network
reaches nobody.

* `answer` — how the machine answers a question.
* `start` — a run for the words of a command line.
-/

namespace Orchestration.Machine

open Files Memory

/-- What is kept while the program runs. -/
structure Kept where
  /-- the collections in memory -/
  collections : Volatile := ∅
  /-- the private database -/
  tables : Database := .fresh

/-! ### Files -/

/-- The number by which the machine names a failure. -/
def codeOf : IO.Error → Option UInt32
  | .alreadyExists _ code _ | .otherError code _ | .resourceBusy code _ | .resourceVanished code _
  | .unsupportedOperation code _ | .hardwareFault code _ | .unsatisfiedConstraints code _
  | .illegalOperation code _ | .protocolError code _ | .timeExpired code _ | .interrupted _ code _
  | .noFileOrDirectory _ code _ | .invalidArgument _ code _ | .permissionDenied _ code _
  | .resourceExhausted _ code _ | .inappropriateType _ code _ | .noSuchThing _ code _ => some code
  | .unexpectedEof | .userError _ => none

/-- A failure of the machine as a failure of files. Its number counts whether it is given with a sign or
without. -/
def fileError (e : IO.Error) : FileError :=
  match (codeOf e).map fun code => min code.toNat (-code).toNat with
  | some 2 => .notFound
  | some 17 => .exists
  | some 20 => .notDirectory
  | some 21 => .isDirectory
  | some 36 => .nameTooLong
  | _ => .other (toString e)

/-- The outcome of an action on the file at a path. -/
def onFile {α : Type} (path : String) (action : IO α) : IO (Except FileError α) := do
  if path.contains '\x00' then return .error .badCharacter
  match ← action.toBaseIO with
  | .ok value => return .ok value
  | .error e => return .error (fileError e)

/-- The bytes of a file. -/
def readBytes (path : String) : IO (Except FileError ByteArray) := onFile path (IO.FS.readBinFile path)

/-- The text of a file. -/
def readText (path : String) : IO (Except FileError String) := do
  match ← readBytes path with
  | .error e => return .error e
  | .ok bytes =>
    match String.fromUTF8? bytes with
    | some text => return .ok text
    | none => return .error .notText

/-- Puts a text into a file. -/
def writeText (path text : String) : IO (Except FileError Unit) := onFile path (IO.FS.writeFile path text)

/-- Makes a directory and those that it lies in; the empty path is the directory at hand. -/
def makeDirectories (path : String) : IO (Except FileError Unit) :=
  if path.isEmpty then return .ok () else onFile path (IO.FS.createDirAll path)

/-- What there is under a path. -/
def look (path : String) : IO (Option FileKind) := do
  match ← readBytes path with
  | .ok bytes => return some (.file bytes.size)
  | .error .isDirectory => return some .directory
  | .error _ => return none

/-! ### Databases -/

/-- The database in a file; a file that is not there is made. -/
def openDatabase (path : String) : IO (Except DatabaseError Database) := do
  let unable : DatabaseError := .failed s!"unable to open database file: {path}"
  match ← readText path with
  | .ok text =>
    match Database.read? text with
    | some d => return .ok d
    | none => return .error (.failed "file is not a database")
  | .error .notText => return .error (.failed "file is not a database")
  | .error .notFound =>
    match ← writeText path "" with
    | .ok () => return .ok {}
    | .error _ => return .error unable
  | .error _ => return .error unable

/-- The outcome of a change to the database in a file. -/
def changeDatabase {α : Type} (path : String) (change : Database → Except DatabaseError α × Database) :
    IO (Except DatabaseError α) := do
  match ← openDatabase path with
  | .error e => return .error e
  | .ok d =>
    let (outcome, after) := change d
    if after = d then return outcome
    match ← writeText path after.write with
    | .ok () => return outcome
    | .error e => return .error (.failed e.message)

/-- The outcome of an operation on a database file. Whether a file is one shows when it is first used. -/
def operate (path : String) : (o : DatabaseOperation) → IO (Except DatabaseError o.Answer)
  | .connect => do
    match ← look path with
    | some (.file _) => return .ok ()
    | _ => changeDatabase path (·.apply .connect)
  | o => changeDatabase path (·.apply o)

/-- The answer of a store. -/
def askStore (kept : IO.Ref Kept) (call : Call) : StoreLocation → IO (Except MemoryError call.Answer)
  | .volatile => kept.modifyGet fun k =>
    let (answer, collections) := k.collections.answer call
    (answer, { k with collections })
  | .privateTables => kept.modifyGet fun k =>
    let (answer, tables) := answerFromDatabase k.tables call
    (answer, { k with tables })
  | .file path => do
    let outcome ← changeDatabase path fun d =>
      let (answer, d) := answerFromDatabase d call
      (.ok answer, d)
    match outcome with
    | .ok answer => return answer
    | .error e => return .error (.storage e)

/-! ### Time -/

/-- The time. -/
def now : IO Time.Timestamp := do
  let t := (← Std.Time.Timestamp.now).val
  return ⟨t.second.val, t.nano.val.toNat⟩

/-- The time on the clocks of this place. -/
def localNow : IO Time.Zoned := do
  let t ← now
  match ← Std.Time.DateTime.now.toBaseIO with
  | .ok here => return ⟨t, here.timezone.offset.second.val⟩
  | .error _ => return ⟨t, 0⟩

/-- Lets so many milliseconds pass. -/
def pause (milliseconds : Nat) : IO Unit := do
  for _ in [0 : milliseconds / 1000000] do IO.sleep 1000000
  IO.sleep (.ofNat (milliseconds % 1000000))

/-- A key that was never given out before. -/
def newKey : IO String := do
  let t ← now
  let random ← IO.getRandomBytes 10
  return freshKey (t.seconds.toNat * 1000 + t.nanos / 1000000) random.toList

/-! ### Questions -/

/-- Shows a text to the user. -/
def print (text : String) : IO Unit := do
  let output ← IO.getStdout
  output.putStr text
  output.flush

/-- How the machine answers a question. -/
def answer (kept : IO.Ref Kept) : (r : OutsideRequest) → IO r.Answer
  | .complete .. => return .error (.localModel "no model is attached")
  | .exchange request => return .error request.failureText
  | .wait nanoseconds => pause (nanoseconds / 1000000)
  | .now => now
  | .localNow => localNow
  | .freshKey => newKey
  | .environment name => IO.getEnv name
  | .readFile path => readText path
  | .writeFile path text => writeText path text
  | .makeDirectories path => makeDirectories path
  | .look path => look path
  | .store location call => askStore kept call location
  | .database path operation => operate path operation
  | .print text => print text

/-- Runs a program on the machine. -/
def run {α : Type} (kept : IO.Ref Kept) (p : Program Outside α) : IO α := p.interpret (answer kept)

/-! ### Runs -/

/-- Answers messages, a line each, until there are no more. -/
partial def serve (kept : IO.Ref Kept) (s : Services) (input : IO.FS.Stream) (line : String) : IO Unit := do
  if line.isEmpty then return
  if let some text ← run kept (Server.answer s line) then print (text ++ "\n")
  serve kept s input (← input.getLine)

/-- The code that tells the caller how a run ended, once the caller has been told what failed. -/
def finish (ending : CommandLine.Ending) : IO UInt32 := do
  if let some complaint := ending.complaint then IO.eprintln complaint
  if ending.code = 2 then IO.eprintln "error: the command line does not fit; try '--help'"
  return .ofNat ending.code

/-- A run for the words of a command line. -/
def start (words : List String) : IO UInt32 := do
  let kept ← IO.mkRef {}
  match ← run kept (CommandLine.run words) with
  | .serving s false =>
    let input ← IO.getStdin
    let first ← input.getLine
    if first.isEmpty then finish (.failed Server.closedEarly)
    else
      serve kept s input first
      finish .done
  | .serving _ true => finish (.failed (.text "no network to serve on"))
  | ending => finish ending

end Orchestration.Machine

def main (words : List String) : IO UInt32 := Orchestration.Machine.start words
