/-!
# Failures of files
-/

namespace Orchestration.Files

/-- Why something cannot be done with a file. -/
inductive FileError where
  /-- there is no such file or directory -/
  | notFound
  /-- there is something already -/
  | exists
  /-- a file stands where a directory is needed -/
  | notDirectory
  /-- a directory stands where a file is needed -/
  | isDirectory
  /-- the name of a file is too long -/
  | nameTooLong
  /-- the path holds a character that no name may hold -/
  | badCharacter
  /-- the bytes of the file are no text -/
  | notText
  /-- something else -/
  | other (text : String)
  deriving DecidableEq, Repr

/-- The wording of a failure of files. -/
def FileError.message : FileError → String
  | .notFound => "No such file or directory (os error 2)"
  | .exists => "File exists (os error 17)"
  | .notDirectory => "Not a directory (os error 20)"
  | .isDirectory => "Is a directory (os error 21)"
  | .nameTooLong => "File name too long (os error 36)"
  | .badCharacter => "file name contained an unexpected NUL byte"
  | .notText => "stream did not contain valid UTF-8"
  | .other text => text

end Orchestration.Files
