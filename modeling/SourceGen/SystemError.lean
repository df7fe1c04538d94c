import SourceGen.Fault

/-!
# Errors of the system

Why the system refuses to touch a file or to start a program.
-/

namespace SourceGen

/-- A refusal of the system. -/
inductive SystemError
  | notFound
  | permissionDenied
  | notADirectory
  | isADirectory
  | nameTooLong
  | tooManyLinks
  | /-- A name of a file holds a null character. -/
    nulInName
  | /-- An argument of a program holds a null character. -/
    nulInArgument
  | /-- A file that should be text is none. -/
    notText
deriving DecidableEq, Repr

namespace SystemError

/-- The text of the error. -/
def text : SystemError → String
  | .notFound => "No such file or directory (os error 2)"
  | .permissionDenied => "Permission denied (os error 13)"
  | .notADirectory => "Not a directory (os error 20)"
  | .isADirectory => "Is a directory (os error 21)"
  | .nameTooLong => "File name too long (os error 36)"
  | .tooManyLinks => "Too many levels of symbolic links (os error 40)"
  | .nulInName => "file name contained an unexpected NUL byte"
  | .nulInArgument => "nul byte found in provided data"
  | .notText => "stream did not contain valid UTF-8"

/-- The error, which has no cause of its own. -/
def chain (e : SystemError) : ErrorChain := .ofText e.text

/-- Whether a text is too long for the name of one file. -/
def exceedsName (name : String) : Bool := 255 < name.utf8ByteSize

/-- Whether a text is too long for a path, whatever the path leads to. -/
def exceedsPath (path : String) : Bool := 4095 < path.utf8ByteSize

end SystemError

end SourceGen
