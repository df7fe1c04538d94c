import SourceGen.Text.Position

/-!
# Errors that stop a pass

Compile errors, load failures and faults of generators are diagnostics. Only what is listed here stops a
pass: the program cannot be read, its markers cannot be resolved, or the host cancelled.
-/

namespace SourceGen

open SourceGen.Text

/-- Why a host program cannot be built. -/
inductive HostError
  | /-- A file or directory cannot be read; `cause` is the text of the system. -/
    read (path cause : String)
  | /-- A unit cannot be parsed. -/
    parse (path : String) (position : Position)
  | /-- The crate has no source directory. -/
    missingSourceDir (path : String)
deriving DecidableEq, Repr

namespace HostError

/-- What stands for the wording of a syntax error; the place says where it is. -/
def wording : String := "<syntax>"

/-- The text of the error. -/
def message : HostError → String
  | .read path cause => "cannot read `" ++ path ++ "`: " ++ cause
  | .parse path p =>
    "cannot parse `" ++ path ++ "` at " ++ toString p.line ++ ":" ++ toString p.column ++ ": " ++ wording
  | .missingSourceDir path => "`" ++ path ++ "` has no `src` directory"

/-- The code of the error. -/
def code : HostError → String
  | .read _ _ => "microgen::host::read"
  | .parse _ _ => "microgen::host::parse"
  | .missingSourceDir _ => "microgen::host::layout"

/-- Advice, if there is any. -/
def help : HostError → Option String
  | .missingSourceDir _ => some "point the loader at a crate root containing `src/`"
  | _ => none

end HostError

/-- Why a pass stopped. -/
inductive PassError
  | /-- No crate that declares the markers is referenced. -/
    markerUnresolved (marker : String)
  | cancelled
  | host (error : HostError)
deriving DecidableEq, Repr

namespace PassError

/-- The text of the error. -/
def message : PassError → String
  | .markerUnresolved marker =>
    "marker attribute `" ++ marker ++ "` cannot be resolved in the host crate"
  | .cancelled => "generation pass was cancelled"
  | .host e => e.message

/-- The code of the error. -/
def code : PassError → String
  | .markerUnresolved _ => "microgen::config"
  | .cancelled => "microgen::cancelled"
  | .host e => e.code

/-- Advice, if there is any. -/
def help : PassError → Option String
  | .markerUnresolved _ =>
    some "the host program must reference `microgen_sdk`, which declares the marker attributes"
  | .cancelled => none
  | .host e => e.help

end PassError

end SourceGen
