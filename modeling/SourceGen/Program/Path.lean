import SourceGen.Text.Split

/-!
# Paths of source files

A path is a sequence of components. The module that a file defines is read off its path below the source
directory: `lib.rs` and `main.rs` are the root, `a/mod.rs` and `a.rs` are both `a`.
-/

namespace SourceGen

open SourceGen.Text

/-- A component of a path. -/
inductive PathPart
  | root
  | here
  | up
  | name (text : String)
deriving DecidableEq, Repr

namespace SourcePath

/-- The component that a segment between slashes stands for; empty segments and `.` stand for none. -/
def part? (s : String) : Option PathPart :=
  if s = "" || s = "." then none else if s = ".." then some .up else some (.name s)

/-- The components of a path. A leading `.` is a component, any other one is none. -/
def parts (path : String) : List PathPart :=
  let segments := splitText '/' path
  match segments with
  | "" :: rest => (if rest.isEmpty then [] else [.root]) ++ rest.filterMap part?
  | "." :: rest => .here :: rest.filterMap part?
  | _ => segments.filterMap part?

/-- The names among the components. -/
def names (parts : List PathPart) : List String :=
  parts.filterMap fun
    | .name s => some s
    | _ => none

/-- The components below a directory, if the path starts with it; otherwise all of them. -/
def below (directory : String) (parts : List PathPart) : List PathPart :=
  match parts with
  | .name s :: rest => if s = directory then rest else parts
  | _ => parts

/-- The module defined by a file, from the names of its path below the source directory. -/
def moduleOf (names : List String) : List String :=
  match names.getLast? with
  | none => []
  | some last =>
    let directories := names.dropLast
    let stem := withoutEnd ".rs" last
    let isRoot := directories.isEmpty && (stem = "lib" || stem = "main")
    if stem ≠ "mod" && !isRoot then directories ++ [stem] else directories

/-- The module defined by a file at a path relative to the source directory. -/
def moduleOfRelative (path : String) : List String := moduleOf (names (parts path))

/-- The module defined by a file at a path relative to the crate, where sources live below `src`. -/
def moduleOfPath (path : String) : List String := moduleOf (names (below "src" (parts path)))

/-- The name that a path ends with, if it ends with one. -/
def fileName? (path : String) : Option String :=
  match (parts path).getLast? with
  | some (.name s) => some s
  | _ => none

/-- What comes before the last point of a name, and what comes after it. -/
def splitExtension (name : List Char) : Option (List Char × List Char) :=
  let reversed := name.reverse
  match reversed.dropWhile (· ≠ '.') with
  | [] => none
  | _ :: stem => some (stem.reverse, (reversed.takeWhile (· ≠ '.')).reverse)

/-- The extension of the name that a path ends with. A point at the start of a name opens no extension. -/
def extension? (path : String) : Option String :=
  match (fileName? path).bind (splitExtension ·.toList) with
  | some (stem, extension) => if stem.isEmpty then none else some (String.ofList extension)
  | none => none

/-- A path below a directory. An absolute path replaces the directory. -/
def join (directory path : String) : String :=
  if path.startsWith "/" then path
  else if directory = "" || directory.endsWith "/" then directory ++ path
  else directory ++ "/" ++ path

end SourcePath

end SourceGen
