import SourceGen.Program.Path
import SourceGen.SystemError
import SourceGen.Text.Utf8

/-!
# Disks

Directories, files and symbolic links as a tree. The entries of a directory come in any order, which nothing
that is read off a disk may depend on. A path is followed through links, but not through more than forty.
-/

namespace SourceGen

open SourceGen.Text

/-- What stands under a name. -/
inductive DiskEntry
  | file (content : List UInt8)
  | link (target : String)
  | directory (entries : List (String × DiskEntry))

/-- A disk is the content of its root directory. -/
abbrev Disk := List (String × DiskEntry)

/-- What a path leads to. -/
inductive DiskNode
  | file (content : List UInt8)
  | directory (entries : List (String × DiskEntry))

namespace Disk

/-- The number of links that a path may lead through. -/
def maxLinks : Nat := 40

/-- The entry of a name. -/
def entry? (entries : List (String × DiskEntry)) (name : String) : Option DiskEntry :=
  (entries.find? (·.1 = name)).map (·.2)

/-- Follows a path. The directories around the current one are `outer`, the nearest first. -/
def follow (d : Disk) (links : Nat) (current : List (String × DiskEntry))
    (outer : List (List (String × DiskEntry))) (path : List PathPart) : Except SystemError DiskNode :=
  match path with
  | [] => .ok (.directory current)
  | .root :: rest => follow d links d [] rest
  | .here :: rest => follow d links current outer rest
  | .up :: rest =>
    match outer with
    | [] => follow d links current [] rest
    | parent :: outer => follow d links parent outer rest
  | .name name :: rest =>
    match entry? current name with
    | none => .error (if SystemError.exceedsName name then .nameTooLong else .notFound)
    | some (.directory entries) => follow d links entries (current :: outer) rest
    | some (.file content) => if rest.isEmpty then .ok (.file content) else .error .notADirectory
    | some (.link target) =>
      if links < maxLinks then follow d (links + 1) current outer (SourcePath.parts target ++ rest)
      else .error .tooManyLinks
termination_by (maxLinks - links, path.length)

/-- Whether a path can only lead to a directory, since nothing comes after its last slash. -/
def endsOpen (path : String) : Bool :=
  match (splitText '/' path).reverse with
  | last :: _ :: _ => last = "" || last = "."
  | _ => false

/-- What stands at a path. -/
def find (d : Disk) (path : String) : Except SystemError DiskNode :=
  if path.toList.contains '\x00' then .error .nulInName
  else if SystemError.exceedsPath path then .error .nameTooLong
  else if path = "" then .error .notFound
  else
    match follow d 0 d [] (SourcePath.parts path) with
    | .ok (.file content) => if endsOpen path then .error .notADirectory else .ok (.file content)
    | other => other

/-- Whether a path leads to a directory. -/
def isDirectory (d : Disk) (path : String) : Bool :=
  match d.find path with
  | .ok (.directory _) => true
  | _ => false

/-- Whether a path leads to a file. -/
def isFile (d : Disk) (path : String) : Bool :=
  match d.find path with
  | .ok (.file _) => true
  | _ => false

/-- The names in a directory. -/
def names (d : Disk) (path : String) : Except SystemError (List String) :=
  match d.find path with
  | .ok (.directory entries) => .ok (entries.map (·.1))
  | .ok (.file _) => .error .notADirectory
  | .error e => .error e

/-- The bytes of a file. -/
def read (d : Disk) (path : String) : Except SystemError (List UInt8) :=
  match d.find path with
  | .ok (.file content) => .ok content
  | .ok (.directory _) => .error .isADirectory
  | .error e => .error e

/-- The text of a file. -/
def readText (d : Disk) (path : String) : Except SystemError String :=
  match d.read path with
  | .ok bytes => (decode bytes).mapError fun _ => .notText
  | .error e => .error e

/-- Puts an entry into a directory. A directory is not replaced by another one. -/
def put (entries : List (String × DiskEntry)) (name : String) (e : DiskEntry) : List (String × DiskEntry) :=
  match entry? entries name, e with
  | some (.directory _), .directory _ => entries
  | some _, _ => entries.map fun old => if old.1 = name then (name, e) else old
  | none, _ => entries ++ [(name, e)]

/-- Puts an entry at the place that names lead to from a directory; directories on the way are made. -/
def insertAt (entries : List (String × DiskEntry)) : List String → DiskEntry → List (String × DiskEntry)
  | [], _ => entries
  | [name], e => put entries name e
  | name :: rest, e =>
    match entry? entries name with
    | some (.directory below) =>
      entries.map fun old => if old.1 = name then (name, .directory (insertAt below rest e)) else old
    | some _ => entries
    | none => entries ++ [(name, .directory (insertAt [] rest e))]

/-- Puts an entry at a path. Of a path through a directory and back, the directory is made. -/
def insertParts (d : Disk) (above : List String) : List PathPart → DiskEntry → Disk
  | [], _ => d
  | [.name name], e => insertAt d (above ++ [name]) e
  | .name name :: rest, e =>
    let path := above ++ [name]
    insertParts (insertAt d path (.directory [])) path rest e
  | .up :: rest, e => insertParts d above.dropLast rest e
  | _ :: rest, e => insertParts d above rest e

/-- Puts an entry at a path. -/
def insert (d : Disk) (path : String) (e : DiskEntry) : Disk :=
  d.insertParts [] (SourcePath.parts path) e

end Disk

mutual

/-- The number of entries of an entry, itself among them. -/
def DiskEntry.size : DiskEntry → Nat
  | .directory entries => 1 + DiskEntry.sizeAll entries
  | _ => 1

/-- The number of entries in a directory and below it. -/
def DiskEntry.sizeAll : List (String × DiskEntry) → Nat
  | [] => 0
  | e :: es => e.2.size + DiskEntry.sizeAll es

end

end SourceGen
