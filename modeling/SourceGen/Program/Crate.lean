import SourceGen.Config
import SourceGen.Disk
import SourceGen.Program.Basic

/-!
# Crates on disk

A program is read from a crate directory: every source file below `src` that belongs to the library of the
crate is a unit. What is below `bin` belongs to other targets, and so does `main.rs` if there is a `lib.rs`.
Units come in the order of their paths, compared name by name.
-/

namespace SourceGen

namespace CrateDirectory

/-- How deep directories can nest on a disk, counted along paths that lead through links. -/
def depthBound (d : Disk) : Nat := (Disk.maxLinks + 1) * (DiskEntry.sizeAll d + 1)

/-- The source files in a directory and below it, each by the names that lead to it from the directory at
`base`; `fuel` bounds the depth. -/
def sourceFiles (d : Disk) (base : String) : Nat → List String → Except HostError (List (List String))
  | 0, _ => .ok []
  | fuel + 1, above =>
    let directory := above.foldl SourcePath.join base
    match d.names directory with
    | .error e => .error (.read directory e.text)
    | .ok names => do
      let found ← names.mapM fun name =>
        if d.isDirectory (SourcePath.join directory name) then sourceFiles d base fuel (above ++ [name])
        else if SourcePath.extension? name = some "rs" then .ok [above ++ [name]]
        else .ok []
      return found.flatten

/-- Whether a file is the root of another target, given whether there is a `lib.rs`. -/
def isOtherTarget (hasLib : Bool) (file : List String) : Bool :=
  file.head? = some "bin" || (hasLib && file = ["main.rs"])

/-- Files in the order of their paths. -/
def sortFiles (files : List (List String)) : List (List String) :=
  files.mergeSort fun a b => !(b < a)

/-- The name of a crate, from the path of its directory. -/
def crateName (root : String) : String :=
  match SourcePath.fileName? root with
  | some name => name.map fun c => if c = '-' then '_' else c
  | none => "host"

/-- Adds the unit of a file to a program. -/
def addFile (d : Disk) (src : String) (b : ProgramBuilder) (file : List String) :
    Except HostError ProgramBuilder :=
  let path := file.foldl SourcePath.join src
  match d.readText path with
  | .ok text => .ok (b.unitAt (file.foldl SourcePath.join "src") (SourcePath.moduleOf file) text)
  | .error e => .error (.read path e.text)

/-- The program of a crate, ready to be built. -/
def builder (d : Disk) (config : Config) (root : String) : Except HostError ProgramBuilder := do
  let src := SourcePath.join root "src"
  if d.isDirectory src then
    let files ← sourceFiles d src (depthBound d) []
    let hasLib := d.isFile (SourcePath.join src "lib.rs")
    let units := sortFiles (files.filter fun f => !isOtherTarget hasLib f)
    units.foldlM (addFile d src) (.new (crateName root) config.sdkPathText)
  else throw (.missingSourceDir root)

/-- The program of a crate, which may be added to before it is built. -/
def loadWith (d : Disk) (config : Config) (root : String) (customize : ProgramBuilder → ProgramBuilder) :
    Except HostError Program := do
  let b ← builder d config root
  (customize b).build

/-- The program of a crate. -/
def load (d : Disk) (config : Config) (root : String) : Except HostError Program :=
  loadWith d config root id

end CrateDirectory

end SourceGen
