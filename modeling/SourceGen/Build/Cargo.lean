import SourceGen.Build.CargoMessage
import SourceGen.Build.Request
import SourceGen.Config
import SourceGen.SystemError

/-!
# Building with cargo

A generated crate is written as a project of its own and built as a dynamic library. The build tells what it
does in a stream of messages; only its end, or its exit status if the stream has no end, decides whether it
succeeded.
-/

namespace SourceGen

open SourceGen.Text

/-- The files of a project. -/
structure CargoProject where
  manifest : String
  source : String
deriving DecidableEq, Repr

namespace CargoProject

/-- The dependency table. -/
def dependencies (references : List Reference) : String :=
  if references.isEmpty then "# No additional dependencies"
  else "\n".intercalate (references.map (·.manifestEntry))

/-- The manifest of a project. -/
def manifestOf (crateName edition : String) (references : List Reference) : String :=
  "[package]\nname = \"" ++ crateName ++ "\"\nversion = \"0.0.0\"\nedition = \"" ++ edition ++
    "\"\npublish = false\n\n# Generated by microgen " ++ libraryVersion ++
    "\n\n[lib]\npath = \"src/lib.rs\"\ncrate-type = [\"cdylib\"]\n\n[dependencies]\n" ++
    dependencies references ++ "\n\n[workspace]\n"

/-- The project of a generated crate. -/
def ofRequest (config : Config) (r : CompileRequest) : CargoProject :=
  ⟨manifestOf r.crateName config.edition r.references, r.source⟩

end CargoProject

/-- A run of the build program. -/
structure CargoCall where
  program : String
  /-- The directory to run in. -/
  directory : String
  environment : List (String × String)
  arguments : List String
deriving DecidableEq, Repr

/-- What a program leaves when it ends. -/
structure ProcessOutput where
  stdout : List UInt8
  stderr : List UInt8
  succeeded : Bool
deriving DecidableEq, Repr

/-- The machine that builds: it runs programs and reads files. -/
structure BuildMachine where
  run : CargoCall → Except SystemError ProcessOutput
  read : String → Except SystemError (List UInt8)

/-- Why a file or directory of this path cannot be made, whatever is there. -/
def pathRefusal? (path : String) : Option SystemError :=
  let isTooLong := SystemError.exceedsPath path ||
    (SourcePath.names (SourcePath.parts path)).any SystemError.exceedsName
  if path.toList.contains '\x00' then some .nulInName
  else if isTooLong then some .nameTooLong
  else none

namespace Cargo

/-- Writes a project below the scratch directory; the answer is where. -/
def generate (config : Config) (scratch : String) (r : CompileRequest) :
    Except BuildError (String × CargoProject) :=
  let directory := SourcePath.join scratch r.crateName
  match pathRefusal? directory with
  | some e => .error (.scratch directory e.chain)
  | none => .ok (directory, .ofRequest config r)

/-- The directory for the results of builds. -/
def targetDir (config : Config) (scratch : String) : String :=
  config.targetDir.getD (SourcePath.join scratch "target")

/-- The run that builds a project. -/
def call (config : Config) (scratch directory : String) : CargoCall where
  program := config.cargo
  directory := directory
  environment := [("CARGO_TERM_COLOR", "never")]
  arguments :=
    ["build", "--lib", "--message-format=json", "--target-dir", targetDir config scratch] ++
      (if config.offline then ["--offline"] else []) ++ (if config.release then ["--release"] else [])

/-- What the build program says about itself, as a message: failures before the compiler runs show only
there. -/
def ofStderr (stderr : List UInt8) : CompilerMessage :=
  ⟨none, .error, trim (decodeLossy stderr), none, none⟩

/-- The messages of a build that failed; there is always an error among them. -/
def failureMessages (messages : List CompilerMessage) (stderr : List UInt8) : List CompilerMessage :=
  if messages.any (·.level = .error) then messages else messages ++ [ofStderr stderr]

/-- Reads the library that a build has made. -/
def readArtifact (machine : BuildMachine) (crateName : String) (artifact : Option String) :
    Except BuildError (List UInt8) :=
  match artifact with
  | none => .error (.missingArtifact crateName)
  | some path =>
    match machine.read path with
    | .ok image => .ok image
    | .error e => .error (.readArtifact path e.chain)

/-- What a finished run of the build program amounts to. -/
def settle (machine : BuildMachine) (crateName : String) (output : ProcessOutput) :
    Except BuildError CompileOutput := do
  let parsed := ParsedBuild.ofStream (decodeLossy output.stdout) crateName
  if parsed.success.getD output.succeeded then
    let image ← readArtifact machine crateName parsed.artifact
    return ⟨some image, parsed.messages⟩
  else return ⟨none, failureMessages parsed.messages output.stderr⟩

/-- Compiles a generated crate. -/
def compile (machine : BuildMachine) (config : Config) (scratch : String) (r : CompileRequest) :
    Except BuildError CompileOutput := do
  let (directory, _) ← generate config scratch r
  match machine.run (call config scratch directory) with
  | .error e => .error (.spawn config.cargo e.chain)
  | .ok output => settle machine r.crateName output

end Cargo

end SourceGen
