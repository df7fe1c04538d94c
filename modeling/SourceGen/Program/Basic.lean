import SourceGen.Fingerprint
import SourceGen.Program.Error
import SourceGen.Program.Path
import SourceGen.Program.Reference
import SourceGen.Syntax.Parser.File
import SourceGen.Syntax.Text

/-!
# Host programs

A host program is a crate held as parsed units, together with the crates it references. Two summaries
tell programs apart: `fingerprint` sees tokens, so it forgets white space and comments; `layout` sees the
texts, so it changes whenever a line moves.
-/

namespace SourceGen

open SourceGen.Text

/-- The crate that declares the markers and the contract of generators. -/
def sdkCrate : String := "microgen_sdk"

/-- A parsed source file and the module it defines. -/
structure SourceUnit where
  path : String
  modulePath : List String
  text : String
  parsed : ParsedText

namespace SourceUnit

/-- The summary of the tokens of a unit. -/
def fingerprint {δ : Type} [Digest δ] (u : SourceUnit) : δ :=
  Digest.ofText u.parsed.file.text

end SourceUnit

/-- A host program; a unit is named by its position. -/
structure Program where
  crateName : String
  units : List SourceUnit
  references : List Reference

namespace Program

/-- The reference of a given name. -/
def reference? (p : Program) (name : String) : Option Reference :=
  p.references.find? (·.name = name)

/-- What the token summary of a program is made of. -/
def fingerprintParts {δ : Type} [Digest δ] (p : Program) : List δ :=
  (p.units.flatMap fun u =>
    [Digest.ofText u.path, Digest.ofText (joinPath u.modulePath), u.fingerprint]) ++
    p.references.map fun r => Digest.ofText r.manifestEntry

/-- The summary of all tokens and references. -/
def fingerprint {δ : Type} [Digest δ] (p : Program) : δ :=
  Digest.combine p.fingerprintParts

/-- The summary of all texts. -/
def layout {δ : Type} [Digest δ] (p : Program) : δ :=
  Digest.combine (p.units.flatMap fun u => [Digest.ofText u.path, Digest.ofText u.text])

end Program

/-- A unit before it is parsed. -/
structure PendingUnit where
  path : String
  modulePath : List String
  text : String
deriving DecidableEq, Repr

/-- A host program under construction. -/
structure ProgramBuilder where
  crateName : String
  units : List PendingUnit
  references : List Reference
  injectSdk : Bool
  sdkPath : String
deriving DecidableEq, Repr

namespace ProgramBuilder

/-- A program without units, whose markers come from the crate at `sdkPath`. -/
def new (crateName sdkPath : String) : ProgramBuilder :=
  ⟨crateName, [], [], true, sdkPath⟩

/-- Adds a unit that defines a given module. -/
def unitAt (b : ProgramBuilder) (path : String) (modulePath : List String) (text : String) :
    ProgramBuilder :=
  { b with units := b.units ++ [⟨path, modulePath, text⟩] }

/-- Adds a unit that defines the module its path stands for. -/
def unit (b : ProgramBuilder) (path text : String) : ProgramBuilder :=
  b.unitAt path (SourcePath.moduleOfPath path) text

/-- Adds or replaces a reference. -/
def reference (b : ProgramBuilder) (r : Reference) : ProgramBuilder :=
  { b with references := Reference.insert b.references r }

/-- Changes where the injected crate is found. -/
def withSdkPath (b : ProgramBuilder) (path : String) : ProgramBuilder :=
  { b with sdkPath := path }

/-- Leaves the markers unresolved unless a reference declares them. -/
def withoutMarkers (b : ProgramBuilder) : ProgramBuilder :=
  { b with injectSdk := false }

/-- The references of the built program. -/
def allReferences (b : ProgramBuilder) : List Reference :=
  Reference.sortByName
    (if b.injectSdk && !b.references.any (·.name = sdkCrate) then
      b.references ++ [⟨sdkCrate, .path b.sdkPath⟩]
    else b.references)

/-- Parses a unit. -/
def parseUnit (u : PendingUnit) : Except HostError SourceUnit :=
  match ParsedText.parse u.text with
  | .ok parsed => .ok ⟨u.path, u.modulePath, u.text, parsed⟩
  | .error position => .error (.parse u.path position)

/-- Builds the program; the first unit that cannot be parsed is reported. -/
def build (b : ProgramBuilder) : Except HostError Program := do
  let units ← b.units.mapM parseUnit
  return ⟨b.crateName, units, b.allReferences⟩

end ProgramBuilder

end SourceGen
