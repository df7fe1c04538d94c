import SourceGen.Program.Path
import SourceGen.Text.Space
import SourceGen.Text.Utf8

/-!
# Settings

How modules are built and how a pass is run. Every setting has a default, and some can be set from the
environment.
-/

namespace SourceGen

open SourceGen.Text

/-- The settings of a generator. Paths are equal if their components are. -/
structure Config where
  /-- Where the crate of the generator contract is; by default it is the one that belongs to this library. -/
  sdkPath : Option String
  /-- The program that builds modules. -/
  cargo : String
  /-- Where builds put their results; by default a directory of their own. -/
  targetDir : Option String
  offline : Bool
  edition : String
  release : Bool
  parallel : Bool
deriving Repr

/-- The environment of a process: the bytes of its variables. -/
abbrev Environment := String → Option (List UInt8)

namespace Config

/-- The settings of a generator that is told nothing. -/
def default : Config :=
  ⟨none, "cargo", none, false, "2021", false, true⟩

/-- Where the crate of the generator contract is if nothing says otherwise. -/
def bundledSdkPath : String := "crates/microgen_sdk"

/-- The path of the crate of the generator contract. -/
def sdkPathText (c : Config) : String := c.sdkPath.getD bundledSdkPath

/-- Whether two optional paths have the same components. -/
def samePath? (a b : Option String) : Bool :=
  a.map SourcePath.parts == b.map SourcePath.parts

instance : BEq Config where
  beq a b :=
    samePath? a.sdkPath b.sdkPath && SourcePath.parts a.cargo == SourcePath.parts b.cargo &&
      samePath? a.targetDir b.targetDir && a.offline == b.offline && a.edition == b.edition &&
      a.release == b.release && a.parallel == b.parallel

/-- The lower-case letter of an ASCII capital. -/
def lowerAscii (c : Char) : Char :=
  if 'A' ≤ c && c ≤ 'Z' then Char.ofNat (c.toNat + 32) else c

/-- Whether the text of a variable switches a setting on. -/
def readFlag (text : String) : Bool :=
  ["1", "true", "yes", "on"].contains ((trim text).map lowerAscii)

/-- A setting that is a path. -/
def readPath (bytes : List UInt8) : String := decodeLossy bytes

/-- A flag from the environment; a value that is no text changes nothing. -/
def flagOr (fallback : Bool) (value : Option (List UInt8)) : Bool :=
  match value.map decode with
  | some (.ok text) => readFlag text
  | _ => fallback

/-- The defaults, overridden by the environment. -/
def ofEnvironment (env : Environment) : Config where
  sdkPath := ((env "MICROGEN_SDK_PATH").map readPath).or default.sdkPath
  cargo := ((env "CARGO").map readPath).getD default.cargo
  targetDir := ((env "MICROGEN_TARGET_DIR").map readPath).or default.targetDir
  offline := flagOr default.offline (env "MICROGEN_OFFLINE")
  edition := default.edition
  release := flagOr default.release (env "MICROGEN_RELEASE")
  parallel := default.parallel

end Config

end SourceGen
