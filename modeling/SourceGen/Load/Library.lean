import SourceGen.Build.Epoch
import SourceGen.Build.Module
import SourceGen.Dispatch.Pass
import SourceGen.Load.Error
import SourceGen.SystemError
import SourceGen.Text.Utf8

/-!
# Loading modules

The image of a module is a dynamic library with two entry points: one says which versions of the contract it
speaks, the other hands out its table of types. Versions are checked before the table is touched. Each pass
asks for the table anew, so that every pass has generators of its own.
-/

namespace SourceGen

open SourceGen.Text

/-- What a module says about itself: the revision of its entry points, and the version of the contract. -/
structure ModuleManifest where
  protocol : Nat
  /-- The bytes of the version; none if the module leaves it out. -/
  sdk : Option (List UInt8)
deriving DecidableEq, Repr

namespace ModuleManifest

/-- The revision of the entry points that this library speaks. -/
def protocolVersion : Nat := 1

/-- What a module built against this library says. -/
def current : ModuleManifest := ⟨protocolVersion, some libraryVersion.toUTF8.toList⟩

/-- A text of the other side ends at its first null byte. -/
def beforeNul (bytes : List UInt8) : List UInt8 := bytes.takeWhile (· ≠ 0)

/-- Whether versions agree in their first two parts. -/
def isCompatible (version : String) : Bool :=
  match splitText '.' libraryVersion, splitText '.' version with
  | major :: minor :: _, major' :: minor' :: _ => major = major' && minor = minor'
  | _, _ => false

/-- Checks what a module says about itself: first the revision, then the version. -/
def check (m : ModuleManifest) : Except LoadError Unit :=
  if m.protocol ≠ protocolVersion then .error (.incompatibleProtocol m.protocol protocolVersion)
  else
    match m.sdk with
    | none => .error (.invalidManifest "missing SDK version")
    | some bytes =>
      match decode (beforeNul bytes) with
      | .error e => .error (.invalidManifest e.text)
      | .ok version =>
        if isCompatible version then .ok () else .error (.incompatibleSdk version libraryVersion)

end ModuleManifest

/-- A library as its entry points answer. An entry point that is missing has the words of the linker instead.
The table of types may be missing too. -/
structure ModuleLibrary (γ : Type) where
  manifest : Except String ModuleManifest
  discover : Except String (Option (List (Candidate γ)))

/-- A linker makes a library of an image, or says why it cannot. -/
abbrev Linker (γ : Type) := List UInt8 → Except String (ModuleLibrary γ)

/-- A loaded module: the table that it hands out on every pass. -/
structure PluginSource (γ : Type) where
  epoch : Epoch
  table : Option (List (Candidate γ))

/-- Generators made for one pass, and reports of those that could not be made. -/
structure Instantiation (γ : Type) where
  instances : List (PluginInstance γ)
  diagnostics : List Diagnostic

namespace Instantiation

variable {γ : Type}

/-- The fault of a generator that nothing makes. -/
def missingConstructor (typeName : String) : Fault :=
  ⟨"MissingConstructor", "<discovery>", "`" ++ typeName ++ "` implements MicroGenerator but not Default"⟩

/-- Adds what a candidate gives to what the ones behind it give. -/
def add (epoch : Epoch) (c : Candidate γ) (rest : Instantiation γ) : Instantiation γ :=
  match c.shape with
  | .generator g => { rest with instances := ⟨c.typeName, epoch, g⟩ :: rest.instances }
  | .missingConstructor =>
    { rest with
      diagnostics :=
        .constructionFailure c.typeName (missingConstructor c.typeName) :: rest.diagnostics }
  | .constructionFailed f =>
    { rest with diagnostics := .constructionFailure c.typeName f :: rest.diagnostics }
  | .notAGenerator => rest

/-- What a table of types gives, in its order. -/
def ofTable (epoch : Epoch) (table : List (Candidate γ)) : Instantiation γ :=
  table.foldr (add epoch) ⟨[], []⟩

end Instantiation

namespace PluginSource

/-- Asks a module for its generators. -/
def instantiate {γ : Type} (s : PluginSource γ) : Instantiation γ :=
  match s.table with
  | some table => .ofTable s.epoch table
  | none => ⟨[], [.moduleLoadFailure s.epoch.text LoadError.emptyDiscovery.chain]⟩

end PluginSource

/-- What an attempt to load a module leaves. -/
structure LoadOutcome (γ : Type) where
  source : Option (PluginSource γ)
  diagnostics : List Diagnostic

namespace Loading

variable {γ : Type}

/-- Why the image of a crate cannot be written to a new directory, where it is called after the crate. -/
def stageRefusal? (crateName : String) : Option SystemError :=
  let file := "lib" ++ crateName ++ ".so"
  if file.toList.contains '\x00' then some .nulInName
  else if SystemError.exceedsPath file then some .nameTooLong
  else
    match splitText '/' file with
    | [name] => if SystemError.exceedsName name then some .nameTooLong else none
    | directory :: _ => some (if SystemError.exceedsName directory then .nameTooLong else .notFound)
    | [] => none

/-- An entry point of a library. -/
def symbol {α : Type} (name : String) (found : Except String α) : Except LoadError α :=
  found.mapError (.missingSymbol name)

/-- Opens the image of a crate. -/
def openImage (link : Linker γ) (e : Epoch) (crateName : String) (image : List UInt8) :
    Except LoadError (PluginSource γ) := do
  match stageRefusal? crateName with
  | some refusal => throw (.stage refusal.chain)
  | none => pure ()
  let library ← (link image).mapError LoadError.library
  let manifest ← symbol Assembly.manifestEntryPoint library.manifest
  manifest.check
  let table ← symbol Assembly.discoverEntryPoint library.discover
  return ⟨e, table⟩

/-- Loads a module from its image; a module without one is never loaded. -/
def loadImage (link : Linker γ) (m : SyntheticModule) : LoadOutcome γ :=
  match m.image with
  | none => ⟨none, []⟩
  | some image =>
    match openImage link m.epoch m.crateName image with
    | .ok source => ⟨some source, []⟩
    | .error e => ⟨none, [.moduleLoadFailure m.crateName e.chain]⟩

/-- Serves generators of the host itself in place of those of the module, which still has to be loadable. -/
def serve (table : List (Candidate γ)) (m : SyntheticModule) : LoadOutcome γ :=
  if m.isLoadable then ⟨some ⟨m.epoch, some table⟩, []⟩ else ⟨none, []⟩

end Loading

end SourceGen
