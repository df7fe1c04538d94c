import SourceGen.Assembly.Crate
import SourceGen.Build.Epoch
import SourceGen.Build.Request
import SourceGen.Diagnostic.Basic

/-!
# Modules

A module is the outcome of one build: the generated crate, the image if it could be compiled, and what there
is to report. A program without marked declarations has an empty module, for which nothing is compiled.
-/

namespace SourceGen

/-- The request to compile an assembled crate. -/
def CompileRequest.ofCrate (e : Epoch) (a : AssembledCrate) (references : List Reference) : CompileRequest :=
  ⟨e.crateName, a.source, references⟩

/-- The outcome of a build. -/
structure SyntheticModule where
  epoch : Epoch
  crateName : String
  /-- The text of the generated crate. -/
  source : String
  image : Option (List UInt8)
  diagnostics : List Diagnostic
  /-- The types that the module offers. -/
  probes : List String
deriving DecidableEq, Repr

namespace SyntheticModule

/-- The module of a program without marked declarations. -/
def empty (e : Epoch) : SyntheticModule := ⟨e, e.crateName, "", none, [], []⟩

/-- Whether there is an image to load. -/
def isLoadable (m : SyntheticModule) : Bool := m.image.isSome

/-- The module that a compilation leaves. -/
def ofCompilation (e : Epoch) (a : AssembledCrate) (result : Except BuildError CompileOutput) :
    SyntheticModule :=
  match result with
  | .ok o => ⟨e, e.crateName, a.source, o.image, o.messages.map .ofCompiler, a.probes⟩
  | .error f => ⟨e, e.crateName, a.source, none, [.moduleBuildFailure e.crateName f.chain], a.probes⟩

end SyntheticModule

end SourceGen
