import SourceGen.Fault

/-!
# Failures to load a module

A compiled module is refused if it is no library, if it lacks an entry point, or if it was built against
another version of the contract.
-/

namespace SourceGen

/-- Why a compiled module is refused. -/
inductive LoadError
  | /-- The image cannot be written to a file. -/
    stage (cause : ErrorChain)
  | /-- The linker does not take the file. -/
    library (linkerText : String)
  | missingSymbol (symbol linkerText : String)
  | incompatibleProtocol (found expected : Nat)
  | incompatibleSdk (found expected : String)
  | invalidManifest (reason : String)
  | emptyDiscovery
deriving DecidableEq, Repr

namespace LoadError

/-- The error with its causes. -/
def chain : LoadError → ErrorChain
  | .stage e => ⟨"failed to stage the module image: " ++ e.text, e.asCauses⟩
  | .library linkerText => ⟨"failed to load the module library: " ++ linkerText, [linkerText]⟩
  | .missingSymbol symbol linkerText =>
    ⟨"module does not export `" ++ symbol ++ "`: " ++ linkerText, [linkerText]⟩
  | .incompatibleProtocol found expected =>
    .ofText ("module speaks FFI protocol " ++ toString found ++ ", host expects " ++ toString expected)
  | .incompatibleSdk found expected =>
    .ofText ("module was built against microgen_sdk " ++ found ++ ", host uses " ++ expected)
  | .invalidManifest reason => .ofText ("module manifest is malformed: " ++ reason)
  | .emptyDiscovery => .ofText "module returned no discovery table"

/-- The text of the error. -/
def text (e : LoadError) : String := e.chain.text

end LoadError

end SourceGen
