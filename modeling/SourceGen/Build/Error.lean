import SourceGen.Fault

/-!
# Failures of a build

Errors in the generated crate are messages of the compiler. What is listed here is the rest: the build could
not be run, or did not leave what it promised.
-/

namespace SourceGen

/-- Why there is no compiled module although the compiler found nothing wrong. -/
inductive BuildError
  | /-- The project cannot be written. -/
    scratch (path : String) (cause : ErrorChain)
  | /-- The build program cannot be started. -/
    spawn (program : String) (cause : ErrorChain)
  | /-- The build claims success but names no library. -/
    missingArtifact (crateName : String)
  | /-- The named library cannot be read. -/
    readArtifact (path : String) (cause : ErrorChain)
deriving DecidableEq, Repr

namespace BuildError

/-- The error with its causes. -/
def chain : BuildError → ErrorChain
  | .scratch path e =>
    ⟨"failed to prepare the synthetic crate in `" ++ path ++ "`: " ++ e.text, e.asCauses⟩
  | .spawn program e => ⟨"failed to run `" ++ program ++ "`: " ++ e.text, e.asCauses⟩
  | .missingArtifact crateName =>
    .ofText ("cargo reported success but produced no library artifact for `" ++ crateName ++ "`")
  | .readArtifact path e =>
    ⟨"failed to read the compiled module `" ++ path ++ "`: " ++ e.text, e.asCauses⟩

/-- The text of the error. -/
def text (e : BuildError) : String := e.chain.text

end BuildError

end SourceGen
