import SourceGen.Build.Error
import SourceGen.Build.Message
import SourceGen.Program.Reference

/-!
# Compilations

What a compiler of modules is given, and what it gives back.
-/

namespace SourceGen

/-- The version of this library and of the contract of generators. -/
def libraryVersion : String := "0.1.0"

/-- A generated crate to compile. -/
structure CompileRequest where
  crateName : String
  source : String
  references : List Reference
deriving DecidableEq, Repr

/-- What a compilation leaves: an image that can be loaded, if all went well, and the messages. -/
structure CompileOutput where
  image : Option (List UInt8)
  messages : List CompilerMessage
deriving DecidableEq, Repr

namespace CompileOutput

/-- Whether there is an image. -/
def succeeded (o : CompileOutput) : Bool := o.image.isSome

end CompileOutput

end SourceGen
