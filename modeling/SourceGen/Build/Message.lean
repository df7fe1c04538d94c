import SourceGen.View.Basic

/-!
# Messages of the compiler

What the compiler says about a generated crate.
-/

namespace SourceGen

/-- How grave a message is. -/
inductive MessageLevel
  | error
  | warning
  | note
deriving DecidableEq, Repr

/-- A message of the compiler. -/
structure CompilerMessage where
  /-- The code of the error, if it has one. -/
  code : Option String
  level : MessageLevel
  message : String
  /-- The message as the compiler would show it. -/
  rendered : Option String
  location : Option Location
deriving DecidableEq, Repr

end SourceGen
