import SourceGen.Program.Path
import SourceGen.Text.Quoted

/-!
# References to other crates

A program depends on other crates, each named once. A reference becomes one line of the dependency table
of the generated crate.
-/

namespace SourceGen

open SourceGen.Text

/-- Where a referenced crate comes from. -/
inductive ReferenceSource
  | /-- A directory. -/
    path (path : String)
  | /-- A version requirement of the package registry. -/
    version (requirement : String)
deriving DecidableEq, Repr

/-- A crate that the program depends on. -/
structure Reference where
  name : String
  source : ReferenceSource
deriving DecidableEq, Repr

namespace Reference

/-- The line of the dependency table. -/
def manifestEntry (r : Reference) : String :=
  match r.source with
  | .path p => r.name ++ " = \x7b path = " ++ quoted p ++ " \x7d"
  | .version v => r.name ++ " = " ++ quoted v

/-- Whether two sources are the same: paths by their components. -/
def sameSource (a b : ReferenceSource) : Bool :=
  match a, b with
  | .path p, .path q => SourcePath.parts p == SourcePath.parts q
  | .version v, .version w => v == w
  | _, _ => false

/-- Whether two references are the same, however their paths are written. -/
def same (a b : Reference) : Bool := a.name == b.name && sameSource a.source b.source

/-- Whether two lists hold the same references in the same order. -/
def sameList : List Reference → List Reference → Bool
  | [], [] => true
  | a :: as, b :: bs => same a b && sameList as bs
  | _, _ => false

/-- Adds a reference; a reference of the same name gives way. -/
def insert (rs : List Reference) (r : Reference) : List Reference :=
  rs.filter (·.name ≠ r.name) ++ [r]

/-- References in the order of their names; equal names keep their order. -/
def sortByName (rs : List Reference) : List Reference :=
  rs.mergeSort fun a b => !(b.name < a.name)

end Reference

end SourceGen
