import SourceGen.Program.Basic

/-!
# Markers

Two attributes flag declarations for extraction. They are recognised by the path they resolve to, which
starts at one of the crates that declare them.
-/

namespace SourceGen

/-- What an extracted declaration is. -/
inductive Marker
  | /-- The declaration is a generator. -/
    generator
  | /-- The declaration is needed by a generator. -/
    dependency
deriving DecidableEq, Repr

namespace Marker

/-- Both markers. -/
def all : List Marker := [generator, dependency]

/-- The name of the attribute. -/
def attributeName : Marker → String
  | generator => "micro_generator"
  | dependency => "generator_dependency"

/-- The path of the attribute in the crate that generators are written against. -/
def path (m : Marker) : String := sdkCrate ++ "::" ++ m.attributeName

end Marker

/-- The crates that declare the markers. -/
def markerCrates : List String := [sdkCrate, "microgen_macros"]

/-- The paths under which the markers are reachable. -/
structure MarkerTable where
  paths : List (String × Marker)
deriving DecidableEq, Repr

namespace MarkerTable

/-- The paths of the markers in the crates that a program references; without any such crate there is no
marker. -/
def ofProgram (p : Program) : Except PassError MarkerTable :=
  let crates := markerCrates.filter fun c => (p.reference? c).isSome
  if crates.isEmpty then .error (.markerUnresolved Marker.generator.path)
  else .ok ⟨Marker.all.flatMap fun m => crates.map fun c => (c ++ "::" ++ m.attributeName, m)⟩

/-- The marker reachable under a path. -/
def lookup? (t : MarkerTable) (path : String) : Option Marker :=
  (t.paths.find? (·.1 = path)).map (·.2)

/-- The marker that the first fitting candidate names. -/
def classify (t : MarkerTable) (candidates : List String) : Option Marker :=
  candidates.findSome? t.lookup?

end MarkerTable

end SourceGen
