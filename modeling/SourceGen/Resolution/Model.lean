import SourceGen.Resolution.Marker
import SourceGen.Resolution.Scope
import SourceGen.View.Basic

/-!
# Resolving paths

What a path written in a scope may stand for, best candidate first. A path from the root of a crate reads
`crate::…` for the program itself and starts with the name of the crate for any other.
-/

namespace SourceGen

open SourceGen.Text

/-- Crates that every program can name. -/
def builtinCrates : List String := ["std", "core", "alloc"]

/-- What resolution knows about a program. -/
structure Model where
  program : Program
  markers : MarkerTable
  externCrates : List String

namespace Model

/-- The model of a program, which must reference a crate that declares the markers. -/
def ofProgram (p : Program) : Except PassError Model := do
  let markers ← MarkerTable.ofProgram p
  return ⟨p, markers, builtinCrates ++ p.references.map (·.name)⟩

/-- Whether a name is that of another crate. -/
def isExternCrate (m : Model) (name : String) : Bool := m.externCrates.contains name

/-- The text of a path from the root of the program. -/
def fromRoot (names : List String) : String :=
  if names.isEmpty then "crate" else "crate::" ++ joinPath names

/-- The canonical form of a path written in a module. Every leading `super` leaves one module. -/
def canonical (m : Model) (modulePath path : List String) : String :=
  match path with
  | [] => "crate"
  | first :: rest =>
    if first = "crate" then fromRoot rest
    else if first = "self" then fromRoot (modulePath ++ rest)
    else if first = "super" then
      let supers := (path.takeWhile (· == "super")).length
      fromRoot (modulePath.take (modulePath.length - supers) ++ path.dropWhile (· == "super"))
    else if m.isExternCrate first then joinPath path
    else fromRoot (modulePath ++ path)

/-- Candidates without repetitions, first ones kept. -/
def distinct (candidates : List String) : List String :=
  candidates.foldl (fun seen c => if seen.contains c then seen else seen ++ [c]) []

/-- The meanings that bindings of a given name give to a path. -/
def boundCandidates (m : Model) (s : Scope) (first : String) (rest : List String) : List String :=
  distinct <| (s.bindings.filter fun b => !b.glob && b.name == first).map fun b =>
    m.canonical s.modulePath (b.target ++ rest)

/-- The meanings that a path without a bound first name may have: in another crate, below an import of all
names, or in the module itself. -/
def freeCandidates (m : Model) (s : Scope) (first : String) (path : List String) : List String :=
  distinct <|
    (if m.isExternCrate first then [joinPath path] else []) ++
      ((s.bindings.filter (·.glob)).map fun b => m.canonical s.modulePath (b.target ++ path)) ++
      [m.canonical s.modulePath path]

/-- What a path written in a scope may stand for, best first. -/
def candidates (m : Model) (s : Scope) (p : NamePath) : List String :=
  if p.rooted then [joinPath p.names]
  else
    match p.names with
    | [] => []
    | first :: rest =>
      if ["crate", "self", "super"].contains first then [m.canonical s.modulePath p.names]
      else
        let bound := m.boundCandidates s first rest
        if bound.isEmpty then m.freeCandidates s first p.names else bound

/-- The marker that an attribute names. -/
def markerOf (m : Model) (s : Scope) (a : Attr) : Option Marker :=
  m.markers.classify (m.candidates s a.path)

/-- The text of a path as written. -/
def pathText (p : NamePath) : String :=
  (if p.rooted then "::" else "") ++ joinPath p.names

/-- An attribute as generators see it. -/
def attributeView (m : Model) (s : Scope) (a : Attr) : AttributeView :=
  ⟨pathText a.path, m.candidates s a.path, a.text⟩

end Model

end SourceGen
