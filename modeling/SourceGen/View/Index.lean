import SourceGen.Resolution.Model
import SourceGen.Syntax.Text
import SourceGen.View.Context
import SourceGen.View.Walk

/-!
# The index of a program

All declarations of a program as numbered nodes, in the order of the walk, and the context made of the
names they declare. Nodes and symbols are read off the same sightings, so a symbol repeats what its node
says.
-/

namespace SourceGen

namespace Item

/-- The kind of an item. -/
def kind (i : Item) : NodeKind :=
  match i.decl with
  | .useDecl _ _ => .use
  | .externCrate _ _ => .externCrate
  | .module _ _ _ => .module
  | .data .struct _ _ _ => .struct
  | .data .enum _ _ _ => .enum
  | .data .union _ _ _ => .union
  | .trait _ _ _ _ _ _ => .trait
  | .impl _ _ _ _ => .impl
  | .plain .fn _ _ => .fn
  | .plain .method _ _ => .method
  | .plain .const _ _ => .const
  | .plain .static _ _ => .static
  | .plain .typeAlias _ _ => .typeAlias
  | .plain .macroItem _ _ => .macroCall
  | .plain .traitAlias _ _ => .other
  | .plain .foreignBlock _ _ => .other
  | .verbatim _ => .other

/-- The name of an item. An implementation is called by the text of its type. -/
def name? (i : Item) : Option String :=
  match i.decl with
  | .useDecl _ _ => none
  | .externCrate name _ => some name
  | .module _ name _ => some name
  | .data _ name _ _ => some name
  | .trait _ name _ _ _ _ => some name
  | .impl _ selfType _ _ => some selfType.text
  | .plain .traitAlias _ _ => none
  | .plain .foreignBlock _ _ => none
  | .plain _ name _ => name
  | .verbatim _ => none

/-- The attributes that generators see: outer ones that are no documentation. -/
def visibleAttrs (i : Item) : List Attr :=
  i.attrs.filter fun a => !a.inner && !a.isNamed "doc"

end Item

/-- The nodes of a program and their declared names. -/
structure NodeIndex where
  nodes : List NodeView
  context : Context
deriving DecidableEq, Repr

namespace NodeIndex

/-- A sighting as a numbered node. -/
def nodeOf (m : Model) (u : SourceUnit) (id : Nat) (s : Sighting) : NodeView :=
  let place := u.parsed.placeOf s.start
  { id := id
    kind := s.item.kind
    name := s.item.name?
    modulePath := s.scope.modulePath
    attributes := s.item.visibleAttrs.map (m.attributeView s.scope)
    source := s.item.text
    location := ⟨u.path, place.line, place.column⟩ }

/-- The symbol that a node declares, if it declares one. -/
def symbolOf (n : NodeView) : Option Symbol :=
  match n.name with
  | some name =>
    if n.kind.declaresSymbol then
      some ⟨name, n.kind, n.modulePath, n.attributes, n.id, n.location⟩
    else none
  | none => none

/-- The nodes of a program. -/
def nodesOf (m : Model) : List NodeView :=
  let met := m.program.units.flatMap fun u => u.sightings.map fun s => (u, s)
  met.zipIdx.map fun ((u, s), id) => nodeOf m u id s

/-- The index of a program. -/
def ofModel (m : Model) : NodeIndex :=
  let nodes := nodesOf m
  ⟨nodes, ⟨m.program.crateName, nodes.filterMap symbolOf⟩⟩

end NodeIndex

end SourceGen
