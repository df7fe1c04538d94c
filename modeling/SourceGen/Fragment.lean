import SourceGen.Resolution.Model
import SourceGen.Syntax.Equality
import SourceGen.Syntax.Printed

/-!
# Fragments

A fragment is a marked type declaration together with what it needs to compile on its own: its
implementations in the same module, and the imports and carried attributes of that module. Two fragments
are the same when these are, wherever they stand and however they are laid out.
-/

namespace SourceGen

open SourceGen.Text

/-- A marked declaration and its surroundings. -/
structure Fragment where
  /-- The position of the unit in the program. -/
  unit : Nat
  unitPath : String
  name : String
  kind : NodeKind
  modulePath : List String
  marker : Marker
  /-- The attributes as written, the marker among them. -/
  attributes : List Attr
  /-- The declaration without the marker. -/
  declaration : Item
  /-- The implementations for the type in the same module. -/
  impls : List Item
  /-- The import items of the module. -/
  imports : List Item
  innerAttrs : List Attr
  /-- Whether the declaration has generic parameters. -/
  generic : Bool

namespace Fragment

/-- Fragments are compared by what they add to a generated crate. -/
def beq (a b : Fragment) : Bool :=
  a.modulePath == b.modulePath && a.declaration == b.declaration && a.impls == b.impls &&
    a.imports == b.imports && a.innerAttrs == b.innerAttrs

instance : BEq Fragment := ⟨beq⟩

/-- The path of the type from the root of the crate. -/
def path (f : Fragment) : String := qualify f.modulePath f.name

/-- Whether the type can be offered as a generator: a trait cannot, nor can a type with parameters. -/
def isCandidate (f : Fragment) : Bool := !f.generic && f.kind != .trait

/-- The summary of what the fragment adds to a generated crate. -/
def fingerprint {δ : Type} [Digest δ] (f : Fragment) : δ :=
  Digest.combine <|
    [Digest.ofText (joinPath f.modulePath), Digest.ofText f.declaration.text] ++
      f.impls.map (fun i => Digest.ofText i.text) ++
      f.imports.map (fun i => Digest.ofText i.text) ++
      f.innerAttrs.map (fun a => Digest.ofText a.text)

end Fragment

/-- Whether a generic parameter list has parameters between its angle brackets. -/
def Node.hasParameters : Node → Bool
  | .form .generics parts => parts.length > 2
  | _ => false

/-- The last name of a path of segments. -/
def lastPathName (parts : List Node) : Option String :=
  match parts.getLast? with
  | some (.leaf (.word name)) => some name
  | some (.form .segment (.leaf (.word name) :: _)) => some name
  | _ => none

/-- The name that a type is called by: the last one of its path, whatever its arguments. -/
def Node.typeName? : Node → Option String
  | .form .path parts => lastPathName parts
  | .form .paren [.group .paren [t]] => t.typeName?
  | _ => none

namespace Item

/-- Kind, name and genericity of an item that declares a type. -/
def nominal? (i : Item) : Option (NodeKind × String × Bool) :=
  match i.decl with
  | .data .struct name generics _ => some (.struct, name, generics.hasParameters)
  | .data .enum name generics _ => some (.enum, name, generics.hasParameters)
  | .data .union name generics _ => some (.union, name, generics.hasParameters)
  | .trait _ name generics _ _ _ => some (.trait, name, generics.hasParameters)
  | _ => none

/-- Whether an item is an implementation for the type of a given name. -/
def isImplFor (name : String) (i : Item) : Bool :=
  match i.decl with
  | .impl _ selfType _ _ => selfType.typeName? == some name
  | _ => false

/-- The item without its `index`-th attribute. -/
def withoutAttr (i : Item) (index : Nat) : Item := i.withAttrs (i.attrs.eraseIdx index)

end Item

namespace Fragment

/-- The position and the marker of the first attribute that names one. -/
def firstMarker? (m : Model) (s : Scope) (attrs : List Attr) : Option (Nat × Marker) :=
  attrs.zipIdx.findSome? fun (a, i) => (m.markerOf s a).map (i, ·)

/-- The fragment of an item of a module, if the item is a marked type. -/
def ofItem? (m : Model) (unit : Nat) (unitPath : String) (s : Scope) (siblings : List Item) (i : Item) :
    Option Fragment :=
  match i.nominal? with
  | none => none
  | some (kind, name, generic) =>
    match firstMarker? m s i.attrs with
    | none => none
    | some (index, marker) => some
      { unit := unit
        unitPath := unitPath
        name := name
        kind := kind
        modulePath := s.modulePath
        marker := marker
        attributes := i.attrs
        declaration := i.withoutAttr index
        impls := siblings.filter (·.isImplFor name)
        imports := s.imports
        innerAttrs := s.innerAttrs
        generic := generic }

mutual

/-- The fragments of one item of a module; a module contributes those of its own items. -/
def below (m : Model) (unit : Nat) (unitPath : String) (s : Scope) (siblings : List Item) :
    Item → List Fragment
  | .mk attrs _ (.module _ name (some items)) =>
    belowAll m unit unitPath (s.nested attrs name items) items items
  | i => (ofItem? m unit unitPath s siblings i).toList

/-- The fragments of items in a row. -/
def belowAll (m : Model) (unit : Nat) (unitPath : String) (s : Scope) (siblings : List Item) :
    List Item → List Fragment
  | [] => []
  | i :: is => below m unit unitPath s siblings i ++ belowAll m unit unitPath s siblings is

end

/-- The fragments of a unit at a given position, in the order of their declarations. -/
def ofUnit (m : Model) (unit : Nat) (u : SourceUnit) : List Fragment :=
  let file := u.parsed.file.printed
  belowAll m unit u.path (Scope.ofFile u.modulePath file) file.items file.items

/-- The fragments of all units. -/
def ofModel (m : Model) : List Fragment :=
  m.program.units.zipIdx.flatMap fun (u, i) => ofUnit m i u

end Fragment

end SourceGen
