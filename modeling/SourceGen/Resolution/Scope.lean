import SourceGen.Program.Basic
import SourceGen.Resolution.Use

/-!
# Scopes

A scope is what one module makes visible: the names its imports bind, the imports themselves, and the
inner attributes that code taken out of the module still needs.
-/

namespace SourceGen

/-- What is visible inside one module. -/
structure Scope where
  modulePath : List String
  bindings : List Binding
  /-- The import items of the module. -/
  imports : List Item
  /-- The inner attributes that are carried along. -/
  innerAttrs : List Attr

/-- Inner attributes that are carried along from the root of a crate only. -/
def rootOnlyAttributes : List String := ["feature", "recursion_limit", "type_length_limit"]

/-- The inner attributes that are carried along: `allow`, and at the root of a crate language features and
limits. Others would change how the code builds. -/
def carriedAttributes (isRoot : Bool) (attrs : List Attr) : List Attr :=
  attrs.filter fun a =>
    a.inner && (a.isNamed "allow" || (isRoot && rootOnlyAttributes.any a.isNamed))

namespace Scope

/-- The scope of a module with given items. -/
def ofItems (modulePath : List String) (items : List Item) (innerAttrs : List Attr) : Scope where
  modulePath := modulePath
  bindings := items.flatMap Item.bindings
  imports := items.filter Item.isImport
  innerAttrs := innerAttrs

/-- The scope of a file that defines a given module. -/
def ofFile (modulePath : List String) (f : SourceFile) : Scope :=
  ofItems modulePath f.items (carriedAttributes modulePath.isEmpty f.attrs)

/-- The scope of a unit. -/
def ofUnit (u : SourceUnit) : Scope := ofFile u.modulePath u.parsed.file

/-- The scope of an inline module declared in this one. -/
def nested (s : Scope) (attrs : List Attr) (name : String) (items : List Item) : Scope :=
  ofItems (s.modulePath ++ [name]) items (carriedAttributes false attrs)

/-- The items and the scope of the first module of a given name among `items`, if it has a body. -/
def enter? (s : Scope) (items : List Item) (name : String) : Option (Scope × List Item) :=
  let isWanted (i : Item) : Bool := match i.decl with
    | .module _ n _ => n == name
    | _ => false
  match items.find? isWanted with
  | some (.mk attrs _ (.module _ n (some inner))) => some (s.nested attrs n inner, inner)
  | _ => none

/-- The items and the scope reached by entering modules one after another. -/
def descend? (s : Scope) (items : List Item) : List String → Option (Scope × List Item)
  | [] => some (s, items)
  | n :: ns =>
    match s.enter? items n with
    | some (inner, innerItems) => inner.descend? innerItems ns
    | none => none

end Scope

end SourceGen
