import SourceGen.Syntax.Basic

/-!
# Names brought into scope

An import binds names to paths. A group is no more than its members written one by one under the common
beginning.
-/

namespace SourceGen

/-- A name brought into scope. -/
structure Binding where
  /-- The visible name, which for all names of a module is `*`. -/
  name : String
  /-- The path that the name stands for, as written. -/
  target : List String
  /-- Whether all names of the target are brought into scope. -/
  glob : Bool
deriving DecidableEq, Repr

namespace UseTree

mutual

/-- The bindings of a use tree below `path`. A leaf `self` stands for the path itself. -/
def bindingsBelow (path : List String) : UseTree → List Binding
  | .step name rest => rest.bindingsBelow (path ++ [name])
  | .leaf name =>
    if name = "self" then (path.getLast?.map fun last => ⟨last, path, false⟩).toList
    else [⟨name, path ++ [name], false⟩]
  | .rename name other => [⟨other, if name = "self" then path else path ++ [name], false⟩]
  | .glob => [⟨"*", path, true⟩]
  | .group trees _ => bindingsBelowAll path trees

/-- The bindings of use trees below `path`, in order. -/
def bindingsBelowAll (path : List String) : List UseTree → List Binding
  | [] => []
  | t :: ts => t.bindingsBelow path ++ bindingsBelowAll path ts

end

/-- The bindings of a use tree, from left to right. -/
def bindings (t : UseTree) : List Binding := t.bindingsBelow []

mutual

/-- The first names of the paths of a use tree. -/
def roots : UseTree → List String
  | .step name _ => [name]
  | .leaf name => [name]
  | .rename name _ => [name]
  | .glob => ["*"]
  | .group trees _ => rootsAll trees

/-- The first names of the paths of use trees. -/
def rootsAll : List UseTree → List String
  | [] => []
  | t :: ts => t.roots ++ rootsAll ts

end

end UseTree

namespace Item

/-- The names that an item brings into the scope of its module. -/
def bindings (i : Item) : List Binding :=
  match i.decl with
  | .useDecl _ tree => tree.bindings
  | .externCrate name rename => [⟨rename.getD name, [name], false⟩]
  | _ => []

/-- Whether an item brings names into scope. -/
def isImport (i : Item) : Bool :=
  match i.decl with
  | .useDecl _ _ | .externCrate _ _ => true
  | _ => false

end Item

end SourceGen
