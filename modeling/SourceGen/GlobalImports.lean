import SourceGen.Syntax.Equality
import SourceGen.Syntax.Printed
import SourceGen.View.Walk

/-!
# Global imports

An import is global when it is visible in the whole crate and every path in it starts outside of the
crate. The global imports of a program form a set: sorted by their tokens and without repetitions.
-/

namespace SourceGen

namespace Visibility

/-- Whether a declaration is visible in the whole crate. -/
def isCrateWide : Visibility → Bool
  | .pub => true
  | .restricted within path => !within && path == ⟨false, ["crate"]⟩
  | .inherited => false

end Visibility

namespace UseTree

/-- Whether a root of a path stays inside the crate, or may do so. -/
def isLocalRoot (name : String) : Bool := ["self", "super", "crate", "*"].contains name

end UseTree

namespace Item

/-- Whether an item is a global import. -/
def isGlobalImport (i : Item) : Bool :=
  match i.decl with
  | .useDecl rooted tree =>
    i.vis.isCrateWide &&
      (rooted || (!tree.roots.isEmpty && !tree.roots.any UseTree.isLocalRoot))
  | _ => false

end Item

/-- A set of global imports. -/
structure GlobalImports where
  imports : List Item

namespace GlobalImports

/-- Equal sets have equal imports in equal order. -/
def beq (a b : GlobalImports) : Bool := a.imports == b.imports

instance : BEq GlobalImports := ⟨beq⟩

/-- Without items that equal their predecessor. -/
def dedup : List Item → List Item
  | [] => []
  | i :: is =>
    match dedup is with
    | [] => [i]
    | j :: js => if i == j then i :: js else i :: j :: js

/-- The set of given imports. -/
def ofItems (items : List Item) : GlobalImports :=
  let keyed := (items.map fun i => (i.text, i)).mergeSort fun a b => !(b.1 < a.1)
  ⟨dedup (keyed.map (·.2))⟩

/-- The global imports of a program, at any depth. -/
def ofProgram (p : Program) : GlobalImports :=
  ofItems ((p.units.flatMap (·.sightings.map (·.item.printed))).filter Item.isGlobalImport)

/-- The number of imports. -/
def size (g : GlobalImports) : Nat := g.imports.length

/-- The summary of a set. -/
def fingerprint {δ : Type} [Digest δ] (g : GlobalImports) : δ :=
  Digest.combine (g.imports.map fun i => Digest.ofText i.text)

end GlobalImports

end SourceGen
