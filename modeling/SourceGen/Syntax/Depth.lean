import SourceGen.Syntax.Basic

/-!
# Nesting of syntax

How deep a piece of syntax is nested. A walk that goes down one level at a time ends after that many steps.
-/

namespace SourceGen

mutual

/-- Levels of a piece of syntax. -/
def Node.depth : Node → Nat
  | .leaf _ => 1
  | .raw _ => 1
  | .group _ parts => Node.depthAll parts + 1
  | .form _ parts => Node.depthAll parts + 1
  | .attr a => a.depth + 1
  | .item i => i.depth + 1

/-- Levels of the deepest part. -/
def Node.depthAll : List Node → Nat
  | [] => 0
  | n :: ns => max n.depth (Node.depthAll ns)

/-- Levels of an attribute. -/
def Attr.depth : Attr → Nat
  | .mk _ _ args => Node.depthAll args + 1

/-- Levels of the deepest attribute. -/
def Attr.depthAll : List Attr → Nat
  | [] => 0
  | a :: as => max a.depth (Attr.depthAll as)

/-- Levels of an item. -/
def Item.depth : Item → Nat
  | .mk attrs _ decl => max (Attr.depthAll attrs) decl.depth + 1

/-- Levels of the deepest item. -/
def Item.depthAll : List Item → Nat
  | [] => 0
  | i :: is => max i.depth (Item.depthAll is)

/-- Levels of a declaration. -/
def Decl.depth : Decl → Nat
  | .useDecl _ _ => 0
  | .externCrate _ _ => 0
  | .module _ _ items =>
    match items with
    | some is => Item.depthAll is + 1
    | none => 0
  | .data _ _ generics body => max generics.depth (Node.depthAll body)
  | .trait qualifiers _ generics supertraits whereClause members =>
    max (max (Node.depthAll qualifiers) generics.depth)
      (max (max supertraits.depth whereClause.depth) (Node.depthAll members))
  | .impl header selfType whereClause members =>
    max (max (Node.depthAll header) selfType.depth) (max whereClause.depth (Node.depthAll members))
  | .plain _ _ parts => Node.depthAll parts
  | .verbatim _ => 0

end

end SourceGen
