import SourceGen.Syntax.Basic

/-!
# The printed part of a tree

A tree tells how it was read: some parts are silent, others were never read. A declaration that leaves the
place where it was read takes along what is printed of it, and nothing else.
-/

namespace SourceGen

/-- The only part of a form that adds nothing to it. -/
def Form.onlyPart (f : Form) (parts : List Node) : Node :=
  match f, parts with
  | .phantom, [n] => n
  | .kept, [n] => n
  | f, parts => .form f parts

mutual

/-- The piece of syntax without silent parts and without marks on how it was read. -/
def Node.printed : Node → Node
  | .leaf l => .leaf l
  | .raw ts => .raw ts
  | .group d parts => .group d (Node.printedEach parts)
  | .form f parts => f.onlyPart (Node.printedEach parts)
  | .attr a => .attr a.printed
  | .item i => .item i.printed

/-- The parts that are printed. -/
def Node.printedEach : List Node → List Node
  | [] => []
  | .form .silent _ :: ns => Node.printedEach ns
  | n :: ns => n.printed :: Node.printedEach ns

/-- The attribute without silent parts. -/
def Attr.printed : Attr → Attr
  | .mk inner path args => .mk inner path (Node.printedEach args)

/-- Attributes without silent parts. -/
def Attr.printedEach : List Attr → List Attr
  | [] => []
  | a :: as => a.printed :: Attr.printedEach as

/-- The item without silent parts. -/
def Item.printed : Item → Item
  | .mk attrs vis decl => .mk (Attr.printedEach attrs) vis decl.printed

/-- Items without silent parts. -/
def Item.printedEach : List Item → List Item
  | [] => []
  | i :: is => i.printed :: Item.printedEach is

/-- The declaration without silent parts. -/
def Decl.printed : Decl → Decl
  | .useDecl rooted tree => .useDecl rooted tree
  | .externCrate name rename => .externCrate name rename
  | .module isUnsafe name none => .module isUnsafe name none
  | .module isUnsafe name (some items) => .module isUnsafe name (some (Item.printedEach items))
  | .data kind name generics body => .data kind name generics.printed (Node.printedEach body)
  | .trait qualifiers name generics supertraits whereClause members =>
    .trait (Node.printedEach qualifiers) name generics.printed supertraits.printed whereClause.printed
      (Node.printedEach members)
  | .impl header selfType whereClause members =>
    .impl (Node.printedEach header) selfType.printed whereClause.printed (Node.printedEach members)
  | .plain kind name parts => .plain kind name (Node.printedEach parts)
  | .verbatim tokens => .verbatim tokens

end

/-- The file without silent parts. -/
def SourceFile.printed (f : SourceFile) : SourceFile :=
  ⟨Attr.printedEach f.attrs, Item.printedEach f.items⟩

end SourceGen
