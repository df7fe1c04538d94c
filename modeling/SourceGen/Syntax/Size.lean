import SourceGen.Syntax.Basic

/-!
# Size of syntax

How many lexemes a piece of syntax was read from. A bracket counts one, an operator as many as it has
characters. Sizes are what places are computed from: a part starts where the parts before it end.
-/

namespace SourceGen

/-- Lexemes of a leaf; a literal with a sign was read from two. -/
def Leaf.size : Leaf → Nat
  | .word _ => 1
  | .lifetime _ => 1
  | .literal s => if s.startsWith "-" then 2 else 1
  | .op s => s.length

namespace NamePath

/-- Lexemes of a path; `::` counts two. -/
def size (p : NamePath) : Nat :=
  (if p.rooted then 2 else 0) + p.names.length + 2 * (p.names.length - 1)

end NamePath

namespace Visibility

/-- Lexemes of a visibility. -/
def size : Visibility → Nat
  | .inherited => 0
  | .pub => 1
  | .restricted within path => 3 + (if within then 1 else 0) + path.size

end Visibility

namespace UseTree

mutual

/-- Lexemes of a use tree. -/
def size : UseTree → Nat
  | .step _ rest => 3 + rest.size
  | .leaf _ => 1
  | .rename _ _ => 3
  | .glob => 1
  | .group trees trailing => 2 + sizeAll trailing trees

/-- Lexemes of use trees and the commas between them. -/
def sizeAll (trailing : Bool) : List UseTree → Nat
  | [] => 0
  | [t] => t.size + (if trailing then 1 else 0)
  | t :: ts => t.size + 1 + sizeAll trailing ts

end

end UseTree

mutual

/-- Lexemes of a piece of syntax. -/
def Node.size : Node → Nat
  | .leaf l => l.size
  | .raw ts => TokenTree.sizeAll ts
  | .group _ parts => 2 + Node.sizeAll parts
  | .form .phantom _ => 0
  | .form _ parts => Node.sizeAll parts
  | .attr a => a.size
  | .item i => i.size

/-- Lexemes of parts in a row. -/
def Node.sizeAll : List Node → Nat
  | [] => 0
  | n :: ns => n.size + Node.sizeAll ns

/-- Lexemes of an attribute. -/
def Attr.size : Attr → Nat
  | .mk inner path args => 3 + (if inner then 1 else 0) + path.size + Node.sizeAll args

/-- Lexemes of the inner or of the outer attributes among `attrs`. -/
def Attr.sizeAll (inner : Bool) : List Attr → Nat
  | [] => 0
  | a :: as => (if a.inner == inner then a.size else 0) + Attr.sizeAll inner as

/-- Lexemes of an item. -/
def Item.size : Item → Nat
  | .mk attrs vis decl => Attr.sizeAll false attrs + vis.size + decl.size + Attr.sizeAll true attrs

/-- Lexemes of items in a row. -/
def Item.sizeAll : List Item → Nat
  | [] => 0
  | i :: is => i.size + Item.sizeAll is

/-- Lexemes of a declaration without its inner attributes. -/
def Decl.size : Decl → Nat
  | .useDecl rooted tree => 2 + (if rooted then 2 else 0) + tree.size
  | .externCrate _ rename => if rename.isSome then 6 else 4
  | .module isUnsafe _ items =>
    (if isUnsafe then 1 else 0) + 2 +
      (match items with
        | some is => 2 + Item.sizeAll is
        | none => 1)
  | .data _ _ generics body => 2 + generics.size + Node.sizeAll body
  | .trait qualifiers _ generics supertraits whereClause members =>
    Node.sizeAll qualifiers + 2 + generics.size + supertraits.size + whereClause.size + 2 +
      Node.sizeAll members
  | .impl header selfType whereClause members =>
    Node.sizeAll header + selfType.size + whereClause.size + 2 + Node.sizeAll members
  | .plain _ _ parts => Node.sizeAll parts
  | .verbatim tokens => TokenTree.sizeAll tokens

end

/-- Lexemes of a declaration up to and with the bracket that opens its body; inner attributes follow. -/
def Decl.headSize : Decl → Nat
  | .module isUnsafe _ _ => (if isUnsafe then 1 else 0) + 3
  | .trait qualifiers _ generics supertraits whereClause _ =>
    Node.sizeAll qualifiers + 2 + generics.size + supertraits.size + whereClause.size + 1
  | .impl header selfType whereClause _ =>
    Node.sizeAll header + selfType.size + whereClause.size + 1
  | _ => 0

end SourceGen
