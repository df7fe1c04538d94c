import SourceGen.Syntax.Basic

/-!
# Equality of syntax

Two pieces of syntax are the same when they have the same shape and the same tokens. Places take no part,
since a tree has none.
-/

namespace SourceGen

namespace UseTree

mutual

/-- Whether two use trees are the same. -/
def beq : UseTree → UseTree → Bool
  | .step a x, .step b y => a == b && x.beq y
  | .leaf a, .leaf b => a == b
  | .rename a x, .rename b y => a == b && x == y
  | .glob, .glob => true
  | .group xs s, .group ys t => beqAll xs ys && s == t
  | _, _ => false

/-- Whether two lists of use trees are the same. -/
def beqAll : List UseTree → List UseTree → Bool
  | [], [] => true
  | x :: xs, y :: ys => x.beq y && beqAll xs ys
  | _, _ => false

end

instance : BEq UseTree := ⟨beq⟩

end UseTree

mutual

/-- Whether two pieces of syntax are the same. -/
def Node.beq : Node → Node → Bool
  | .leaf a, .leaf b => a == b
  | .raw a, .raw b => a == b
  | .group d xs, .group e ys => d == e && Node.beqAll xs ys
  | .form f xs, .form g ys => f == g && Node.beqAll xs ys
  | .attr a, .attr b => a.beq b
  | .item a, .item b => a.beq b
  | _, _ => false

/-- Whether two lists of parts are the same. -/
def Node.beqAll : List Node → List Node → Bool
  | [], [] => true
  | x :: xs, y :: ys => x.beq y && Node.beqAll xs ys
  | _, _ => false

/-- Whether two attributes are the same. -/
def Attr.beq : Attr → Attr → Bool
  | .mk i p xs, .mk j q ys => i == j && p == q && Node.beqAll xs ys

/-- Whether two lists of attributes are the same. -/
def Attr.beqAll : List Attr → List Attr → Bool
  | [], [] => true
  | x :: xs, y :: ys => x.beq y && Attr.beqAll xs ys
  | _, _ => false

/-- Whether two items are the same. -/
def Item.beq : Item → Item → Bool
  | .mk as v d, .mk bs w e => Attr.beqAll as bs && v == w && d.beq e

/-- Whether two lists of items are the same. -/
def Item.beqAll : List Item → List Item → Bool
  | [], [] => true
  | x :: xs, y :: ys => x.beq y && Item.beqAll xs ys
  | _, _ => false

/-- Whether two declarations are the same. -/
def Decl.beq : Decl → Decl → Bool
  | .useDecl r t, .useDecl s u => r == s && t == u
  | .externCrate n r, .externCrate m s => n == m && r == s
  | .module u n (some is), .module v m (some js) => u == v && n == m && Item.beqAll is js
  | .module u n none, .module v m none => u == v && n == m
  | .data k n g b, .data l m h c => k == l && n == m && g.beq h && Node.beqAll b c
  | .trait q n g s w ms, .trait r m h t x ns =>
    Node.beqAll q r && n == m && g.beq h && s.beq t && w.beq x && Node.beqAll ms ns
  | .impl h t w ms, .impl i u x ns => Node.beqAll h i && t.beq u && w.beq x && Node.beqAll ms ns
  | .plain k n ps, .plain l m qs => k == l && n == m && Node.beqAll ps qs
  | .verbatim ts, .verbatim us => ts == us
  | _, _ => false

end

instance : BEq Node := ⟨Node.beq⟩

instance : BEq Attr := ⟨Attr.beq⟩

instance : BEq Item := ⟨Item.beq⟩

end SourceGen
