import SourceGen.Syntax.Precedence

/-!
# Round brackets

A tree that was read with less than the usual brackets, as where a range ends a closure that more follows,
could not be read back from its tokens alone. Grouping puts round brackets around such operands. Everything
that is written, as token text or as formatted text, is grouped first.
-/

namespace SourceGen

/-- How a part of an expression is written. -/
structure Operand where
  around : Surroundings := {}
  inParens : Bool := false
deriving DecidableEq, Repr

namespace Operand

/-- An operand before an operator, in brackets if it holds together less strongly than `isLoose` admits. -/
def left (firm : Bool) (c : Surroundings) (isLoose : Precedence → Bool) (e : Node) : Operand :=
  ⟨c, isLoose (c.leftPrecedence firm e)⟩

/-- An operand after an operator, in brackets if it holds together less strongly than `isLoose` admits. -/
def right (firm : Bool) (c : Surroundings) (isLoose : Precedence → Bool) (e : Node) : Operand :=
  ⟨c, isLoose (c.rightPrecedence firm e)⟩

/-- Whether an expression is the field of a given name. -/
def isNamedField : Node → Bool
  | .form .field [_, _, .leaf (.word _)] => true
  | _ => false

/-- How the parts of a form are written that stands in `c`; parts that are not listed stand alone. -/
def ofParts (firm : Bool) (c : Surroundings) : Form → List Node → List Operand
  | .attributed, [_, e] =>
    match e with
    | .form .assign _ | .form .binary _ | .form .range _ | .form .cast _ => [{}, ⟨{}, true⟩]
    | _ => [{}, ⟨{ c with optionalOperand := false }, false⟩]
  | .assign, [l, _, _] =>
    [left firm (c.before false .assign) (· ≤ .range) l, {}, ⟨c.after false false .assign, false⟩]
  | .binary, [l, o, r] =>
    let p := o.operatorPrecedence
    let isLoose (q : Precedence) : Bool := match p with
      | .assign => q ≤ .range
      | .comparison => q ≤ p
      | _ => q < p
    [left firm (c.before o.beginsExpr p) isLoose l, {},
      right firm (c.after false false p) (fun q => p ≠ .assign && q ≤ p) r]
  | .range, [lower, _, upper] =>
    [left firm (c.before true .range) (fun q => !lower.isAbsent && q ≤ .range) lower, {},
      right firm (c.after false true .range) (fun q => !upper.isAbsent && q ≤ .range) upper]
  | .cast, [e, _, _] => [left firm (c.before false .cast) (· < .cast) e]
  | .call, [f, _] =>
    let around := c.before true .atom
    if isNamedField f then [⟨around, true⟩] else [left firm around (· < .atom) f]
  | .index, [e, _] => [left firm (c.before true .atom) (· < .atom) e]
  | .awaitExpr, e :: _ | .field, e :: _ | .methodCall, e :: _ | .tryExpr, e :: _ =>
    [left firm c.beforeDot (· < .atom) e]
  | .reference, [_, _, e] => [{}, {}, right firm (c.after false false .unary) (· < .unary) e]
  | .rawAddr, [_, _, _, e] => [{}, {}, {}, right firm (c.after false false .unary) (· < .unary) e]
  | .unary, [_, e] => [{}, right firm (c.after false false .unary) (· < .unary) e]
  | .letExpr, [_, _, _, e] =>
    [{}, {}, {}, right firm (c.after false false .binding) (· < .binding) e]
  | .breakExpr, _ => [{}, {}, ⟨c.after true true .jump, false⟩]
  | .returnExpr, _ | .yieldExpr, _ => [{}, ⟨c.after true false .jump, false⟩]
  | .closure, _ => [{}, {}, {}, {}, {}, {}, {}, ⟨c.after false false .jump, false⟩]
  | .ifExpr, _ | .matchExpr, _ => [{}, ⟨.ofCondition, false⟩]
  | .whileLoop, _ => [{}, {}, ⟨.ofCondition, false⟩]
  | .forLoop, _ => [{}, {}, {}, {}, ⟨.ofCondition, false⟩]
  | .arm, _ => [{}, {}, {}, {}, ⟨.ofArm, false⟩]
  | .exprStmt, _ => [⟨.ofStatement, false⟩]
  | _, _ => []

end Operand

mutual

/-- The expression with the round brackets that it needs where it stands. A closure takes in all that it
can if `firm`. -/
def Node.groupedIn (firm : Bool) (c : Surroundings) : Node → Node
  | .leaf l => .leaf l
  | .raw ts => .raw ts
  | .group d parts => .group d (Node.groupedEach firm [] parts)
  | .form f parts =>
    if c.parenthesizes (.form f parts) then
      Node.inParens (.form f (Node.groupedEach firm (Operand.ofParts firm {} f parts) parts))
    else .form f (Node.groupedEach firm (Operand.ofParts firm c f parts) parts)
  | .attr a => .attr (a.grouped firm)
  | .item i => .item (i.grouped firm)

/-- Parts of a form, written as the operands say. -/
def Node.groupedEach (firm : Bool) : List Operand → List Node → List Node
  | _, [] => []
  | [], n :: ns => n.groupedIn firm {} :: Node.groupedEach firm [] ns
  | o :: os, n :: ns =>
    (if o.inParens then Node.inParens (n.groupedIn firm {}) else n.groupedIn firm o.around) ::
      Node.groupedEach firm os ns

/-- The attribute with the round brackets that its value needs. -/
def Attr.grouped (firm : Bool) : Attr → Attr
  | .mk inner path args => .mk inner path (Node.groupedEach firm [] args)

/-- Attributes with the round brackets that their values need. -/
def Attr.groupedEach (firm : Bool) : List Attr → List Attr
  | [] => []
  | a :: as => a.grouped firm :: Attr.groupedEach firm as

/-- The item with the round brackets that its expressions need. -/
def Item.grouped (firm : Bool) : Item → Item
  | .mk attrs vis decl => .mk (Attr.groupedEach firm attrs) vis (decl.grouped firm)

/-- Items with the round brackets that their expressions need. -/
def Item.groupedEach (firm : Bool) : List Item → List Item
  | [] => []
  | i :: is => i.grouped firm :: Item.groupedEach firm is

/-- The declaration with the round brackets that its expressions need. -/
def Decl.grouped (firm : Bool) : Decl → Decl
  | .useDecl rooted tree => .useDecl rooted tree
  | .externCrate name rename => .externCrate name rename
  | .module isUnsafe name none => .module isUnsafe name none
  | .module isUnsafe name (some items) => .module isUnsafe name (some (Item.groupedEach firm items))
  | .data kind name generics body =>
    .data kind name (generics.groupedIn firm {}) (Node.groupedEach firm [] body)
  | .trait qualifiers name generics supertraits whereClause members =>
    .trait qualifiers name (generics.groupedIn firm {}) (supertraits.groupedIn firm {})
      (whereClause.groupedIn firm {}) (Node.groupedEach firm [] members)
  | .impl header selfType whereClause members =>
    .impl (Node.groupedEach firm [] header) (selfType.groupedIn firm {})
      (whereClause.groupedIn firm {}) (Node.groupedEach firm [] members)
  | .plain kind name parts => .plain kind name (Node.groupedEach firm [] parts)
  | .verbatim tokens => .verbatim tokens

end

/-- A piece of syntax with the round brackets that its expressions need. -/
def Node.grouped (firm : Bool) (n : Node) : Node := n.groupedIn firm {}

/-- A file with the round brackets that its expressions need. -/
def SourceFile.grouped (firm : Bool) (f : SourceFile) : SourceFile :=
  ⟨Attr.groupedEach firm f.attrs, Item.groupedEach firm f.items⟩

end SourceGen
