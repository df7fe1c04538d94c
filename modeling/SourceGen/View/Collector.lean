import SourceGen.View.Index

/-!
# Collecting nodes step by step

An index is made in one walk through each unit. The walk keeps a stack of scopes: that of the unit at the bottom, and
above it those of the inline modules that it is in. Whatever needs a scope looks at the top of the stack. An item that
is met becomes a node, whose number is how many nodes there are before it, and a symbol if it declares one. Numbers have
32 bits.
-/

namespace SourceGen

/-- What a walk does. -/
inductive Visit
  | /-- An item is met; `start` lexemes are before it. -/
    meet (start : Nat) (item : Item)
  | /-- The walk goes into an inline module. -/
    enter (attrs : List Attr) (name : String) (items : List Item)
  | /-- The walk goes out of the innermost module. -/
    leave

mutual

/-- The steps of a walk through a piece of syntax that starts after `start` lexemes. -/
def Node.visits (start : Nat) : Node → List Visit
  | .leaf _ => []
  | .raw _ => []
  | .group _ parts => Turn.arrange (Node.visitsEach (start + 1) parts)
  | .form .phantom _ => []
  | .form .silent _ => []
  | .form _ parts => Turn.arrange (Node.visitsEach start parts)
  | .attr a => a.visits start
  | .item i => i.visits start

/-- The steps through parts in a row, with the turn of each part. -/
def Node.visitsEach (start : Nat) : List Node → List (Turn × List Visit)
  | [] => []
  | .group d parts :: ns =>
    let steps := Node.visitsEach (start + 1) parts
    (Turn.attributes, Turn.arrange (steps.filter (·.1 = Turn.attributes))) ::
      (Turn.others, Turn.arrange (steps.filter (·.1 ≠ Turn.attributes))) ::
      Node.visitsEach (start + (Node.group d parts).size) ns
  | n :: ns => (Turn.ofNode n, n.visits start) :: Node.visitsEach (start + n.size) ns

/-- The steps through the arguments of an attribute. -/
def Attr.visits (start : Nat) : Attr → List Visit
  | .mk inner path args =>
    Turn.arrange (Node.visitsEach (start + 2 + (if inner then 1 else 0) + path.size) args)

/-- The steps through the outer or inner attributes among `attrs`. -/
def Attr.visitsAll (inner : Bool) (start : Nat) : List Attr → List Visit
  | [] => []
  | a :: as =>
    if a.inner == inner then a.visits start ++ Attr.visitsAll inner (start + a.size) as
    else Attr.visitsAll inner start as

/-- The steps through an item. An inline module is entered before its attributes. -/
def Item.visits (start : Nat) : Item → List Visit
  | .mk attrs vis decl =>
    let bodyStart := start + Attr.sizeAll false attrs + vis.size
    let innerStart := bodyStart + decl.headSize
    let inside := Attr.visitsAll false start attrs ++ Attr.visitsAll true innerStart attrs ++
      decl.visits bodyStart (innerStart + Attr.sizeAll true attrs)
    .meet start (.mk attrs vis decl) ::
      match decl with
      | .module _ name (some items) => .enter attrs name items :: (inside ++ [.leave])
      | _ => inside

/-- The steps through items in a row. -/
def Item.visitsAll (start : Nat) : List Item → List Visit
  | [] => []
  | i :: is => i.visits start ++ Item.visitsAll (start + i.size) is

/-- The steps through a declaration that starts after `start` lexemes; what is between its braces starts after
`inside` lexemes. -/
def Decl.visits (start inside : Nat) : Decl → List Visit
  | .useDecl _ _ => []
  | .externCrate _ _ => []
  | .module _ _ none => []
  | .module _ _ (some items) => Item.visitsAll inside items
  | .data _ _ generics body =>
    Turn.arrange <|
      (Turn.parameters, generics.visits (start + 2)) :: Node.visitsEach (start + 2 + generics.size) body
  | .trait qualifiers _ generics supertraits whereClause members =>
    let afterName := start + Node.sizeAll qualifiers + 2
    let afterSupers := afterName + generics.size + supertraits.size
    generics.visits afterName ++ whereClause.visits afterSupers ++ supertraits.visits (afterName + generics.size) ++
      Turn.arrange (Node.visitsEach inside members)
  | .impl header selfType whereClause members =>
    let afterHeader := start + Node.sizeAll header
    let steps := Node.visitsEach start header ++
      [(Turn.others, selfType.visits afterHeader),
        (Turn.conditions, whereClause.visits (afterHeader + selfType.size))]
    Turn.arrange (steps ++ Node.visitsEach inside members)
  | .plain _ _ parts => Turn.arrange (Node.visitsEach start parts)
  | .verbatim _ => []

end

/-- The steps of a walk through a unit. -/
def SourceUnit.visits (u : SourceUnit) : List Visit :=
  Attr.visitsAll true 0 u.parsed.file.attrs ++
    Item.visitsAll (Attr.sizeAll true u.parsed.file.attrs) u.parsed.file.items

/-- What a walk has collected, and the scopes that it is in, the innermost one first. -/
structure Collector where
  scopes : List Scope
  nodes : List NodeView
  symbols : List Symbol

namespace Collector

/-- Takes down what is met. -/
def record (m : Model) (u : SourceUnit) (c : Collector) (x : Sighting) : Collector :=
  let node := NodeIndex.nodeOf m u (c.nodes.length % UInt32.size) x
  { c with
    nodes := c.nodes ++ [node]
    symbols := c.symbols ++ (NodeIndex.symbolOf node).toList }

/-- A step of a walk. One that looks at a scope fails if there is none. -/
def step (m : Model) (u : SourceUnit) (c : Collector) : Visit → Option Collector
  | .meet start item => c.scopes.head?.map fun s => c.record m u ⟨s, start, item⟩
  | .enter attrs name items =>
    c.scopes.head?.map fun s => { c with scopes := s.nested attrs name items :: c.scopes }
  | .leave => some { c with scopes := c.scopes.tail }

/-- Steps of a walk in a row. -/
def run (m : Model) (u : SourceUnit) (c : Collector) (visits : List Visit) : Option Collector :=
  visits.foldlM (step m u) c

/-- The walk through a unit; it starts in the scope of the unit and knows no other. -/
def unit (m : Model) (c : Collector) (u : SourceUnit) : Option Collector :=
  run m u { c with scopes := [Scope.ofUnit u] } u.visits

/-- The index that walks through all units collect. -/
def index? (m : Model) : Option NodeIndex :=
  (m.program.units.foldlM (unit m) ⟨[], [], []⟩).map fun c => ⟨c.nodes, ⟨m.program.crateName, c.symbols⟩⟩

end Collector

end SourceGen
