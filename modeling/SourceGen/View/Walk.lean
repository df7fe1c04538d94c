import SourceGen.Resolution.Scope
import SourceGen.Syntax.Size

/-!
# Walking over items

Every item of a file, at any depth: in modules, in bodies of functions, in types and in patterns. An item
is met before what is inside it, and among the parts of one declaration attributes come first, then
generic parameters, then the `where` clause, then the rest in the order of the text. A walk also knows
where in the text an item starts, by counting lexemes, and the scope around it.
-/

namespace SourceGen

/-- An item met during a walk. -/
structure Sighting where
  scope : Scope
  /-- The number of lexemes before the item. -/
  start : Nat
  item : Item

/-- When a part of a declaration is walked over. -/
inductive Turn
  | attributes
  | parameters
  | conditions
  | others
deriving DecidableEq, Repr

namespace Turn

/-- The turns in order. -/
def all : List Turn := [attributes, parameters, conditions, others]

/-- The turn of a part. -/
def ofNode : Node → Turn
  | .attr _ => attributes
  | .form .attrs _ => attributes
  | .form .generics _ => parameters
  | .form .whereClause _ => conditions
  | _ => others

/-- What was met in the parts of a declaration, turn by turn. -/
def arrange {α : Type} (met : List (Turn × List α)) : List α :=
  all.flatMap fun t => (met.filter (·.1 = t)).flatMap (·.2)

end Turn

mutual

/-- The items in a piece of syntax that starts after `start` lexemes. -/
def Node.sightings (s : Scope) (start : Nat) : Node → List Sighting
  | .leaf _ => []
  | .raw _ => []
  | .group _ parts => Turn.arrange (Node.sightingsEach s (start + 1) parts)
  | .form .phantom _ => []
  | .form .silent _ => []
  | .form _ parts => Turn.arrange (Node.sightingsEach s start parts)
  | .attr a => a.sightings s start
  | .item i => i.sightings s start

/-- The items in parts in a row, with the turn of each part. The attributes at the start of a body belong
to what has the body. -/
def Node.sightingsEach (s : Scope) (start : Nat) : List Node → List (Turn × List Sighting)
  | [] => []
  | .group d parts :: ns =>
    let met := Node.sightingsEach s (start + 1) parts
    (Turn.attributes, Turn.arrange (met.filter (·.1 = Turn.attributes))) ::
      (Turn.others, Turn.arrange (met.filter (·.1 ≠ Turn.attributes))) ::
      Node.sightingsEach s (start + (Node.group d parts).size) ns
  | n :: ns => (Turn.ofNode n, n.sightings s start) :: Node.sightingsEach s (start + n.size) ns

/-- The items in the arguments of an attribute. -/
def Attr.sightings (s : Scope) (start : Nat) : Attr → List Sighting
  | .mk inner path args =>
    Turn.arrange (Node.sightingsEach s (start + 2 + (if inner then 1 else 0) + path.size) args)

/-- The items in the outer or inner attributes among `attrs`. -/
def Attr.sightingsAll (s : Scope) (inner : Bool) (start : Nat) : List Attr → List Sighting
  | [] => []
  | a :: as =>
    if a.inner == inner then a.sightings s start ++ Attr.sightingsAll s inner (start + a.size) as
    else Attr.sightingsAll s inner start as

/-- An item and the items inside it. -/
def Item.sightings (s : Scope) (start : Nat) : Item → List Sighting
  | .mk attrs vis decl =>
    let bodyStart := start + Attr.sizeAll false attrs + vis.size
    let innerStart := bodyStart + decl.headSize
    let inside := match decl with
      | .module _ name (some items) => s.nested attrs name items
      | _ => s
    ⟨s, start, .mk attrs vis decl⟩ ::
      Attr.sightingsAll inside false start attrs ++
      Attr.sightingsAll inside true innerStart attrs ++
      decl.sightings inside bodyStart (innerStart + Attr.sizeAll true attrs)

/-- The items in a row. -/
def Item.sightingsAll (s : Scope) (start : Nat) : List Item → List Sighting
  | [] => []
  | i :: is => i.sightings s start ++ Item.sightingsAll s (start + i.size) is

/-- The items inside a declaration that starts after `start` lexemes; what is between its braces starts
after `inside` lexemes. -/
def Decl.sightings (s : Scope) (start inside : Nat) : Decl → List Sighting
  | .useDecl _ _ => []
  | .externCrate _ _ => []
  | .module _ _ none => []
  | .module _ _ (some items) => Item.sightingsAll s inside items
  | .data _ _ generics body =>
    Turn.arrange <|
      (Turn.parameters, generics.sightings s (start + 2)) ::
        Node.sightingsEach s (start + 2 + generics.size) body
  | .trait qualifiers _ generics supertraits whereClause members =>
    let afterName := start + Node.sizeAll qualifiers + 2
    let afterSupers := afterName + generics.size + supertraits.size
    generics.sightings s afterName ++ whereClause.sightings s afterSupers ++
      supertraits.sightings s (afterName + generics.size) ++
      Turn.arrange (Node.sightingsEach s inside members)
  | .impl header selfType whereClause members =>
    let afterHeader := start + Node.sizeAll header
    let met := Node.sightingsEach s start header ++
      [(Turn.others, selfType.sightings s afterHeader),
        (Turn.conditions, whereClause.sightings s (afterHeader + selfType.size))]
    Turn.arrange (met ++ Node.sightingsEach s inside members)
  | .plain _ _ parts => Turn.arrange (Node.sightingsEach s start parts)
  | .verbatim _ => []

end

namespace SourceFile

/-- The items of a file, at any depth. -/
def sightings (s : Scope) (f : SourceFile) : List Sighting :=
  Attr.sightingsAll s true 0 f.attrs ++ Item.sightingsAll s (Attr.sizeAll true f.attrs) f.items

end SourceFile

namespace SourceUnit

/-- The items of a unit, at any depth. -/
def sightings (u : SourceUnit) : List Sighting :=
  u.parsed.file.sightings (Scope.ofUnit u)

end SourceUnit

end SourceGen
