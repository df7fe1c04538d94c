import SourceGen.Syntax.Grouping
import SourceGen.Token.Text

/-!
# Token text of syntax

The canonical text of parsed syntax: its tokens, one blank apart. It differs from the tokens that were
read in a few places. A parameter list or a `where` clause without content is left out, and so is a colon
without bounds; lifetimes stand before other parameters and arguments.
-/

namespace SourceGen

/-- The printed form of a leaf; a sign stands apart from its number. -/
def Leaf.pieces : Leaf → List Piece
  | .word s => [.alone s]
  | .lifetime s => [.alone s]
  | .literal s =>
    match s.toList with
    | '-' :: digits => [.alone "-", .alone (String.ofList digits)]
    | _ => [.alone s]
  | .op s => [.alone s]

/-- Whether a part is a lifetime, as an argument or as a parameter. -/
def Node.isLifetime : Node → Bool
  | .leaf (.lifetime _) => true
  | .form .lifetimeParam _ => true
  | _ => false

/-- Whether a part is a comma. -/
def Node.isComma (n : Node) : Bool := n.isOp ","

namespace Form

/-- Comma-separated parts with their printed forms, grouped into elements; each has its own comma, if one
follows. -/
def elements : List (Node × List Piece) → List (Node × List Piece)
  | [] => []
  | [e] => [e]
  | e :: c :: rest =>
    if c.1.isComma then (e.1, e.2 ++ c.2) :: elements rest else e :: elements (c :: rest)

/-- Whether printed parts end with a comma or are empty. -/
def isClosed (ps : List Piece) : Bool :=
  match ps.getLast? with
  | some p => p.text == ","
  | none => true

/-- Comma-separated parts with lifetimes first. -/
def lifetimesFirst (parts : List (Node × List Piece)) : List Piece :=
  let all := elements parts
  let lifetimes := (all.filter (·.1.isLifetime)).flatMap (·.2)
  let others := (all.filter (!·.1.isLifetime)).flatMap (·.2)
  if isClosed lifetimes || others.isEmpty then lifetimes ++ others
  else lifetimes ++ .alone "," :: others

/-- Splits printed parts into those up to the opening angle bracket, the content, and the closing one. -/
def betweenAngles (parts : List (Node × List Piece)) :
    List Piece × List (Node × List Piece) × List Piece :=
  let opening := parts.takeWhile (!·.1.isOp "<")
  let rest := parts.dropWhile (!·.1.isOp "<")
  ((opening ++ rest.take 1).flatMap (·.2), rest.tail.dropLast,
    (rest.tail.drop (rest.length - 2)).flatMap (·.2))

/-- The printed form of a form, from its parts and their printed forms. -/
def arrange (f : Form) (parts : List (Node × List Piece)) : List Piece :=
  let plain := parts.flatMap (·.2)
  match f with
  | .silent => []
  | .generics =>
    let (opening, content, closing) := betweenAngles parts
    if content.isEmpty then [] else opening ++ lifetimesFirst content ++ closing
  | .angled =>
    let (opening, content, closing) := betweenAngles parts
    opening ++ lifetimesFirst content ++ closing
  | .whereClause => if parts.length ≤ 1 then [] else plain
  | .bounded => if parts.length ≤ 1 then [] else plain
  | _ => plain

end Form

namespace NamePath

/-- The printed names with `::` between them. -/
def namePieces : List String → List Piece
  | [] => []
  | [n] => [.alone n]
  | n :: ns => .alone n :: .alone "::" :: namePieces ns

/-- The printed form of a path. -/
def pieces (p : NamePath) : List Piece :=
  (if p.rooted then [.alone "::"] else []) ++ namePieces p.names

end NamePath

namespace Visibility

/-- The printed form of a visibility. -/
def pieces : Visibility → List Piece
  | .inherited => []
  | .pub => [.alone "pub"]
  | .restricted within path =>
    [.alone "pub",
      Delimiter.paren.enclose ((if within then [.alone "in"] else []) ++ path.pieces)]

end Visibility

namespace UseTree

mutual

/-- The printed form of a use tree. -/
def pieces : UseTree → List Piece
  | .step name rest => .alone name :: .alone "::" :: rest.pieces
  | .leaf name => [.alone name]
  | .rename name other => [.alone name, .alone "as", .alone other]
  | .glob => [.alone "*"]
  | .group trees trailing => [Delimiter.brace.enclose (piecesAll trailing trees)]

/-- The printed form of use trees between braces. -/
def piecesAll (trailing : Bool) : List UseTree → List Piece
  | [] => []
  | [t] => t.pieces ++ (if trailing then [.alone ","] else [])
  | t :: ts => t.pieces ++ .alone "," :: piecesAll trailing ts

end

end UseTree

namespace DataKind

/-- The keyword of a data type. -/
def keyword : DataKind → String
  | .struct => "struct"
  | .enum => "enum"
  | .union => "union"

end DataKind

mutual

/-- The printed form of a piece of syntax. -/
def Node.pieces : Node → List Piece
  | .leaf l => l.pieces
  | .raw ts => TokenTree.pieces ts
  | .group d parts => [d.enclose ((Node.piecesEach parts).flatMap (·.2))]
  | .form f parts => f.arrange (Node.piecesEach parts)
  | .attr a => a.pieces
  | .item i => i.pieces

/-- Parts with their printed forms. -/
def Node.piecesEach : List Node → List (Node × List Piece)
  | [] => []
  | n :: ns => (n, n.pieces) :: Node.piecesEach ns

/-- The printed form of an attribute. -/
def Attr.pieces : Attr → List Piece
  | .mk inner path args =>
    .alone "#" :: (if inner then [.alone "!"] else []) ++
      [Delimiter.bracket.enclose (path.pieces ++ (Node.piecesEach args).flatMap (·.2))]

/-- The printed form of the inner or of the outer attributes among `attrs`. -/
def Attr.piecesAll (inner : Bool) : List Attr → List Piece
  | [] => []
  | a :: as => (if a.inner == inner then a.pieces else []) ++ Attr.piecesAll inner as

/-- The printed form of an item. -/
def Item.pieces : Item → List Piece
  | .mk attrs vis decl =>
    Attr.piecesAll false attrs ++ vis.pieces ++ decl.pieces (Attr.piecesAll true attrs)

/-- The printed form of items in a row. -/
def Item.piecesAll : List Item → List Piece
  | [] => []
  | i :: is => i.pieces ++ Item.piecesAll is

/-- The printed form of a declaration; `inner` holds the printed inner attributes. -/
def Decl.pieces (inner : List Piece) : Decl → List Piece
  | .useDecl rooted tree =>
    .alone "use" :: (if rooted then [.alone "::"] else []) ++ tree.pieces ++ [.alone ";"]
  | .externCrate name rename =>
    [.alone "extern", .alone "crate", .alone name] ++
      (match rename with
        | some other => [.alone "as", .alone other]
        | none => []) ++ [.alone ";"]
  | .module isUnsafe name items =>
    (if isUnsafe then [.alone "unsafe"] else []) ++ [.alone "mod", .alone name] ++
      (match items with
        | some is => [Delimiter.brace.enclose (inner ++ Item.piecesAll is)]
        | none => [.alone ";"])
  | .data kind name generics body =>
    .alone kind.keyword :: .alone name :: generics.pieces ++ (Node.piecesEach body).flatMap (·.2)
  | .trait qualifiers name generics supertraits whereClause members =>
    (Node.piecesEach qualifiers).flatMap (·.2) ++ [.alone "trait", .alone name] ++ generics.pieces ++
      supertraits.pieces ++ whereClause.pieces ++
      [Delimiter.brace.enclose (inner ++ (Node.piecesEach members).flatMap (·.2))]
  | .impl header selfType whereClause members =>
    (Node.piecesEach header).flatMap (·.2) ++ selfType.pieces ++ whereClause.pieces ++
      [Delimiter.brace.enclose ((Node.piecesEach members).flatMap (·.2))]
  | .plain _ _ parts => (Node.piecesEach parts).flatMap (·.2)
  | .verbatim tokens => TokenTree.pieces tokens

end

/-- The canonical text of a piece of syntax. -/
def Node.text (n : Node) : String := Piece.join (n.grouped false).pieces

/-- The canonical text of an attribute. -/
def Attr.text (a : Attr) : String := Piece.join (a.grouped false).pieces

/-- The canonical text of an item. -/
def Item.text (i : Item) : String := Piece.join (i.grouped false).pieces

/-- The canonical text of a file. -/
def SourceFile.text (f : SourceFile) : String :=
  let f := f.grouped false
  Piece.join (Attr.piecesAll true f.attrs ++ Item.piecesAll f.items)

end SourceGen
