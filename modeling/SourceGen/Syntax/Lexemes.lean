import SourceGen.Syntax.Text

/-!
# The lexemes below a tree

What a tree was read from, lexeme by lexeme, in the order of the text. A silent part was read and a phantom
was not, whatever is printed of them. The lexemes say where in a text a part of a tree stands: after as many
lexemes as there are before it.

Some trees come from no text, such as a `use` declaration with an attribute of what it encloses. What has no
place in them stands `nowhere`; no text has such a lexeme.
-/

namespace SourceGen

/-- What a lexeme is, apart from layout. -/
inductive LexemeKind
  | word (text : String)
  | lifetime (text : String)
  | /-- A number without sign; its spelling is left open, since `0x1` is printed as `1`. -/
    number
  | /-- Any other literal. -/
    text (spelling : String)
  | mark (char : Char)
  | opening (delimiter : Delimiter)
  | closing (delimiter : Delimiter)
  | /-- A lexeme that no text has. -/
    nowhere
deriving DecidableEq, Repr

namespace LexemeKind

/-- A punctuation character. The range mark `...` is printed as `..=`, so the two last ones are one kind. Round
brackets that are not printed stand as operators. -/
def ofChar : Char → LexemeKind
  | '=' => .mark '.'
  | '(' => .opening .paren
  | ')' => .closing .paren
  | c => .mark c

/-- The lexemes of an operator. -/
def ofOp (s : String) : List LexemeKind := s.toList.map ofChar

/-- Whether a literal is a number without the sign of an exponent. -/
def isNumber (s : String) : Bool := s.toList.all fun c => c.isAlphanum || c = '_' || c = '.'

/-- The lexeme of an unsigned literal. -/
def ofLiteral (s : String) : LexemeKind := if isNumber s then number else text s

/-- Whether a lexeme may be printed without having been read, as a part of a phantom. -/
def isFiller : LexemeKind → Bool
  | number => true
  | word s => s = "_"
  | mark c => c = ':' || c = '.'
  | _ => false

/-- Lexemes that have no place. -/
def astray (ks : List LexemeKind) : List LexemeKind := ks.map fun _ => nowhere

/-- A row of lexemes that is not empty. -/
def present (ks : List LexemeKind) : List LexemeKind := if ks.isEmpty then [nowhere] else ks

end LexemeKind

open LexemeKind

/-- The lexemes of a leaf; a literal with a sign was read from two. -/
def Leaf.lexemes : Leaf → List LexemeKind
  | .word s => [.word s]
  | .lifetime s => [.lifetime s]
  | .literal s =>
    if s = "true" ∨ s = "false" then [.word s]
    else match s.toList with
      | '-' :: digits => [ofChar '-', ofLiteral (String.ofList digits)]
      | _ => [ofLiteral s]
  | .op s => ofOp s

namespace TokenTree

mutual

/-- The lexemes of a token tree; a token that is a literal is not empty and has no sign. -/
def lexemes : TokenTree → List LexemeKind
  | .word s => [.word s]
  | .lifetime s => [.lifetime s]
  | .literal s => if s = "" ∨ s.startsWith "-" then [.nowhere] else (Leaf.literal s).lexemes
  | .punct c _ => [.ofChar c]
  | .group d inner => .opening d :: lexemesAll inner ++ [.closing d]

/-- The lexemes of token trees in a row. -/
def lexemesAll : List TokenTree → List LexemeKind
  | [] => []
  | t :: ts => t.lexemes ++ lexemesAll ts

end

end TokenTree

namespace NamePath

/-- The lexemes of names with `::` between them. -/
def nameLexemes : List String → List LexemeKind
  | [] => []
  | [n] => [.word n]
  | n :: ns => .word n :: ofOp "::" ++ nameLexemes ns

/-- The lexemes of a path. -/
def lexemes (p : NamePath) : List LexemeKind :=
  (if p.rooted then ofOp "::" else []) ++ nameLexemes p.names

end NamePath

namespace Visibility

/-- The lexemes of a visibility. -/
def lexemes : Visibility → List LexemeKind
  | .inherited => []
  | .pub => [.word "pub"]
  | .restricted within path =>
    [.word "pub", .opening .paren] ++ (if within then [.word "in"] else []) ++ path.lexemes ++
      [.closing .paren]

end Visibility

namespace UseTree

mutual

/-- The lexemes of a use tree. -/
def lexemes : UseTree → List LexemeKind
  | .step name rest => .word name :: ofOp "::" ++ rest.lexemes
  | .leaf name => [.word name]
  | .rename name other => [.word name, .word "as", .word other]
  | .glob => ofOp "*"
  | .group trees trailing => .opening .brace :: lexemesAll trailing trees ++ [.closing .brace]

/-- The lexemes of use trees and the commas between them. -/
def lexemesAll (trailing : Bool) : List UseTree → List LexemeKind
  | [] => []
  | [t] => t.lexemes ++ (if trailing then ofOp "," else [])
  | t :: ts => t.lexemes ++ ofOp "," ++ lexemesAll trailing ts

end

end UseTree

mutual

/-- The lexemes of a piece of syntax. -/
def Node.lexemes : Node → List LexemeKind
  | .leaf l => l.lexemes
  | .raw ts => TokenTree.lexemesAll ts
  | .group d parts => .opening d :: Node.lexemesAll parts ++ [.closing d]
  | .form .phantom parts => if (Node.lexemesAll parts).all isFiller then [] else [.nowhere]
  | .form _ parts => Node.lexemesAll parts
  | .attr a => a.lexemes
  | .item i => i.lexemes

/-- The lexemes of parts in a row. -/
def Node.lexemesAll : List Node → List LexemeKind
  | [] => []
  | n :: ns => n.lexemes ++ Node.lexemesAll ns

/-- The lexemes of an attribute. -/
def Attr.lexemes : Attr → List LexemeKind
  | .mk inner path args =>
    ofOp "#" ++ (if inner then ofOp "!" else []) ++ [.opening .bracket] ++ path.lexemes ++
      Node.lexemesAll args ++ [.closing .bracket]

/-- The lexemes of the inner or of the outer attributes among `attrs`. -/
def Attr.lexemesAll (inner : Bool) : List Attr → List LexemeKind
  | [] => []
  | a :: as => (if a.inner == inner then a.lexemes else []) ++ Attr.lexemesAll inner as

/-- The lexemes of an item. -/
def Item.lexemes : Item → List LexemeKind
  | .mk attrs vis decl =>
    present (Attr.lexemesAll false attrs ++ vis.lexemes ++ decl.lexemes (Attr.lexemesAll true attrs))

/-- The lexemes of items in a row. -/
def Item.lexemesAll : List Item → List LexemeKind
  | [] => []
  | i :: is => i.lexemes ++ Item.lexemesAll is

/-- The lexemes of a declaration; `inner` holds those of its inner attributes, which stand at the start of its
body. -/
def Decl.lexemes (inner : List LexemeKind) : Decl → List LexemeKind
  | .useDecl rooted tree =>
    [.word "use"] ++ (if rooted then ofOp "::" else []) ++ tree.lexemes ++ ofOp ";" ++ astray inner
  | .externCrate name rename =>
    [.word "extern", .word "crate", .word name] ++
      (match rename with
        | some other => [.word "as", .word other]
        | none => []) ++ ofOp ";" ++ astray inner
  | .module isUnsafe name items =>
    (if isUnsafe then [.word "unsafe"] else []) ++ [.word "mod", .word name] ++
      (match items with
        | some is => [.opening .brace] ++ inner ++ Item.lexemesAll is ++ [.closing .brace]
        | none => ofOp ";" ++ astray inner)
  | .data kind name generics body =>
    [.word kind.keyword, .word name] ++ generics.lexemes ++ Node.lexemesAll body ++ astray inner
  | .trait qualifiers name generics supertraits whereClause members =>
    Node.lexemesAll qualifiers ++ [.word "trait", .word name] ++ generics.lexemes ++ supertraits.lexemes ++
      whereClause.lexemes ++ [.opening .brace] ++ inner ++ Node.lexemesAll members ++ [.closing .brace]
  | .impl header selfType whereClause members =>
    Node.lexemesAll header ++ selfType.lexemes ++ whereClause.lexemes ++ [.opening .brace] ++ inner ++
      Node.lexemesAll members ++ [.closing .brace]
  | .plain _ _ parts => Node.lexemesAll parts ++ astray inner
  | .verbatim tokens => TokenTree.lexemesAll tokens ++ astray inner

end

/-- The lexemes of a file. -/
def SourceFile.lexemes (f : SourceFile) : List LexemeKind :=
  Attr.lexemesAll true f.attrs ++ Item.lexemesAll f.items

end SourceGen
