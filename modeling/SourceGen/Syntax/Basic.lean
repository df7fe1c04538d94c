import SourceGen.Token.Basic

/-!
# Syntax trees

Parsed source text. A tree keeps every token in source order, so the lexemes below a tree are exactly the
lexemes it was read from and a place in the text is found by counting. Items and attributes, which the
rest of the library looks into, are typed; types, patterns, expressions and statements are forms with
parts.

An optional part that is missing is `Node.absent`. Two forms break the rule that the lexemes of a tree
are the printed ones: `silent` parts were read but are not printed, `phantom` parts are printed but were
never read. A `kept` form has one part that is printed and silent ones around it: kept tokens lose their
attributes, a macro call as a type its binder, and a bound the second of two pairs of brackets.
-/

namespace SourceGen

/-- A token of a syntax tree. An operator is one leaf, however many punctuation characters it has. -/
inductive Leaf
  | word (text : String)
  | lifetime (text : String)
  | literal (text : String)
  | op (text : String)
deriving DecidableEq, Repr

/-- The kinds of syntax below items. -/
inductive Form
  | absent | silent | phantom | kept | attrs
  -- paths
  | path | qualifiedPath | asTrait | segment | angled | parenArgs
  | assocType | assocConst | constraint
  -- types
  | arrayType | sliceType | fnType | bareArg | pointer | refType | never | implTrait | traitObject
  | infer | returns | bounds | traitBound | parenBound | preciseCapture | abi
  -- generics
  | generics | forLifetimes | lifetimeParam | typeParam | constParam | bounded | initial
  | whereClause | wherePredicate
  -- patterns
  | identPattern | atPattern | orPattern | refPattern | restPattern | slicePattern | structPattern
  | fieldPattern | tupleStructPattern | typedPattern
  -- expressions
  | attributed | array | assign | asyncBlock | awaitExpr | binary | blockExpr | breakExpr | call | cast
  | closure | closureParams | constBlock | continueExpr | field | forLoop | ifExpr | elseBranch | index
  | letExpr | loopExpr | macroCall | matchExpr | arm | guard | methodCall | paren | range | rawAddr
  | reference | repeatExpr | returnExpr | structExpr | fieldValue | base | tryExpr | tryBlock | tuple
  | unary | unsafeBlock | whileLoop | yieldExpr | label
  -- statements
  | letStmt | exprStmt | macroStmt
  -- parts of items
  | visibility | namedField | unnamedField | variant | parameter | receiver | variadic | nameColon
  | constMember | typeMember | macroMember | foreignFn | foreignStatic | foreignType
deriving DecidableEq, Repr

/-- A path of plain names, as in attributes and visibilities. -/
structure NamePath where
  /-- Whether the path starts with `::`. -/
  rooted : Bool
  names : List String
deriving DecidableEq, Repr

/-- Who can name a declaration. -/
inductive Visibility
  | inherited
  | pub
  | /-- `pub(crate)`, or `pub(in a::b)` when `within`. -/
    restricted (within : Bool) (path : NamePath)
deriving DecidableEq, Repr

/-- What a `use` declaration imports. -/
inductive UseTree
  | /-- `name::rest` -/
    step (name : String) (rest : UseTree)
  | /-- `name` -/
    leaf (name : String)
  | /-- `name as other` -/
    rename (name other : String)
  | /-- `*` -/
    glob
  | /-- `{a, b}`; `trailing` tells whether a comma follows the last tree. -/
    group (trees : List UseTree) (trailing : Bool)

/-- The three kinds of data types. -/
inductive DataKind
  | struct
  | enum
  | union
deriving DecidableEq, Repr

/-- The kinds of items whose inner structure the library does not look into. -/
inductive PlainKind
  | fn
  | method
  | const
  | static
  | typeAlias
  | macroItem
  | traitAlias
  | foreignBlock
deriving DecidableEq, Repr

mutual

/-- A piece of syntax. -/
inductive Node
  | leaf (leaf : Leaf)
  | /-- Tokens that are kept as written. -/
    raw (tokens : List TokenTree)
  | /-- Parts between brackets. -/
    group (delimiter : Delimiter) (parts : List Node)
  | form (form : Form) (parts : List Node)
  | attr (attr : Attr)
  | item (item : Item)

/-- An attribute: its path, and its arguments: nothing, one bracketed token sequence, or `=` and an
expression. -/
inductive Attr
  | mk (inner : Bool) (path : NamePath) (args : List Node)

/-- An item, or a method of a trait or of an implementation. Inner attributes that belong to a module or a
trait stand among `attrs`; they are written at the start of the body. -/
inductive Item
  | mk (attrs : List Attr) (vis : Visibility) (decl : Decl)

/-- What an item declares. -/
inductive Decl
  | useDecl (rooted : Bool) (tree : UseTree)
  | externCrate (name : String) (rename : Option String)
  | /-- `mod name;` or `mod name { items }` -/
    module (isUnsafe : Bool) (name : String) (items : Option (List Item))
  | /-- A data type: after its generics come where clause, fields and semicolon in source order. -/
    data (kind : DataKind) (name : String) (generics : Node) (body : List Node)
  | trait (qualifiers : List Node) (name : String) (generics supertraits whereClause : Node)
      (members : List Node)
  | /-- An implementation: `header` is everything before the type. -/
    impl (header : List Node) (selfType whereClause : Node) (members : List Node)
  | /-- Any other item, with its tokens after the visibility. -/
    plain (kind : PlainKind) (name : Option String) (parts : List Node)
  | /-- An item kept as tokens, attributes and visibility included. -/
    verbatim (tokens : List TokenTree)

end

namespace Node

/-- A missing optional part. -/
def absent : Node := .form .absent []

/-- A word. -/
def word (s : String) : Node := .leaf (.word s)

/-- An operator. -/
def op (s : String) : Node := .leaf (.op s)

/-- An expression in round brackets. -/
def inParens (e : Node) : Node := .form .paren [.group .paren [e]]

/-- Whether the part is missing. -/
def isAbsent : Node → Bool
  | .form .absent _ => true
  | _ => false

/-- Whether the node is the given operator. -/
def isOp (s : String) : Node → Bool
  | .leaf (.op t) => s == t
  | _ => false

end Node

namespace Attr

/-- Whether the attribute applies to what encloses it. -/
def inner : Attr → Bool
  | .mk inner _ _ => inner

/-- The path that names the attribute. -/
def path : Attr → NamePath
  | .mk _ path _ => path

/-- The arguments of the attribute. -/
def args : Attr → List Node
  | .mk _ _ args => args

/-- Whether the path of the attribute is the single given name. -/
def isNamed (a : Attr) (name : String) : Bool :=
  a.path == ⟨false, [name]⟩

end Attr

namespace Item

/-- The attributes, outer ones first. -/
def attrs : Item → List Attr
  | .mk attrs _ _ => attrs

/-- The visibility. -/
def vis : Item → Visibility
  | .mk _ vis _ => vis

/-- What the item declares. -/
def decl : Item → Decl
  | .mk _ _ decl => decl

/-- The same item with other attributes. -/
def withAttrs : Item → List Attr → Item
  | .mk _ vis decl, attrs => .mk attrs vis decl

end Item

/-- A parsed file. -/
structure SourceFile where
  attrs : List Attr
  items : List Item

end SourceGen
