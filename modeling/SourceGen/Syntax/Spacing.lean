import SourceGen.Syntax.Basic
import SourceGen.Token.Spacing

/-!
# Spacing in syntax

Syntax has no spacing but in the tokens that it keeps as written.
-/

namespace SourceGen

mutual

/-- A piece of syntax without the spacing of kept tokens. -/
def Node.unspaced : Node → Node
  | .leaf l => .leaf l
  | .raw ts => .raw (TokenTree.unspacedAll ts)
  | .group d parts => .group d (Node.unspacedAll parts)
  | .form f parts => .form f (Node.unspacedAll parts)
  | .attr a => .attr a.unspaced
  | .item i => .item i.unspaced

/-- Parts in a row without the spacing of kept tokens. -/
def Node.unspacedAll : List Node → List Node
  | [] => []
  | n :: ns => n.unspaced :: Node.unspacedAll ns

/-- An attribute without the spacing of kept tokens. -/
def Attr.unspaced : Attr → Attr
  | .mk inner path args => .mk inner path (Node.unspacedAll args)

/-- Attributes in a row without the spacing of kept tokens. -/
def Attr.unspacedAll : List Attr → List Attr
  | [] => []
  | a :: as => a.unspaced :: Attr.unspacedAll as

/-- An item without the spacing of kept tokens. -/
def Item.unspaced : Item → Item
  | .mk attrs vis decl => .mk (Attr.unspacedAll attrs) vis decl.unspaced

/-- Items in a row without the spacing of kept tokens. -/
def Item.unspacedAll : List Item → List Item
  | [] => []
  | i :: is => i.unspaced :: Item.unspacedAll is

/-- A declaration without the spacing of kept tokens. -/
def Decl.unspaced : Decl → Decl
  | .useDecl rooted tree => .useDecl rooted tree
  | .externCrate name rename => .externCrate name rename
  | .module isUnsafe name none => .module isUnsafe name none
  | .module isUnsafe name (some items) => .module isUnsafe name (some (Item.unspacedAll items))
  | .data kind name generics body => .data kind name generics.unspaced (Node.unspacedAll body)
  | .trait qualifiers name generics supertraits whereClause members =>
    .trait (Node.unspacedAll qualifiers) name generics.unspaced supertraits.unspaced whereClause.unspaced
      (Node.unspacedAll members)
  | .impl header selfType whereClause members =>
    .impl (Node.unspacedAll header) selfType.unspaced whereClause.unspaced (Node.unspacedAll members)
  | .plain kind name parts => .plain kind name (Node.unspacedAll parts)
  | .verbatim tokens => .verbatim (TokenTree.unspacedAll tokens)

end

/-- A file without the spacing of kept tokens. -/
def SourceFile.unspaced (f : SourceFile) : SourceFile :=
  ⟨Attr.unspacedAll f.attrs, Item.unspacedAll f.items⟩

/-! ### Kept tokens -/

mutual

/-- The tokens that a piece of syntax keeps as written, in order. -/
def Node.kept : Node → List TokenTree
  | .leaf _ => []
  | .raw ts => ts
  | .group _ parts => Node.keptAll parts
  | .form _ parts => Node.keptAll parts
  | .attr a => a.kept
  | .item i => i.kept

/-- The kept tokens of parts in a row. -/
def Node.keptAll : List Node → List TokenTree
  | [] => []
  | n :: ns => n.kept ++ Node.keptAll ns

/-- The kept tokens of an attribute. -/
def Attr.kept : Attr → List TokenTree
  | .mk _ _ args => Node.keptAll args

/-- The kept tokens of attributes in a row. -/
def Attr.keptAll : List Attr → List TokenTree
  | [] => []
  | a :: as => a.kept ++ Attr.keptAll as

/-- The kept tokens of an item. -/
def Item.kept : Item → List TokenTree
  | .mk attrs _ decl => Attr.keptAll attrs ++ decl.kept

/-- The kept tokens of items in a row. -/
def Item.keptAll : List Item → List TokenTree
  | [] => []
  | i :: is => i.kept ++ Item.keptAll is

/-- The kept tokens of a declaration. -/
def Decl.kept : Decl → List TokenTree
  | .useDecl _ _ => []
  | .externCrate _ _ => []
  | .module _ _ none => []
  | .module _ _ (some items) => Item.keptAll items
  | .data _ _ generics body => generics.kept ++ Node.keptAll body
  | .trait qualifiers _ generics supertraits whereClause members =>
    Node.keptAll qualifiers ++ (generics.kept ++ (supertraits.kept ++ (whereClause.kept ++ Node.keptAll members)))
  | .impl header selfType whereClause members =>
    Node.keptAll header ++ (selfType.kept ++ (whereClause.kept ++ Node.keptAll members))
  | .plain _ _ parts => Node.keptAll parts
  | .verbatim tokens => tokens

end

/-- The kept tokens of a file. -/
def SourceFile.kept (f : SourceFile) : List TokenTree := Attr.keptAll f.attrs ++ Item.keptAll f.items

end SourceGen
