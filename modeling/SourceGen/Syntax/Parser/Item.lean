import SourceGen.Syntax.Parser.Member

/-!
# Items

Declarations: imports, modules, data types, traits, implementations and the rest. A declaration that the
grammar reads but does not model, such as a function without a body, is kept as tokens and has no
attributes.
-/

namespace SourceGen.Parser

/-- A trailing comma and the trees of a braced import list. -/
def useGroup (trees : List (UseTree × Bool)) : UseTree :=
  .group (trees.map (·.1)) (trees.getLast?.any (·.2))

/-- The trees of a braced import list, each with whether a comma follows; `fuel` bounds their number. -/
def useTreesFor (tree : Parser (Option UseTree)) : Nat → Parser (List (Option UseTree × Bool))
  | 0 => return []
  | fuel + 1 => do
    if ← atEnd then return []
    let t ← tree
    if ← atEnd then return [(t, false)]
    let _ ← op ","
    return (t, true) :: (← useTreesFor tree fuel)

/-- The trees of a braced import list, each with whether a comma follows. -/
def useTrees (tree : Parser (Option UseTree)) : Parser (List (Option UseTree × Bool)) := fun s =>
  useTreesFor tree (s.rest.length + 1) s

/-- The import list of given trees, or nothing if one of them is not modelled. -/
def useGroup? (trees : List (Option UseTree × Bool)) : Option UseTree :=
  (trees.mapM fun t : Option UseTree × Bool => t.1.map (·, t.2)).map useGroup

/-- A use tree, as deep as `fuel` admits. The flag admits `::` before the trees of a list; a tree that has
such a mark inside is read but not modelled, and the answer is nothing. -/
def useTreeFor (admitsRoot : Bool) : Nat → Parser (Option UseTree)
  | 0 => fail
  | fuel + 1 => do
    if ← sees fun ts => Look.ident ts || Look.words ["self", "super", "crate", "try"] ts then
      let name ← anyWord
      if ← sees (Look.op "::") then
        let _ ← op "::"
        return (← useTreeFor false fuel).map (.step name)
      else if ← sees (Look.word "as") then
        let _ ← word "as"
        if ← sees fun ts => Look.ident ts || Look.word "_" ts then
          return some (.rename name (← anyWord))
        else fail
      else return some (.leaf name)
    else if ← sees (Look.op "*") then
      let _ ← op "*"
      return some .glob
    else if ← sees Look.braces then
      let tree : Parser (Option UseTree) := do
        let rooted ← if admitsRoot then op? "::" else pure .absent
        let tree ← useTreeFor (admitsRoot && rooted.isAbsent) fuel
        return if rooted.isAbsent then tree else none
      return useGroup? (← inside .brace (useTrees tree))
    else fail

/-- A use tree. -/
def useTree (admitsRoot : Bool) : Parser (Option UseTree) := fun s =>
  useTreeFor admitsRoot (TokenTree.sizeAll s.rest + 1) s

/-- An import after its visibility, or nothing if it is not modelled. -/
def useDecl (admitsRoot : Bool) : Parser (Option Decl) := do
  let _ ← word "use"
  let rooted ← op? "::"
  let tree ← useTree (admitsRoot && rooted.isAbsent)
  let _ ← op ";"
  return tree.map (.useDecl (!rooted.isAbsent))

/-- The declaration of another crate, after its visibility. -/
def externCrate : Parser Decl := do
  let _ ← word "extern"
  let _ ← word "crate"
  let name ← if ← sees (Look.word "self") then anyWord else ident
  let rename ← if ← sees (Look.word "as") then do
      let _ ← word "as"
      if ← sees (Look.word "_") then pure (some (← anyWord)) else pure (some (← ident))
    else pure none
  let _ ← op ";"
  return .externCrate name rename

/-- A foreign block after its attributes. -/
def foreignBlock (g : Grammar) : Parser Decl := do
  let qualifier ← word? "unsafe"
  let convention ← if ← sees (Look.word "extern") then abi else fail
  let members ← group .brace do
    let attrs ← innerAttrs g
    return attrs.map .attr ++ (← manyToEnd (foreignMember g))
  return .plain .foreignBlock none [qualifier, convention, members]

/-- A module after its visibility, with its inner attributes. -/
def moduleDecl (g : Grammar) : Parser (Decl × List Attr) := do
  let qualifier ← word? "unsafe"
  let _ ← word "mod"
  let name ← if ← sees (Look.word "try") then anyWord else ident
  if ← sees (Look.op ";") then
    let _ ← op ";"
    return (.module (!qualifier.isAbsent) name none, [])
  else if ← sees Look.braces then
    inside .brace do
      let attrs ← innerAttrs g
      let items ← manyToEnd g.item
      return (.module (!qualifier.isAbsent) name (some items), attrs)
  else fail

/-- A field with a name; `fields` reads the fields of a data type without name, which is kept as tokens. -/
def namedField (g : Grammar) (fields : Parser Node) : Parser Node := do
  let attrs ← outerAttrs g
  let vis ← visibilityPart
  let wild ← sees (Look.word "_")
  let name ← if wild then anyWord else ident
  let colon ← op ":"
  let start ← get
  let anonymous ← sees fun ts =>
    Look.word "struct" ts || (Look.word "union" ts && Look.second Look.braces ts)
  if wild && anonymous then
    skip 1
    let _ ← fields
    return .form .namedField [attrs, vis, .word name, colon, .raw (← since start)]
  else return .form .namedField [attrs, vis, .word name, colon, ← g.type true]

/-- The fields of a data type between braces; `fuel` bounds the nesting of data types without name. -/
def namedFieldsFor (g : Grammar) : Nat → Parser Node
  | 0 => fail
  | fuel + 1 => group .brace (commaList (namedField g fun s => namedFieldsFor g fuel s))

/-- The fields of a data type between braces. -/
def namedFields (g : Grammar) : Parser Node := fun s =>
  namedFieldsFor g (TokenTree.sizeAll s.rest + 1) s

/-- The fields of a data type between round brackets. -/
def unnamedFields (g : Grammar) : Parser Node :=
  group .paren <| commaList do
    let attrs ← outerAttrs g
    let vis ← visibilityPart
    return .form .unnamedField [attrs, vis, ← g.type true]

/-- A `struct` after its visibility. -/
def structDecl (g : Grammar) : Parser Decl := do
  let _ ← word "struct"
  let name ← ident
  let params ← generics g
  let preds ← whereClause g
  if preds.isAbsent && (← sees Look.parens) then
    let fields ← unnamedFields g
    let preds ← whereClause g
    let semi ← op ";"
    return .data .struct name params [.absent, fields, preds, semi]
  else if ← sees Look.braces then
    return .data .struct name params [preds, ← namedFields g, .absent, .absent]
  else
    let semi ← op ";"
    return .data .struct name params [preds, .absent, .absent, semi]

/-- A variant of an `enum`. -/
def variant (g : Grammar) : Parser Node := do
  let attrs ← outerAttrs g
  let vis ← visibilityPart
  let name ← ident
  let fields ← if ← sees Look.braces then namedFields g
    else if ← sees Look.parens then unnamedFields g
    else pure .absent
  return .form .variant [attrs, .form .silent [vis], .word name, fields, ← initialValue g]

/-- An `enum` after its visibility. -/
def enumDecl (g : Grammar) : Parser Decl := do
  let _ ← word "enum"
  let name ← ident
  let params ← generics g
  let preds ← whereClause g
  let variants ← group .brace (commaList (variant g))
  return .data .enum name params [preds, variants, .absent, .absent]

/-- A `union` after its visibility. -/
def unionDecl (g : Grammar) : Parser Decl := do
  let _ ← word "union"
  let name ← ident
  let params ← generics g
  let preds ← whereClause g
  return .data .union name params [preds, ← namedFields g, .absent, .absent]

/-- Where the supertraits of a trait end. -/
def endsSupertraits : Look := fun ts => Look.word "where" ts || Look.braces ts

/-- A trait after its visibility, with its inner attributes. -/
def traitDecl (g : Grammar) : Parser (Decl × List Attr) := do
  let qualifier ← word? "unsafe"
  let auto ← word? "auto"
  let _ ← word "trait"
  let name ← ident
  let params ← generics g
  let supers ← colonBounds g endsSupertraits
  let preds ← whereClause g
  let (attrs, members) ← inside .brace do
    let attrs ← innerAttrs g
    return (attrs, ← manyToEnd (traitMember g))
  return (.trait [qualifier, auto] name params supers preds members, attrs)

/-- A trait or a trait alias after its visibility. -/
def traitOrAlias (g : Grammar) : Parser (Decl × List Attr) := do
  let aliases ← succeeds do
    let _ ← word "trait"
    let _ ← ident
    let _ ← generics g
    op "="
  if aliases then
    let kw ← word "trait"
    let name ← ident
    let params ← generics g
    let eq ← op "="
    let stop : Look := fun ts => Look.word "where" ts || Look.op ";" ts
    let bs ← strictBoundsFor (objectBound g) stop ((← get).rest.length + 1)
    let preds ← whereClause g
    let semi ← op ";"
    return (.plain .traitAlias (some name)
      [kw, .word name, params, eq, .form .bounds bs, preds, semi], [])
  else traitDecl g

/-- Whether a type is a path without a qualified part. -/
def isPathType : Node → Bool
  | .form .path _ => true
  | _ => false

/-- Whether the trait of an implementation is marked as constant. -/
def constMark : Parser Bool := do
  let isConst ← sees fun ts =>
    Look.word "const" ts || (Look.op "?" ts && Look.second (Look.word "const") ts)
  if isConst then
    let _ ← op? "?"
    let _ ← word "const"
  return isConst

/-- What an implementation is for: the parts before its type, the type, and whether a trait that it implements is
modelled. -/
def implTarget (g : Grammar) : Parser (List Node × Node × Bool) := do
  let mark ← index
  let polarity ← whenSees (fun ts => Look.op "!" ts && !Look.second Look.braces ts) (op "!")
  let first ← g.type true
  if ← sees (Look.word "for") then
    let forKw ← word "for"
    return ([polarity, first, forKw], ← g.type true, isPathType first)
  else if !polarity.isAbsent then failAt mark
  else return ([polarity, .absent, .absent], first, true)

/-- An implementation, or nothing if it is not modelled. -/
def implDecl (g : Grammar) : Parser (Option (Visibility × Decl)) := do
  let vis ← visibility
  let defaultness ← word? "default"
  let qualifier ← word? "unsafe"
  let kw ← word "impl"
  let params ← whenSees startsGenerics (generics g)
  let isConst ← constMark
  let (target, selfType, isModelled) ← implTarget g
  let preds ← whereClause g
  let members ← inside .brace do
    let attrs ← innerAttrs g
    return attrs.map .attr ++ (← manyToEnd (implMember g))
  if vis != .inherited || isConst || !isModelled then return none
  else
    return some (.inherited, .impl ([defaultness, qualifier, kw, params] ++ target) selfType preds members)

/-- A macro call as an item. -/
def macroDecl : Parser Decl := do
  let p := namePathNode (← namePath)
  let bang ← op "!"
  let name ← if ← sees fun ts => Look.ident ts || Look.word "try" ts then pure (some (← anyWord))
    else pure none
  let args ← rawGroup
  let semi ← if args.rawDelimiter? == some .brace then pure .absent else op ";"
  let nameNode := match name with
    | some n => Node.word n
    | none => .absent
  return .plain .macroItem name [p, bang, nameNode, args, semi]

/-- A macro definition by keyword. -/
def macroDefinition : Parser Unit := do
  let _ ← word "macro"
  let _ ← ident
  if ← sees Look.parens then
    let _ ← rawGroup
  let _ ← rawBraces
  return ()

/-- The tokens from `start` on, kept as they are. -/
def keepFrom (start : Input) : Parser Item := do
  return .mk [] .inherited (.verbatim (← since start))

/-- Whether a visibility, if one is there, is followed by the given tokens. -/
def afterVisibility (l : Look) : Parser Bool := ahead do
  let _ ← visibility
  sees l

/-- A declaration with its visibility. -/
def plainItem (attrs : List Attr) (p : Parser Decl) : Parser Item := do
  let vis ← visibility
  return .mk attrs vis (← p)

/-- A declaration with its visibility and with inner attributes. -/
def innerItem (attrs : List Attr) (p : Parser (Decl × List Attr)) : Parser Item := do
  let vis ← visibility
  let (d, inner) ← p
  return .mk (attrs ++ inner) vis d

/-- A function; one without a body is kept. -/
def fnItem (g : Grammar) (start : Input) (attrs : List Attr) : Parser Item := do
  let vis ← visibility
  let (name, parts, _) ← signature g false
  if ← sees (Look.op ";") then
    let _ ← op ";"
    keepFrom start
  else
    let b ← body g
    return .mk attrs vis (.plain .fn (some name) (.absent :: parts ++ [b]))

/-- An item that begins with `extern`. -/
def externItem (g : Grammar) (attrs : List Attr) : Parser Item := do
  if ← afterVisibility (Look.second (Look.word "crate")) then plainItem attrs externCrate
  else if ← afterVisibility fun ts => Look.second Look.braces ts ||
      (Look.second Look.stringLiteral ts && Look.third Look.braces ts) then
    return .mk attrs .inherited (← foreignBlock g)
  else do
    let _ ← visibility
    skip 1
    if ← sees Look.stringLiteral then skip 1
    fail

/-- An import; one that is not modelled is kept. -/
def importItem (start : Input) (attrs : List Attr) : Parser Item := do
  let vis ← visibility
  match ← useDecl true with
  | some d => return .mk attrs vis d
  | none => keepFrom start

/-- A static variable; one without a type or a value is kept. -/
def staticItem (g : Grammar) (start : Input) (attrs : List Attr) : Parser Item := do
  let vis ← visibility
  let kw ← word "static"
  let mutability ← word? "mut"
  let name ← ident
  if ← sees (Look.op "=") then
    let _ ← initialValue g
    let _ ← op ";"
    keepFrom start
  else
    let colon ← op ":"
    let t ← g.type true
    if ← sees (Look.op ";") then
      let _ ← op ";"
      keepFrom start
    else
      let eq ← op "="
      let e ← g.expr true
      let semi ← op ";"
      return .mk attrs vis (.plain .static (some name)
        [kw, mutability, .word name, colon, t, .form .initial [eq, e], semi])

/-- A constant; one with generics or without a value is kept. -/
def constItem (g : Grammar) (start : Input) (attrs : List Attr) : Parser Item := do
  let vis ← visibility
  let name := match (← get).rest with
    | _ :: .word n :: _ => n
    | _ => ""
  let (parts, plain, hasValue) ← constRest g
  if plain && hasValue then return .mk attrs vis (.plain .const (some name) parts) else keepFrom start

/-- An implementation; one that is not modelled is kept. -/
def implItem (g : Grammar) (start : Input) (attrs : List Attr) : Parser Item := do
  match ← implDecl g with
  | some (vis, d) => return .mk attrs vis d
  | none => keepFrom start

/-- An item that begins with `unsafe`. -/
def unsafeItem (g : Grammar) (start : Input) (attrs : List Attr) : Parser Item := do
  if ← afterVisibility fun ts => Look.second (Look.word "trait") ts ||
      (Look.second (Look.word "auto") ts && Look.third (Look.word "trait") ts) then
    innerItem attrs (traitDecl g)
  else if ← afterVisibility (Look.second (Look.word "impl")) then implItem g start attrs
  else if ← afterVisibility (Look.second (Look.word "extern")) then
    return .mk attrs .inherited (← foreignBlock g)
  else if ← afterVisibility (Look.second (Look.word "mod")) then innerItem attrs (moduleDecl g)
  else do
    let _ ← visibility
    skip 1
    fail

/-- A type alias; one with bounds or without a definition is kept. -/
def typeItem (g : Grammar) (start : Input) (attrs : List Attr) : Parser Item := do
  let vis ← visibility
  let (name, parts) ← typeRest g true false
  if !typeHasBounds parts && typeHasDefinition parts then
    return .mk attrs vis (.plain .typeAlias (some name) parts)
  else keepFrom start

/-- The rest of an item whose attributes have been read; `start` is the state before them. -/
def itemAfter (g : Grammar) (start : Input) (attrs : List Attr) : Parser Item := do
  let hasVis ← ahead do return (← visibility) != .inherited
  if ← ahead do let _ ← visibility; startsSignature false then fnItem g start attrs
  else if ← afterVisibility (Look.word "extern") then externItem g attrs
  else if ← afterVisibility (Look.word "use") then importItem start attrs
  else if ← afterVisibility (Look.word "static") then staticItem g start attrs
  else if ← afterVisibility (Look.word "const") then constItem g start attrs
  else if ← afterVisibility (Look.word "unsafe") then unsafeItem g start attrs
  else if ← afterVisibility (Look.word "mod") then innerItem attrs (moduleDecl g)
  else if ← afterVisibility (Look.word "type") then typeItem g start attrs
  else if ← afterVisibility (Look.word "struct") then plainItem attrs (structDecl g)
  else if ← afterVisibility (Look.word "enum") then plainItem attrs (enumDecl g)
  else if ← afterVisibility fun ts => Look.word "union" ts && Look.second Look.ident ts then
    plainItem attrs (unionDecl g)
  else if ← afterVisibility (Look.word "trait") then innerItem attrs (traitOrAlias g)
  else if ← afterVisibility fun ts => Look.word "auto" ts && Look.second (Look.word "trait") ts then
    innerItem attrs (traitDecl g)
  else if ← afterVisibility fun ts => Look.word "impl" ts ||
      (Look.word "default" ts && !Look.second (Look.op "!") ts) then
    implItem g start attrs
  else if ← afterVisibility (Look.word "macro") then
    let _ ← visibility
    macroDefinition
    keepFrom start
  else if !hasVis && (← sees startsMacroPath) then
    return .mk attrs .inherited (← macroDecl)
  else do
    let _ ← visibility
    fail

/-- An item. -/
def item (g : Grammar) : Parser Item := do
  let start ← get
  let attrs ← outerAttrList g
  itemAfter g start attrs

end SourceGen.Parser
