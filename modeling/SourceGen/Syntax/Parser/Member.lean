import SourceGen.Syntax.Parser.Signature

/-!
# Members

What stands inside traits, implementations and foreign blocks. Declarations that the grammar reads but
does not model are kept as tokens, from their first attribute on.
-/

namespace SourceGen.Parser

/-- Whether a macro path starts here. -/
def startsMacroPath : Look := fun ts =>
  Look.ident ts || Look.words ["self", "super", "crate"] ts || Look.op "::" ts

/-- A macro call as a member. -/
def macroMember (attrs : Node) : Parser Node := do
  let p := namePathNode (← namePath)
  let bang ← op "!"
  let args ← rawGroup
  let semi ← if args.rawDelimiter? == some .brace then pure .absent else op ";"
  return .form .macroMember [attrs, .form .macroCall [p, bang, args], semi]

/-- The value of a constant, if one follows. -/
def initialValue (g : Grammar) : Parser Node := do
  whenSees (Look.op "=") do
    return .form .initial [← op "=", ← g.expr true]

/-- A name where `_` is admitted. -/
def nameOrWild : Parser String := do
  if ← sees fun ts => Look.ident ts || Look.word "_" ts then anyWord else fail

/-- A constant after its qualifiers: its parts, and whether it has no generics. -/
def constRest (g : Grammar) : Parser (List Node × Bool × Bool) := do
  let kw ← word "const"
  let name ← nameOrWild
  let params ← generics g
  let colon ← op ":"
  let t ← g.type true
  let value ← initialValue g
  let preds ← whereClause g
  let semi ← op ";"
  return ([kw, .word name, colon, t, value, semi], params.isAbsent && preds.isAbsent, !value.isAbsent)

/-- Where the bounds of an associated type end. -/
def endsTypeBounds : Look := fun ts =>
  Look.word "where" ts || Look.op "=" ts || Look.op ";" ts

/-- Bounds joined by `+` up to `stop`; a `+` is needed between them. -/
def strictBoundsFor (bound : Parser Node) (stop : Look) : Nat → Parser (List Node)
  | 0 => return []
  | fuel + 1 => do
    if ← sees stop then return []
    let b ← bound
    if ← sees stop then return [b]
    let plus ← op "+"
    return b :: plus :: (← strictBoundsFor bound stop fuel)

/-- A colon and bounds up to `stop`, if a colon follows. -/
def colonBounds (g : Grammar) (stop : Look) : Parser Node := do
  whenSees (Look.op ":") do
    let colon ← op ":"
    let bs ← strictBoundsFor g.bound stop ((← get).rest.length + 1)
    return .form .bounded (colon :: bs)

/-- The definition of a type, if one follows. -/
def definition (g : Grammar) : Parser Node := do
  whenSees (Look.op "=") do
    return .form .initial [← op "=", ← g.type true]

/-- A type declaration after its qualifiers. The flags admit a `where` clause before and after the
definition; it may stand in one place only. -/
def typeRest (g : Grammar) (before after : Bool) : Parser (String × List Node) := do
  let kw ← word "type"
  let name ← ident
  let params ← generics g
  let bs ← colonBounds g endsTypeBounds
  let preds ← if before then whereClause g else pure .absent
  let d ← definition g
  let latePreds ← if after && preds.isAbsent then whereClause g else pure .absent
  let semi ← op ";"
  return (name, [kw, .word name, params, bs, preds, d, latePreds, semi])

/-- Whether a type declaration has bounds. -/
def typeHasBounds : List Node → Bool
  | [_, _, _, bs, _, _, _, _] => !bs.isAbsent
  | _ => false

/-- Whether a type declaration has a definition. -/
def typeHasDefinition : List Node → Bool
  | [_, _, _, _, _, d, _, _] => !d.isAbsent
  | _ => false

/-- A method with attributes, kept as an item. -/
def methodItem (attrs : List Attr) (vis : Visibility) (name : String) (parts : List Node) : Node :=
  .item (.mk attrs vis (.plain .method (some name) parts))

/-- A method of a trait. -/
def traitMethod (g : Grammar) (attrs : List Attr) : Parser Node := do
  let (name, parts, _) ← signature g false
  if ← sees Look.braces then
    let b ← body g
    return methodItem attrs .inherited name (.absent :: parts ++ [b])
  else
    let semi ← op ";"
    return methodItem attrs .inherited name (.absent :: parts ++ [semi])

/-- A member of a trait. -/
def traitMember (g : Grammar) : Parser Node := do
  let start ← get
  let attrs ← outerAttrList g
  let attrsNode := Node.form .attrs (attrs.map .attr)
  let vis ← visibility
  let defaultness ← word? "default"
  let bare := vis == .inherited && defaultness.isAbsent
  let keep (n : Node) : Parser Node := do
    if bare then return n else return .raw (← since start)
  if ← startsSignature false then keep (← traitMethod g attrs)
  else if ← sees fun ts => Look.word "const" ts &&
      Look.second (Look.words ["async", "unsafe", "extern", "fn"]) ts then
    keep (← traitMethod g attrs)
  else if ← sees (Look.word "const") then
    let (parts, plain, _) ← constRest g
    if plain then keep (.form .constMember (attrsNode :: .absent :: .absent :: parts))
    else return .raw (← since start)
  else if ← sees (Look.word "type") then
    let (_, parts) ← typeRest g false true
    keep (.form .typeMember (attrsNode :: .absent :: .absent :: parts))
  else if bare && (← sees startsMacroPath) then macroMember attrsNode
  else fail

/-- A member of an implementation. -/
def implMember (g : Grammar) : Parser Node := do
  let start ← get
  let attrs ← outerAttrList g
  let attrsNode := Node.form .attrs (attrs.map .attr)
  let vis ← visibility
  let defaultness ← whenSees
    (fun ts => Look.word "default" ts && !Look.second (Look.op "!") ts) (word "default")
  if ← startsSignature false then
    let (name, parts, _) ← signature g false
    if ← sees (Look.op ";") then
      let _ ← op ";"
      return .raw (← since start)
    else
      let b ← body g
      return methodItem attrs vis name (defaultness :: parts ++ [b])
  else if ← sees (Look.word "const") then
    let (parts, plain, hasValue) ← constRest g
    if plain && hasValue then
      return .form .constMember (attrsNode :: visibilityNode vis :: defaultness :: parts)
    else return .raw (← since start)
  else if ← sees (Look.word "type") then
    let (_, parts) ← typeRest g false true
    if !typeHasBounds parts && typeHasDefinition parts then
      return .form .typeMember (attrsNode :: visibilityNode vis :: defaultness :: parts)
    else return .raw (← since start)
  else if vis == .inherited && defaultness.isAbsent && (← sees startsMacroPath) then
    macroMember attrsNode
  else fail

/-- A member of a foreign block. -/
def foreignMember (g : Grammar) : Parser Node := do
  let start ← get
  let attrs ← outerAttrs g
  let vis ← visibility
  if ← startsSignature true then
    let (_, parts, isSafe) ← signature g true
    if ← sees Look.braces then
      let _ ← body g
      return .raw (← since start)
    else
      let semi ← op ";"
      if isSafe then return .raw (← since start)
      else return .form .foreignFn (attrs :: visibilityNode vis :: parts ++ [semi])
  else if ← sees fun ts => Look.word "static" ts ||
      (Look.words ["unsafe", "safe"] ts && Look.second (Look.word "static") ts) then
    let qualifier ← whenSees (Look.words ["unsafe", "safe"]) do return .word (← anyWord)
    let kw ← word "static"
    let mutability ← word? "mut"
    let name ← ident
    let colon ← op ":"
    let t ← g.type true
    let value ← initialValue g
    let semi ← op ";"
    if qualifier.isAbsent && value.isAbsent then
      return .form .foreignStatic
        [attrs, visibilityNode vis, kw, mutability, .word name, colon, t, semi]
    else return .raw (← since start)
  else if ← sees (Look.word "type") then
    let (_, parts) ← typeRest g true true
    if typeHasBounds parts || typeHasDefinition parts then return .raw (← since start)
    else return .form .foreignType (attrs :: visibilityNode vis :: parts)
  else if vis == .inherited && (← sees startsMacroPath) then macroMember attrs
  else fail

end SourceGen.Parser
