import SourceGen.Syntax.Parser.Path

/-!
# Types, bounds and generics

Types, the bounds of type parameters, parameter lists and `where` clauses. Whether bounds may be joined by
`+` depends on where a type stands: `&A + B` needs brackets.
-/

namespace SourceGen

namespace Parser

/-- The path that names an attribute; `unsafe` stands alone. -/
def attrPath : Parser NamePath := do
  if ← sees (Look.word "unsafe") then
    return ⟨false, [← anyWord]⟩
  else namePath

/-- The arguments of an attribute. -/
def attrArgs (g : Grammar) : Parser (List Node) := do
  if ← sees Look.anyGroup then return [← rawGroup]
  else if ← sees (Look.op "=") then
    let eq ← op "="
    let loneLiteral ← sees fun ts =>
      match ts with
      | [.punct _ _, _] => Look.literal ts
      | [_] => Look.literal ts
      | _ => false
    if loneLiteral then return [eq, ← literal]
    else if ← sees fun ts => Look.op "#" ts && Look.second Look.brackets ts then fail
    else return [eq, ← g.expr true]
  else return []

/-- An attribute of what encloses it. -/
def innerAttr (g : Grammar) : Parser Attr := do
  let _ ← op "#"
  let _ ← op "!"
  inside .bracket do
    let p ← attrPath
    return .mk true p (← attrArgs g)

/-- An attribute of what follows it. -/
def outerAttr (g : Grammar) : Parser Attr := do
  let _ ← op "#"
  inside .bracket do
    let p ← attrPath
    return .mk false p (← attrArgs g)

/-- All attributes at the start of a body or file. -/
def innerAttrs (g : Grammar) : Parser (List Attr) :=
  manyWhile (fun ts => Look.op "#" ts && Look.second (Look.op "!") ts) (innerAttr g)

/-- All attributes before an item. -/
def outerAttrList (g : Grammar) : Parser (List Attr) :=
  manyWhile (Look.op "#") (outerAttr g)

/-- All attributes before what follows. -/
def outerAttrs (g : Grammar) : Parser Node := do
  return .form .attrs ((← outerAttrList g).map .attr)

/-- The mark before a trait bound, if there is one. -/
def boundModifier : Parser Node := op? "?"

/-- Whether `const` or `[const]` stands before a trait bound, which the flag has to admit; such a bound is
kept as tokens. -/
def constCondition (allowConst : Bool) : Parser Bool := do
  let start ← index
  let isConst ← if ← sees (Look.word "const") then do
      let _ ← word "const"
      pure true
    else if ← sees Look.brackets then do
      let _ ← inside .bracket (word "const")
      pure true
    else pure false
  if isConst && !allowConst then failAt start else return isConst

/-- A generic parameter; the flag admits `_` as its name. -/
def genericParam (g : Grammar) (allowWild : Bool) : Parser Node := do
  let attrs ← outerAttrs g
  if ← sees Look.lifetime then
    let name ← lifetime
    let bounds ← whenSees (Look.op ":") do
      let colon ← op ":"
      let bs ← plusList (fun ts => ts.isEmpty || Look.op "," ts || Look.op ">" ts) lifetime
      return .form .bounded (colon :: bs)
    return .form .lifetimeParam [attrs, name, bounds]
  else if ← sees Look.ident then
    let name ← ident
    let bounds ← whenSees (Look.op ":") do
      let colon ← op ":"
      let bs ← plusList
        (fun ts => ts.isEmpty || Look.op "," ts || Look.op ">" ts || Look.op "=" ts) g.bound
      return .form .bounded (colon :: bs)
    let default ← whenSees (Look.op "=") do
      return .form .initial [← op "=", ← g.type true]
    return .form .typeParam [attrs, .word name, bounds, default]
  else if ← sees (Look.word "const") then
    let kw ← word "const"
    let name ← ident
    let colon ← op ":"
    let type ← g.type true
    let default ← whenSees (Look.op "=") do
      return .form .initial [← op "=", ← constArgument g]
    return .form .constParam [attrs, kw, .word name, colon, type, default]
  else if allowWild && (← sees (Look.word "_")) then
    return .form .typeParam [attrs, ← word "_", .absent, .absent]
  else fail

/-- The path of a trait bound, which may have arguments in round brackets. -/
def boundPath (g : Grammar) : Parser Node := do
  let p ← path g false
  if endsPlain p && (← sees startsParenArgs) then return withLastArgs (← pathParenArgs g) p
  else return p

/-- A trait bound without brackets, or nothing if it is kept as tokens. A bound with a mark binds no
lifetimes. -/
def traitBound (g : Grammar) (allowConst : Bool) : Parser (Option Node) := do
  let binder := whenSees (Look.word "for") (forLifetimes (genericParam g false))
  let lifetimes ← binder
  let conditional ← constCondition allowConst
  let mark ← index
  let modifier ← boundModifier
  let inner ← if lifetimes.isAbsent && !modifier.isAbsent then binder else pure .absent
  let p ← boundPath g
  if !modifier.isAbsent && !(lifetimes.isAbsent && inner.isAbsent) then failAt mark
  else if conditional then return none
  else return some (.form .traitBound [lifetimes, modifier, p])

/-- A bound of a type; the flags admit lists of captured lifetimes, and bounds such as `const A`. -/
def boundWith (g : Grammar) (allowCapture allowConst : Bool) : Parser Node := do
  if ← sees Look.lifetime then lifetime
  else if ← sees (Look.word "use") then
    let start ← index
    let b ← preciseCapture
    if allowCapture then return b else failAt start
  else
    let start ← get
    if ← sees Look.parens then
      match ← inside .paren (traitBound g allowConst) with
      | some b => return .form .parenBound [.group .paren [b]]
      | none => return .raw (← since start)
    else
      match ← traitBound g allowConst with
      | some b => return b
      | none => return .raw (← since start)

/-- A bound. -/
def bound (g : Grammar) : Parser Node := boundWith g false true

/-- A bound of a trait object. -/
def objectBound (g : Grammar) : Parser Node := boundWith g false false

/-- Bounds joined by `+` where the flag admits it; one bound is needed. -/
def boundsAfter (g : Grammar) (allowPlus allowCapture allowConst : Bool) : Nat → Parser (List Node)
  | 0 => return []
  | fuel + 1 => do
    let b ← boundWith g allowCapture allowConst
    if allowPlus && (← sees (Look.op "+")) then
      let plus ← op "+"
      if ← sees (startsBound allowConst) then
        return b :: plus :: (← boundsAfter g allowPlus allowCapture allowConst fuel)
      else return [b, plus]
    else return [b]

/-- The bounds of an `impl` type, joined by `+` where the flag admits it; one bound is needed. -/
def implBounds (g : Grammar) (allowPlus : Bool) : Parser (List Node) := fun s =>
  boundsAfter g allowPlus true true (s.rest.length + 1) s

/-- The bounds of a trait object, joined by `+` where the flag admits it; one bound is needed. -/
def objectBounds (g : Grammar) (allowPlus : Bool) : Parser (List Node) := fun s =>
  boundsAfter g allowPlus false false (s.rest.length + 1) s

/-- Whether a bound names a trait. -/
def isTraitBound : Node → Bool
  | .leaf (.lifetime _) => false
  | .leaf (.op _) => false
  | .form .preciseCapture _ => false
  | _ => true

/-- Whether arguments in round brackets may be followed by further segments. -/
def admitsMoreSegments : Node → Bool
  | .form .parenArgs parts =>
    match parts.getLast? with
    | some (.form .returns [_, .form .paren _]) => true
    | some (.form .absent _) => true
    | _ => false
  | _ => false

/-- Arguments in round brackets after a path, and the segments after them. -/
def withParenArgs (g : Grammar) : Nat → Node → Parser Node
  | 0, p => return p
  | fuel + 1, p => do
    if endsPlain p && (← sees startsParenArgs) then
      let args ← pathParenArgs g
      let p := withLastArgs args p
      if admitsMoreSegments args then
        let more ← moreSegments g false
        withParenArgs g fuel (withMore more p)
      else withParenArgs g fuel p
    else return p

/-- A path that names a type, with its arguments. -/
def namedType (g : Grammar) (path : Parser Node) : Parser Node := do
  let p ← path
  withParenArgs g ((← get).rest.length + 1) p

/-- Whether `const`, `async` and so on can lead to a function type. -/
def startsFnType : Look := Look.words ["fn", "unsafe", "extern"]

/-- The calling convention of a function. -/
def abi : Parser Node := do
  whenSees (Look.word "extern") do
    let kw ← word "extern"
    return .form .abi [kw, ← whenSees Look.stringLiteral literal]

/-- Whether a parameter name and a colon come next. -/
def startsNamedArg : Look := fun ts =>
  (Look.ident ts || Look.word "_" ts) && Look.second (Look.op ":") ts

/-- The name of a parameter of a function type, with its colon. -/
def argName : Parser Node := do
  let name ← anyWord
  return .form .nameColon [.word name, ← op ":"]

/-- A parameter of a function type; only the first one may be a receiver. -/
def bareArg (g : Grammar) (first : Bool) : Parser Node := do
  let attrs ← outerAttrs g
  let start ← get
  if ← sees fun ts => first && Look.word "mut" ts && Look.second (Look.word "self") ts then
    skip 1
    if ← sees fun ts => Look.second (Look.op ":") ts && !Look.second (Look.op "::") ts then
      skip 1
      let _ ← op ":"
      let _ ← g.type true
    else
      let _ ← word "self"
    return .form .bareArg [attrs, .absent, .raw (← since start)]
  else
    let isSelf ← sees fun ts => first && Look.word "self" ts
    let named ← sees fun ts =>
      (Look.ident ts || Look.word "_" ts || isSelf) &&
        Look.second (Look.op ":") ts && !Look.second (Look.op "::") ts
    let name ← if named then argName else pure .absent
    if ← sees fun ts => first && !(named && isSelf) && Look.word "mut" ts &&
        Look.second (Look.word "self") ts then
      skip 2
      return .form .bareArg [attrs, .absent, .raw (← since start)]
    else return .form .bareArg [attrs, name, ← g.type true]

/-- The parameters of a function type; `fuel` bounds their number. -/
def bareArgsFor (g : Grammar) (first : Bool) : Nat → Parser (List Node)
  | 0 => return []
  | fuel + 1 => do
    if ← atEnd then return []
    let dots ← ahead do
      let _ ← outerAttrs g
      sees fun ts => Look.op "..." ts || (startsNamedArg ts && Look.third (Look.op "...") ts)
    if dots then
      let attrs ← outerAttrs g
      let name ← whenSees startsNamedArg argName
      let dots ← op "..."
      let comma ← op? ","
      return [.form .variadic [attrs, name, dots, comma]]
    else
      let arg ← bareArg g first
      if ← atEnd then return [arg]
      let comma ← op ","
      return arg :: comma :: (← bareArgsFor g false fuel)

/-- A function type after its binder. -/
def fnType (g : Grammar) (binder : Node) : Parser Node := do
  let qualifier ← word? "unsafe"
  let convention ← abi
  let kw ← word "fn"
  insideThen .paren (do bareArgsFor g true ((← get).rest.length + 1)) fun args => do
    return .form .fnType [binder, qualifier, convention, kw, .group .paren args, ← returns g false]

/-- Whether a path starts here that is neither rooted nor qualified. -/
def startsName : Look := fun ts =>
  Look.ident ts || Look.words ["super", "self", "Self", "crate"] ts

/-- Whether a path type starts here. -/
def startsPath : Look := fun ts =>
  startsName ts || Look.op "::" ts || Look.op "<" ts

/-- Whether syntax that is built into the compiler starts here. -/
def startsBuiltin : Look := fun ts => Look.word "builtin" ts && Look.second (Look.op "#") ts

/-- Syntax that is built into the compiler; it is kept as tokens. -/
def builtin : Parser Unit := do
  skip 2
  let _ ← ident
  if ← sees Look.parens then
    let _ ← rawGroup
    return ()
  else fail

/-- The bounds after a first one, each with its `+`. -/
def moreBounds (g : Grammar) : Parser (List Node) := do
  let pairs ← manyWhile (Look.op "+") do
    let plus ← op "+"
    let b ← objectBound g
    return [plus, b]
  return pairs.flatten

/-- The bounds after the path that starts a list; a `+` may end it. -/
def moreTypeBounds (g : Grammar) : Nat → Parser (List Node)
  | 0 => return []
  | fuel + 1 => do
    if ← sees (Look.op "+") then
      let plus ← op "+"
      if ← sees fun ts => Look.anyWord ts || Look.op "::" ts || Look.op "?" ts || Look.lifetime ts ||
          Look.parens ts then
        let b ← objectBound g
        return plus :: b :: (← moreTypeBounds g fuel)
      else return [plus]
    else return []

/-- A list of bounds without a leading `dyn`. -/
def bareObject (bs : List Node) : Node :=
  .form .traitObject [.absent, .form .bounds bs]

/-- The first bound of a list whose first element stands in brackets, if the type there can be one. Of two
pairs of brackets only the inner one is printed. -/
def bracketedBound (first : Node) : Option Node :=
  match first with
  | .form .path _ => some (.form .parenBound [.group .paren [.form .traitBound [.absent, .absent, first]]])
  | .form .traitObject [.form .absent [], .form .bounds [.form .traitBound ps]] =>
    some (.form .parenBound [.group .paren [.form .traitBound ps]])
  | .form .traitObject [.form .absent [], .form .bounds [b]] =>
    some (.form .kept [.form .silent [.op "("], b, .form .silent [.op ")"]])
  | _ => none

/-- What stands between the round brackets at the start of a type, and whether it is a bound. -/
def parenContent (g : Grammar) : Parser (Bool × Node) := do
  if ← atEnd then return (false, .form .tuple [.group .paren []])
  else if ← sees Look.lifetime then
    let start ← index
    let bs ← objectBounds g true
    if bs.any isTraitBound then return (false, .form .paren [.group .paren [bareObject bs]])
    else failAt start
  else if ← sees (Look.op "?") then
    match ← traitBound g false with
    | some b => return (true, .form .parenBound [.group .paren [b]])
    | none => fail
  else
    let first ← g.type true
    if ← sees (Look.op ",") then
      let comma ← op ","
      let rest ← commaList (g.type true)
      return (false, .form .tuple [.group .paren (first :: comma :: rest)])
    else return (false, .form .paren [.group .paren [first]])

/-- A type after the round brackets at its start; of a single type between them, a `+` makes a bound. -/
def afterParens (g : Grammar) (allowPlus isBound : Bool) (node : Node) : Parser Node := do
  if isBound then return bareObject (node :: (← moreBounds g))
  else
    match node with
    | .form .paren [.group .paren [first]] =>
      if allowPlus && (← sees (Look.op "+")) then
        match bracketedBound first with
        | some b => return bareObject (b :: (← moreBounds g))
        | none => return node
      else return node
    | _ => return node

/-- A type that starts with a round bracket. -/
def parenType (g : Grammar) (allowPlus : Bool) : Parser Node :=
  insideThen .paren (parenContent g) fun (isBound, node) => afterParens g allowPlus isBound node

/-- Whether a path is qualified. -/
def isQualified : Node → Bool
  | .form .qualifiedPath _ => true
  | _ => false

/-- A type that starts with a path without a qualified part: a name, a macro call or a list of bounds. A macro
call loses its binder. -/
def afterPath (g : Grammar) (allowPlus : Bool) (binder p : Node) : Parser Node := do
  if isNamesOnly p && (← sees fun ts => Look.op "!" ts && !Look.op "!=" ts) then
    let call ← macroCall p
    if binder.isAbsent then return call else return .form .kept [.form .silent [binder], call]
  else if !binder.isAbsent || (allowPlus && (← sees (Look.op "+"))) then
    let first := Node.form .traitBound [binder, .absent, p]
    let more ← if allowPlus then moreTypeBounds g ((← get).rest.length + 1) else pure []
    return bareObject (first :: more)
  else return p

/-- A type that starts with a path. -/
def pathType (g : Grammar) (allowPlus : Bool) : Parser Node := do
  let p ← namedType g (anyPath g false)
  if isQualified p then return p else afterPath g allowPlus .absent p

/-- A type after its binder, which starts at `start`. -/
def boundType (g : Grammar) (allowPlus : Bool) (start : Input) (binder : Node) : Parser Node := do
  if ← sees startsFnType then fnType g binder
  else if ← sees startsBuiltin then
    builtin
    return .raw (← since start)
  else if ← sees startsName then afterPath g allowPlus binder (← namedType g (path g false))
  else fail

/-- A type without a binder. -/
def unboundType (g : Grammar) (allowPlus : Bool) : Parser Node := do
  let start ← get
  if ← sees Look.parens then parenType g allowPlus
  else if ← sees startsFnType then fnType g .absent
  else if ← sees startsBuiltin then
    builtin
    return .raw (← since start)
  else if ← sees startsPath then pathType g allowPlus
  else if ← sees (Look.word "dyn") then
    let start ← get
    let kw ← word "dyn"
    let star ← op? "*"
    let bs ← objectBounds g allowPlus
    if !bs.any isTraitBound then failAt start.index
    else if star.isAbsent then return .form .traitObject [kw, .form .bounds bs]
    else return .raw (← since start)
  else if ← sees Look.brackets then
    inside .bracket do
      let elem ← g.type true
      if ← sees (Look.op ";") then
        let semi ← op ";"
        return .form .arrayType [.group .bracket [elem, semi, ← g.expr true]]
      else return .form .sliceType [.group .bracket [elem]]
  else if ← sees (Look.op "*") then
    let star ← op "*"
    let mutability ← if ← sees (Look.words ["const", "mut"]) then pure (Node.word (← anyWord)) else fail
    return .form .pointer [star, mutability, ← g.type false]
  else if ← sees (Look.op "&") then
    let amp ← op "&"
    let life ← lifetime?
    let mutability ← word? "mut"
    return .form .refType [amp, life, mutability, ← g.type false]
  else if ← sees fun ts => Look.op "!" ts && !Look.op "=" ts then
    return .form .never [← op "!"]
  else if ← sees (Look.word "impl") then
    let start ← index
    let kw ← word "impl"
    let bs ← implBounds g allowPlus
    if bs.any isTraitBound then return .form .implTrait [kw, .form .bounds bs] else failAt start
  else if ← sees (Look.word "_") then return .form .infer [← word "_"]
  else if ← sees Look.lifetime then
    let start ← index
    let bs ← objectBounds g true
    if bs.any isTraitBound then return bareObject bs else failAt start
  else fail

/-- A type. -/
def type (g : Grammar) (allowPlus : Bool) : Parser Node := do
  let start ← get
  let binder ← whenSees (Look.word "for") (forLifetimes (genericParam g false))
  if binder.isAbsent then unboundType g allowPlus else boundType g allowPlus start binder

/-- A generic parameter list, if one comes next. -/
def generics (g : Grammar) : Parser Node := do
  whenSees (Look.op "<") do
    let lt ← op "<"
    let params ← separated "," (sees (Look.op ">")) (genericParam g true)
    let gt ← op ">"
    return .form .generics (lt :: params ++ [gt])

/-- Where the bounds of a predicate end. -/
def endsPredicate : Look := fun ts =>
  ts.isEmpty || Look.braces ts || Look.op "," ts || Look.op ";" ts ||
    (Look.op ":" ts && !Look.op "::" ts) || Look.op "=" ts

/-- A predicate of a `where` clause. -/
def wherePredicate (g : Grammar) : Parser Node := do
  if ← sees fun ts => Look.lifetime ts && Look.second (Look.op ":") ts then
    let life ← lifetime
    let colon ← op ":"
    let bs ← plusList endsPredicate lifetime
    return .form .wherePredicate [.absent, life, colon, .form .bounds bs]
  else
    let binder ← whenSees (Look.word "for") (forLifetimes (genericParam g false))
    let t ← g.type true
    let colon ← op ":"
    let bs ← plusList endsPredicate g.bound
    return .form .wherePredicate [binder, t, colon, .form .bounds bs]

/-- The predicates of a `where` clause; `fuel` bounds their number. -/
def predicatesFor (g : Grammar) : Nat → Parser (List Node)
  | 0 => return []
  | fuel + 1 => do
    if ← sees endsPredicate then return []
    let p ← wherePredicate g
    if ← sees (Look.op ",") then
      let comma ← op ","
      return p :: comma :: (← predicatesFor g fuel)
    else return [p]

/-- A `where` clause, if one comes next. -/
def whereClause (g : Grammar) : Parser Node := do
  whenSees (Look.word "where") do
    let kw ← word "where"
    if ← sees startsGenerics then return ← fail
    let ps ← predicatesFor g ((← get).rest.length + 1)
    return .form .whereClause (kw :: ps)

end Parser

end SourceGen
