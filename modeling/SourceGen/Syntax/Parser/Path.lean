import SourceGen.Syntax.Parser.Grammar

/-!
# Paths

Plain paths of names, paths with generic arguments, and qualified paths. In expressions the arguments of a
segment need `::` before them; in types they do not.
-/

namespace SourceGen.Parser

/-- A path of names; `self`, `super`, `Self` and `crate` count as names. -/
def namePath : Parser NamePath := do
  let leading ← op? "::"
  let isName : Look := fun ts => Look.ident ts || Look.words ["super", "self", "Self", "crate"] ts
  let rec names : Nat → Parser (List String)
    | 0 => fail
    | fuel + 1 => do
      if ← sees isName then
        let n ← anyWord
        if ← sees (Look.op "::") then
          let _ ← op "::"
          return n :: (← names fuel)
        else return [n]
      else fail
  let ns ← names ((← get).rest.length + 1)
  return ⟨!leading.isAbsent, ns⟩

/-- The nodes of names with `::` between them. -/
def nameNodes : List String → List Node
  | [] => []
  | [n] => [.word n]
  | n :: ns => .word n :: .op "::" :: nameNodes ns

/-- A path of names as syntax. -/
def namePathNode (p : NamePath) : Node :=
  .form .path ((if p.rooted then [.op "::"] else []) ++ nameNodes p.names)

/-- A block used as an expression, without label. -/
def plainBlock (g : Grammar) : Parser Node := do
  return .form .blockExpr [.absent, ← group .brace (g.statements true)]

/-- A constant as a generic argument: a literal, a name or a block. -/
def constArgument (g : Grammar) : Parser Node := do
  if ← sees Look.literal then literal
  else if ← sees Look.ident then return .form .path [.word (← ident)]
  else if ← sees Look.braces then plainBlock g
  else fail

/-- The return type of a function; the flag admits bounds joined by `+`. -/
def returns (g : Grammar) (allowPlus : Bool) : Parser Node := do
  whenSees (Look.op "->") do
    return .form .returns [← op "->", ← g.type allowPlus]

/-- Arguments in round brackets, as of function traits. -/
def parenArgs (g : Grammar) : Parser Node := do
  let args ← group .paren (commaList (g.type true))
  return .form .parenArgs [args, ← returns g false]

/-- What a bound list may go on with after `+`; the flag admits bounds such as `[const] A`. -/
def startsBound (allowConst : Bool) : Look := fun ts =>
  Look.anyWord ts || Look.op "::" ts || Look.op "?" ts || Look.lifetime ts || Look.parens ts ||
    (allowConst && Look.brackets ts)

/-- Whether angle brackets hold parameters rather than the type of a qualified path. -/
def startsGenerics : Look := fun ts =>
  Look.op "<" ts &&
    (Look.second (Look.op ">") ts || Look.second (Look.op "#") ts ||
      ((Look.second Look.lifetime ts || Look.second Look.ident ts) &&
        ((Look.third (Look.op ":") ts && !Look.third (Look.op "::") ts) ||
          Look.third (Look.op ",") ts || Look.third (Look.op ">") ts ||
          Look.third (Look.op "=") ts)) ||
      Look.second (Look.word "const") ts)

/-- A generic parameter list after `for`. -/
def forLifetimes (param : Parser Node) : Parser Node := do
  let kw ← word "for"
  let lt ← op "<"
  let params ← separated "," (sees (Look.op ">")) param
  let gt ← op ">"
  return .form .forLifetimes (kw :: lt :: params ++ [gt])

/-- The lifetimes that a bound may capture. -/
def preciseCapture : Parser Node := do
  let kw ← word "use"
  let lt ← op "<"
  let params ← separated "," (sees (Look.op ">")) do
    if ← sees Look.lifetime then lifetime
    else if ← sees fun ts => Look.ident ts || Look.word "Self" ts then return .word (← anyWord)
    else fail
  let gt ← op ">"
  return .form .preciseCapture (kw :: lt :: params ++ [gt])

/-- Whether a path is one segment without arguments, or with arguments in angle brackets. -/
def isPlainSegment : Node → Bool
  | .form .path [.leaf (.word _)] => true
  | .form .path [.form .segment [_, .form .angled _]] => true
  | _ => false

/-- The name and the arguments of a path of one segment. -/
def segmentParts : Node → List Node
  | .form .path [.form .segment [n, args]] => [n, args]
  | .form .path [n] => [n, .absent]
  | n => [n, .absent]

/-- A generic argument. -/
def genericArgument (g : Grammar) : Parser Node := do
  if ← sees fun ts => Look.lifetime ts && !Look.second (Look.op "+") ts then lifetime
  else if ← sees fun ts => Look.literal ts || Look.braces ts then constArgument g
  else
    let t ← g.type true
    if isPlainSegment t then
      if ← sees (Look.op "=") then
        let eq ← op "="
        if ← sees fun ts => Look.literal ts || Look.braces ts then
          return .form .assocConst (segmentParts t ++ [eq, ← constArgument g])
        else return .form .assocType (segmentParts t ++ [eq, ← g.type true])
      else if ← sees (Look.op ":") then
        let colon ← op ":"
        let bounds ← plusList (fun ts => Look.op "," ts || Look.op ">" ts) g.bound
        return .form .constraint (segmentParts t ++ [colon, .form .bounds bounds])
      else return t
    else return t

/-- Generic arguments in angle brackets, with `::` before them if it is there. -/
def angled (g : Grammar) : Parser Node := do
  let colons ← op? "::"
  let lt ← op "<"
  let args ← separated "," (sees (Look.op ">")) (genericArgument g)
  let gt ← op ">"
  return .form .angled ((if colons.isAbsent then [] else [colons]) ++ lt :: args ++ [gt])

/-- A segment of a path; in an expression the arguments need `::`. -/
def segment (g : Grammar) (inExpr : Bool) : Parser Node := do
  if ← sees (Look.words ["super", "self", "crate", "try"]) then return .word (← anyWord)
  else
    let name ← if ← sees (Look.word "Self") then anyWord else ident
    let takes ← sees fun ts =>
      (!inExpr && Look.op "<" ts && !Look.op "<=" ts && !Look.op "<<=" ts) ||
        (Look.op "::" ts && Look.third (Look.op "<") ts)
    if takes then return .form .segment [.word name, ← angled g] else return .word name

/-- Whether a further segment follows. -/
def startsSegment : Look := fun ts =>
  Look.op "::" ts && !Look.third Look.parens ts

/-- The segments that follow the first one, each with its `::`. -/
def moreSegments (g : Grammar) (inExpr : Bool) : Parser (List Node) := do
  let pairs ← manyWhile startsSegment do
    let colons ← op "::"
    let s ← segment g inExpr
    return [colons, s]
  return pairs.flatten

/-- A path. -/
def path (g : Grammar) (inExpr : Bool) : Parser Node := do
  let leading ← op? "::"
  let first ← segment g inExpr
  let rest ← moreSegments g inExpr
  return .form .path ((if leading.isAbsent then [] else [leading]) ++ first :: rest)

/-- The parts of a qualified path after its type: every segment with its `::`. -/
def qualifiedRest (g : Grammar) (inExpr : Bool) : Parser (List Node) := do
  let first ← segment g inExpr
  let pairs ← manyWhile (Look.op "::") do
    let colons ← op "::"
    let s ← segment g inExpr
    return [colons, s]
  return first :: pairs.flatten

/-- A path, qualified or not. -/
def anyPath (g : Grammar) (inExpr : Bool) : Parser Node := do
  if ← sees (Look.op "<") then
    let lt ← op "<"
    let this ← g.type true
    let as ← whenSees (Look.word "as") do
      return .form .asTrait [← word "as", ← path g false]
    let gt ← op ">"
    let colons ← op "::"
    let rest ← qualifiedRest g inExpr
    return .form .qualifiedPath (lt :: this :: as :: gt :: colons :: rest)
  else path g inExpr

/-- Whether a path has names only, without arguments. -/
def isNamesOnly : Node → Bool
  | .form .path parts => parts.all fun
    | .leaf _ => true
    | _ => false
  | _ => false

/-- Whether angle brackets are empty. -/
def isEmptyAngled : Node → Bool
  | .form .angled parts => parts.all fun n => n.isOp "::" || n.isOp "<" || n.isOp ">"
  | _ => false

/-- Whether the last segment of a path has no arguments; empty angle brackets count as none. -/
def endsPlain : Node → Bool
  | .form .path parts | .form .qualifiedPath parts =>
    match parts.getLast? with
    | some (.leaf (.word _)) => true
    | some (.form .segment [_, args]) => isEmptyAngled args
    | _ => false
  | _ => false

/-- The path with arguments for its last segment; empty angle brackets there are dropped. -/
def withLastArgs (args : Node) : Node → Node
  | .form f parts =>
    match parts.getLast? with
    | some (.form .segment [name, angled]) =>
      .form f (parts.dropLast ++ [.form .segment [name, .form .silent [angled], args]])
    | some last => .form f (parts.dropLast ++ [.form .segment [last, args]])
    | none => .form f parts
  | n => n

/-- The path with more parts. -/
def withMore (more : List Node) : Node → Node
  | .form f parts => .form f (parts ++ more)
  | n => n

/-- Whether arguments in round brackets follow a path. -/
def startsParenArgs : Look := fun ts =>
  Look.parens ts || (Look.op "::" ts && Look.third Look.parens ts)

/-- Arguments in round brackets after a path; `::` before them is dropped. -/
def pathParenArgs (g : Grammar) : Parser Node := do
  let colons ← op? "::"
  let args ← parenArgs g
  match colons, args with
  | .leaf _, .form .parenArgs parts => return .form .parenArgs (.form .silent [colons] :: parts)
  | _, _ => return args

/-- A macro call after its path. -/
def macroCall (p : Node) : Parser Node := do
  return .form .macroCall [p, ← op "!", ← rawGroup]

end SourceGen.Parser
