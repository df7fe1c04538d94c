import SourceGen.Syntax.Parser.Pattern
import SourceGen.Text.Split

/-!
# Expressions

Expressions by operator precedence. Where a block follows, as after `if`, a path and a brace are no struct
literal; in statements and match arms an expression that ends with a block ends there.
-/

namespace SourceGen.Parser

/-- The binary operator at the start. -/
def binaryOperator? (ts : List TokenTree) : Option (String × Precedence) :=
  binaryOperators.find? fun o => Look.op o.1 ts

/-- The precedence of the operator at the start; without an operator it is the loosest one. -/
def nextPrecedence (ts : List TokenTree) : Precedence :=
  match binaryOperator? ts with
  | some o => o.2
  | none =>
    if Look.op "=" ts && !Look.op "=>" ts then .assign
    else if Look.op ".." ts then .range
    else if Look.word "as" ts then .cast
    else .jump

/-- Whether an expression is a range. -/
def isRange : Node → Bool
  | .form .range _ => true
  | _ => false

/-- Whether an expression is a comparison. -/
def isComparison : Node → Bool
  | .form .binary [_, o, _] => o.operatorPrecedence = .comparison
  | _ => false

/-- Whether an expression can begin here. -/
def startsExpr : Look := fun ts =>
  (Look.anyWord ts && !Look.word "as" ts) || Look.anyGroup ts || Look.literal ts ||
    (Look.op "!" ts && !Look.op "!=" ts) ||
    (Look.op "-" ts && !Look.op "-=" ts && !Look.op "->" ts) ||
    (Look.op "*" ts && !Look.op "*=" ts) || (Look.op "|" ts && !Look.op "|=" ts) ||
    (Look.op "&" ts && !Look.op "&=" ts) || Look.op ".." ts ||
    (Look.op "<" ts && !Look.op "<=" ts && !Look.op "<<=" ts) || Look.op "::" ts ||
    Look.lifetime ts || Look.op "#" ts

/-- The right operand of a binary operator: operators that bind more strongly belong to it. -/
def rightOperandFor (g : Grammar) (allowStruct : Bool) (level : Precedence) : Nat → Node → Parser Node
  | 0, e => return e
  | fuel + 1, e => do
    let next := nextPrecedence (← get).rest
    if level < next || (next = level && level = .assign) then
      let before ← index
      let e ← g.operators allowStruct next e
      if before == (← index) then return e else rightOperandFor g allowStruct level fuel e
    else return e

/-- The right operand of a binary operator. -/
def rightOperand (g : Grammar) (allowStruct : Bool) (level : Precedence) : Parser Node := do
  let e ← g.operand allowStruct
  rightOperandFor g allowStruct level ((← get).rest.length + 1) e

/-- Whether a range without upper bound ends here. -/
def endsRange (allowStruct : Bool) : Look := fun ts =>
  ts.isEmpty || Look.op "," ts || Look.op ";" ts || (Look.op "." ts && !Look.op ".." ts) ||
    Look.op "?" ts || Look.op "=>" ts || (!allowStruct && Look.braces ts) || Look.op "=" ts ||
    Look.op "+" ts || Look.op "/" ts || Look.op "%" ts || Look.op "^" ts || Look.op ">" ts ||
    Look.op "<=" ts || Look.op "!=" ts || Look.op "-=" ts || Look.op "*=" ts || Look.op "&=" ts ||
    Look.op "|=" ts || Look.op "<<=" ts || Look.word "as" ts

/-- A range after its lower bound. -/
def rangeAfter (g : Grammar) (allowStruct : Bool) (lower : Node) : Parser Node := do
  let mark ← rangeMark false
  let upper ← if mark.isOp ".." && (← sees (endsRange allowStruct)) then pure .absent
    else rightOperand g allowStruct .range
  return .form .range [lower, mark, upper]

/-- What must not follow a cast. -/
def followsCast : Look := fun ts =>
  (Look.op "." ts && !Look.op ".." ts) || Look.op "?" ts || Look.brackets ts || Look.parens ts

/-- The type of a cast; a path in it takes no arguments in round brackets. -/
def castType (g : Grammar) : Parser Node := do
  if ← sees fun ts => startsPath ts && !startsBuiltin ts then
    let p ← anyPath g false
    if isNamesOnly p && (← sees fun ts => Look.op "!" ts && !Look.op "!=" ts) then macroCall p
    else if ← sees startsParenArgs then fail
    else return p
  else g.type false

/-- An operand followed by operators that bind at least as strongly as `base`. -/
def operatorsFor (g : Grammar) (allowStruct : Bool) (base : Precedence) : Nat → Node → Parser Node
  | 0, e => return e
  | fuel + 1, e => do
    if isRange e then return e
    let ts := (← get).rest
    match binaryOperator? ts with
    | some (o, level) =>
      if level < base then return e
      if level = .comparison && isComparison e then return ← fail
      let mark ← op o
      let right ← rightOperand g allowStruct level
      operatorsFor g allowStruct base fuel (.form .binary [e, mark, right])
    | none =>
      if base ≤ .assign && Look.op "=" ts && !Look.op "=>" ts then
        let mark ← op "="
        let right ← rightOperand g allowStruct .assign
        operatorsFor g allowStruct base fuel (.form .assign [e, mark, right])
      else if base ≤ .range && Look.op ".." ts then
        operatorsFor g allowStruct base fuel (← rangeAfter g allowStruct e)
      else if base ≤ .cast && Look.word "as" ts then
        let kw ← word "as"
        let t ← castType g
        if ← sees followsCast then return ← fail
        operatorsFor g allowStruct base fuel (.form .cast [e, kw, t])
      else return e

/-- An operand followed by operators that bind at least as strongly as `base`. -/
def operators (g : Grammar) (allowStruct : Bool) (base : Precedence) (e : Node) : Parser Node := fun s =>
  operatorsFor g allowStruct base (s.rest.length + 1) e s

/-- An expression. -/
def expr (g : Grammar) (allowStruct : Bool) : Parser Node := do
  let e ← g.operand allowStruct
  operators g allowStruct .jump e

/-- The expression with attributes. One that is kept as tokens loses them. -/
def attributed (attrs : List Attr) (e : Node) : Node :=
  if attrs.isEmpty then e
  else
    let attrs := Node.form .attrs (attrs.map .attr)
    match e with
    | .raw tokens => .form .kept [.form .silent [attrs], .raw tokens]
    | .form .kept parts => .form .kept (.form .silent [attrs] :: parts)
    | e => .form .attributed [attrs, e]

/-- Field accesses by the indices of a number literal such as `0.1`, and whether the literal ends with a
dot that belongs to the next access. -/
def indexedFields (e dot : Node) (parts : List (List Char)) (first : Bool) : Option Node :=
  match parts with
  | [] => some e
  | p :: ps =>
    match tupleIndex? (String.ofList p) with
    | some n =>
      if p.isEmpty then none
      else
        let name := Node.leaf (.literal (toString n))
        let dotPart := if first then dot else .form .phantom [.op "."]
        let namePart := if first then name else .form .phantom [name]
        indexedFields (.form .field [e, dotPart, namePart]) dot ps false
    | none => none

/-- What follows a dot: `await`, a field, or a method call. -/
def member (g : Grammar) (e dot : Node) : Parser Node := do
  if ← sees (Look.word "await") then return .form .awaitExpr [e, dot, ← word "await"]
  else
    let name ← fieldName
    let turbofish ← if isNamedField name && (← sees (Look.op "::")) then angled g else pure .absent
    if isNamedField name && (!turbofish.isAbsent || (← sees Look.parens)) then
      let args ← group .paren (commaList (g.expr true))
      return .form .methodCall [e, dot, name, turbofish, args]
    else return .form .field [e, dot, name]

/-- Field accesses by a number literal, and whether it ends with a dot. -/
def indexFields (e dot : Node) : Parser (Node × Bool) := do
  match (← get).rest with
  | .literal s :: _ =>
    let trailing := s.toList.getLast? == some '.'
    let cs := if trailing then s.toList.dropLast else s.toList
    match indexedFields e dot (Text.split '.' cs) true with
    | some e => skip 1; return (e, trailing)
    | none => fail
  | _ => fail

/-- What follows a dot; a number such as `0.1` is two fields. -/
def afterDot (g : Grammar) (e dot : Node) : Parser Node := do
  if ← sees Look.float then
    let (e, trailing) ← indexFields e dot
    if trailing then member g e (.form .phantom [.op "."]) else return e
  else member g e dot

/-- Calls, field accesses, indexing and `?` after an atom. -/
def trailersFor (g : Grammar) : Nat → Node → Parser Node
  | 0, e => return e
  | fuel + 1, e => do
    if ← sees Look.parens then
      let args ← group .paren (commaList (g.expr true))
      trailersFor g fuel (.form .call [e, args])
    else if (← sees fun ts => Look.op "." ts && !Look.op ".." ts) && !isRange e then
      let dot ← op "."
      let e ← afterDot g e dot
      trailersFor g fuel e
    else if ← sees Look.brackets then
      let i ← group .bracket do return [← g.expr true]
      trailersFor g fuel (.form .index [e, i])
    else if (← sees (Look.op "?")) && !isRange e then
      let mark ← op "?"
      trailersFor g fuel (.form .tryExpr [e, mark])
    else return e

/-- Calls, field accesses, indexing and `?` after an atom. -/
def trailers (g : Grammar) (e : Node) : Parser Node := fun s =>
  trailersFor g (s.rest.length + 1) e s

/-- A block without inner attributes. -/
def block (g : Grammar) : Parser Node := group .brace (g.statements false)

/-- A block that may have inner attributes. -/
def body (g : Grammar) : Parser Node := group .brace (g.statements true)

/-- An `if` with its branches. -/
def ifFor (g : Grammar) : Nat → Parser Node
  | 0 => fail
  | fuel + 1 => do
    let kw ← word "if"
    let cond ← g.expr false
    let thenBranch ← block g
    if ← sees (Look.word "else") then
      let elseKw ← word "else"
      if ← sees (Look.word "if") then
        let e ← ifFor g fuel
        return .form .ifExpr [kw, cond, thenBranch, .form .elseBranch [elseKw, e]]
      else if ← sees Look.braces then
        let e := Node.form .blockExpr [.absent, ← block g]
        return .form .ifExpr [kw, cond, thenBranch, .form .elseBranch [elseKw, e]]
      else fail
    else return .form .ifExpr [kw, cond, thenBranch, .absent]

/-- An `if` with its branches. -/
def ifExpr (g : Grammar) : Parser Node := fun s => ifFor g (s.rest.length + 1) s

/-- A `while` loop after its label. -/
def whileLoop (g : Grammar) (label : Node) : Parser Node := do
  let kw ← word "while"
  let cond ← g.expr false
  return .form .whileLoop [label, kw, cond, ← body g]

/-- A `for` loop after its label. -/
def forLoop (g : Grammar) (label : Node) : Parser Node := do
  let kw ← word "for"
  let p ← alternatives g
  let inKw ← word "in"
  let e ← g.expr false
  return .form .forLoop [label, kw, p, inKw, e, ← body g]

/-- A `loop` after its label. -/
def loopExpr (g : Grammar) (label : Node) : Parser Node := do
  return .form .loopExpr [label, ← word "loop", ← body g]

/-- A block after its label. -/
def blockExpr (g : Grammar) (label : Node) : Parser Node := do
  return .form .blockExpr [label, ← body g]

/-- A labelled loop or block. -/
def labelled (g : Grammar) : Parser Node := do
  let label := Node.form .label [← lifetime, ← op ":"]
  if ← sees (Look.word "while") then whileLoop g label
  else if ← sees (Look.word "for") then forLoop g label
  else if ← sees (Look.word "loop") then loopExpr g label
  else if ← sees Look.braces then blockExpr g label
  else fail

/-- An arm of a `match`. -/
def arm (g : Grammar) : Parser Node := do
  let attrs ← outerAttrs g
  let p ← alternatives g
  let guard ← whenSees (Look.word "if") do
    return .form .guard [← word "if", ← g.expr true]
  let arrow ← op "=>"
  let e ← g.earlyExpr
  let comma ← if e.needsComma && !(← atEnd) then op "," else op? ","
  return .form .arm [attrs, p, guard, arrow, e, comma]

/-- A `match`. -/
def matchExpr (g : Grammar) : Parser Node := do
  let kw ← word "match"
  let e ← g.expr false
  let arms ← group .brace do
    let attrs ← innerAttrs g
    return attrs.map .attr ++ (← manyToEnd (arm g))
  return .form .matchExpr [kw, e, arms]

/-- A parameter of a closure. -/
def closureParam (g : Grammar) : Parser Node := do
  let attrs ← outerAttrList g
  let p ← g.pattern
  if ← sees (Look.op ":") then
    let colon ← op ":"
    return attributed attrs (.form .typedPattern [p, colon, ← g.type true])
  else return attributed attrs p

/-- A closure. -/
def closure (g : Grammar) (allowStruct : Bool) : Parser Node := do
  let binder ← whenSees (Look.word "for") (forLifetimes (genericParam g false))
  let constness ← word? "const"
  let movability ← word? "static"
  let asyncness ← word? "async"
  let capture ← word? "move"
  let bar ← op "|"
  let params ← separated "," (sees (Look.op "|")) (closureParam g)
  let closing ← op "|"
  let params := Node.form .closureParams (bar :: params ++ [closing])
  if ← sees (Look.op "->") then
    let ret := Node.form .returns [← op "->", ← g.type true]
    let b ← block g
    return .form .closure
      [binder, constness, movability, asyncness, capture, params, ret, .form .blockExpr [.absent, b]]
  else
    let e ← g.expr allowStruct
    return .form .closure [binder, constness, movability, asyncness, capture, params, .absent, e]

/-- A field of a struct literal. -/
def fieldValue (g : Grammar) : Parser Node := do
  let attrs ← outerAttrs g
  let name ← fieldName
  if (← sees (Look.op ":")) || !isNamedField name then
    let colon ← op ":"
    return .form .fieldValue [attrs, name, colon, ← g.expr true]
  else return .form .fieldValue [attrs, name, .absent, .absent]

/-- The fields of a struct literal; `fuel` bounds their number. -/
def fieldValuesFor (g : Grammar) : Nat → Parser (List Node)
  | 0 => return []
  | fuel + 1 => do
    if ← atEnd then return []
    if ← sees (Look.op "..") then
      let dots ← op ".."
      let rest ← if ← atEnd then pure .absent else g.expr true
      return [.form .base [dots, rest]]
    let field ← fieldValue g
    if ← atEnd then return [field]
    let comma ← op ","
    return field :: comma :: (← fieldValuesFor g fuel)

/-- A path, a macro call or a struct literal. -/
def pathExpr (g : Grammar) (allowStruct : Bool) : Parser Node := do
  let p ← anyPath g true
  if isNamesOnly p && (← sees fun ts => Look.op "!" ts && !Look.op "!=" ts) then macroCall p
  else if allowStruct && (← sees Look.braces) then
    return .form .structExpr [p, ← group .brace do fieldValuesFor g ((← get).rest.length + 1)]
  else return p

/-- An expression in round brackets, or a tuple. -/
def parenExpr (g : Grammar) : Parser Node := do
  let content ← inside .paren (commaList (g.expr true))
  match content with
  | [_] => return .form .paren [.group .paren content]
  | _ => return .form .tuple [.group .paren content]

/-- An array by its elements or by an element and a length. -/
def arrayExpr (g : Grammar) : Parser Node := do
  inside .bracket do
    if ← atEnd then return .form .array [.group .bracket []]
    let first ← g.expr true
    if ← atEnd then return .form .array [.group .bracket [first]]
    else if ← sees (Look.op ",") then
      let comma ← op ","
      return .form .array [.group .bracket (first :: comma :: (← commaList (g.expr true)))]
    else if ← sees (Look.op ";") then
      let semi ← op ";"
      return .form .repeatExpr [.group .bracket [first, semi, ← g.expr true]]
    else fail

/-- A `break`. -/
def breakExpr (g : Grammar) (allowStruct : Bool) : Parser Node := do
  let kw ← word "break"
  let start ← index
  if ← sees fun ts => Look.lifetime ts && Look.second (Look.op ":") ts then
    let _ ← g.expr true
    failAt start
  else
    let label ← lifetime?
    let value ← if ← sees fun ts => startsExpr ts && (allowStruct || !Look.braces ts) then g.expr true
      else pure .absent
    return .form .breakExpr [kw, label, value]

/-- A keyword and the expression after it, if one begins there. -/
def keywordExpr (g : Grammar) (f : Form) (kw : String) : Parser Node := do
  let k ← word kw
  return .form f [k, ← whenSees startsExpr (g.expr true)]

/-- Whether the binder of a closure begins here. -/
def startsBinder : Look := fun ts => Look.word "for" ts && Look.second startsGenerics ts

/-- Whether a closure begins here. -/
def startsClosure : Look := fun ts =>
  Look.op "|" ts || Look.word "move" ts || startsBinder ts ||
    (Look.word "const" ts && !Look.second Look.braces ts) || Look.word "static" ts ||
    (Look.word "async" ts && (Look.second (Look.op "|") ts || Look.second (Look.word "move") ts))

/-- An atom: an expression that needs no operator. -/
def atom (g : Grammar) (allowStruct : Bool) : Parser Node := do
  if ← sees Look.literal then literal
  else if ← sees fun ts => Look.word "async" ts &&
      (Look.second Look.braces ts ||
        (Look.second (Look.word "move") ts && Look.third Look.braces ts)) then
    return .form .asyncBlock [← word "async", ← word? "move", ← block g]
  else if ← sees fun ts => Look.word "try" ts && Look.second Look.braces ts then
    return .form .tryBlock [← word "try", ← block g]
  else if ← sees startsClosure then closure g allowStruct
  else if ← sees startsBuiltin then
    let start ← get
    builtin
    return .raw (← since start)
  else if ← sees fun ts => startsPath ts ||
      (Look.word "try" ts && (Look.second (Look.op "!") ts || Look.second (Look.op "::") ts)) then
    pathExpr g allowStruct
  else if ← sees Look.parens then parenExpr g
  else if ← sees (Look.word "break") then breakExpr g allowStruct
  else if ← sees (Look.word "continue") then
    return .form .continueExpr [← word "continue", ← lifetime?]
  else if ← sees (Look.word "return") then keywordExpr g .returnExpr "return"
  else if ← sees (Look.word "become") then
    let start ← get
    let _ ← word "become"
    let _ ← g.expr true
    return .raw (← since start)
  else if ← sees Look.brackets then arrayExpr g
  else if ← sees (Look.word "let") then
    let kw ← word "let"
    let p ← alternatives g
    let eq ← op "="
    let e ← g.operand allowStruct
    return .form .letExpr [kw, p, eq, ← g.operators allowStruct .comparison e]
  else if ← sees (Look.word "if") then ifExpr g
  else if ← sees (Look.word "while") then whileLoop g .absent
  else if ← sees (Look.word "for") then forLoop g .absent
  else if ← sees (Look.word "loop") then loopExpr g .absent
  else if ← sees (Look.word "match") then matchExpr g
  else if ← sees (Look.word "yield") then keywordExpr g .yieldExpr "yield"
  else if ← sees (Look.word "unsafe") then
    return .form .unsafeBlock [← word "unsafe", ← body g]
  else if ← sees (Look.word "const") then
    return .form .constBlock [← word "const", ← body g]
  else if ← sees Look.braces then blockExpr g .absent
  else if ← sees (Look.op "..") then rangeAfter g allowStruct .absent
  else if ← sees (Look.word "_") then return .form .infer [← word "_"]
  else if ← sees Look.lifetime then labelled g
  else fail

/-- An operand with its attributes, of which the first one starts at `start`. An operand that is kept as tokens is
kept with them; a range, which starts at `first`, has none. -/
def withAttrs (start : Input) (first : Nat) (attrs : List Attr) (e : Node) : Parser Node := do
  match e with
  | .raw _ => return .raw (← since start)
  | _ => if isRange e && !attrs.isEmpty then failAt first else return attributed attrs e

/-- An operand of binary operators. -/
def operand (g : Grammar) (allowStruct : Bool) : Parser Node := do
  let start ← get
  let attrs ← outerAttrList g
  if ← sees (Look.op "&") then
    let amp ← op "&"
    let raw ← if ← sees fun ts => Look.word "raw" ts &&
        (Look.second (Look.word "mut") ts || Look.second (Look.word "const") ts) then
        word "raw" else pure .absent
    if raw.isAbsent then
      let mutability ← word? "mut"
      return attributed attrs (.form .reference [amp, mutability, ← g.operand allowStruct])
    else
      let mutability := Node.word (← anyWord)
      return attributed attrs (.form .rawAddr [amp, raw, mutability, ← g.operand allowStruct])
  else if ← sees fun ts => Look.op "*" ts || Look.op "!" ts || Look.op "-" ts then
    let mark ← if ← sees (Look.op "*") then op "*" else if ← sees (Look.op "!") then op "!" else op "-"
    return attributed attrs (.form .unary [mark, ← g.operand allowStruct])
  else
    let first ← index
    let e ← atom g allowStruct
    withAttrs start first attrs (← trailers g e)

/-- An expression that starts with a block, if one comes next. -/
def blockLike? (g : Grammar) : Parser (Option Node) := do
  if ← sees (Look.word "if") then return some (← ifExpr g)
  else if ← sees (Look.word "while") then return some (← whileLoop g .absent)
  else if ← sees fun ts => Look.word "for" ts && !startsBinder ts then
    return some (← forLoop g .absent)
  else if ← sees (Look.word "loop") then return some (← loopExpr g .absent)
  else if ← sees (Look.word "match") then return some (← matchExpr g)
  else if ← sees fun ts => Look.word "try" ts && Look.second Look.braces ts then
    return some (.form .tryBlock [← word "try", ← block g])
  else if ← sees (Look.word "unsafe") then
    return some (.form .unsafeBlock [← word "unsafe", ← body g])
  else if ← sees fun ts => Look.word "const" ts && Look.second Look.braces ts then
    return some (.form .constBlock [← word "const", ← body g])
  else if ← sees Look.braces then return some (← blockExpr g .absent)
  else if ← sees Look.lifetime then return some (← labelled g)
  else return none

/-- An expression that ends early after a block, as in statements and match arms. -/
def earlyExpr (g : Grammar) : Parser Node := do
  let attrs ← outerAttrList g
  match ← blockLike? g with
  | some e =>
    if ← sees fun ts => (Look.op "." ts && !Look.op ".." ts) || Look.op "?" ts then
      let e ← trailers g e
      operators g true .jump (attributed attrs e)
    else return attributed attrs e
  | none =>
    let e ← g.operand true
    operators g true .jump (attributed attrs e)

end SourceGen.Parser
