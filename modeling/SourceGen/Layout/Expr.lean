import SourceGen.Layout.Type

/-!
# Layout of expressions

Lists that do not fit go one element to a line, chains of method calls break before every dot, and blocks
stay on their line where they hold a single short expression.
-/

namespace SourceGen

namespace Node

/-- Whether an expression is a name of at most four bytes, so that what follows it lines up with the next
indentation. -/
def isShortName : Node → Bool
  | .form .path [.leaf (.word s)] => s.utf8ByteSize ≤ 4
  | _ => false

/-- Whether an expression holds on to the bracket of a call that it is the only argument of. -/
def isBlockLike : Node → Bool
  | .form .array _ | .form .asyncBlock _ | .form .blockExpr _ | .form .closure _ | .form .constBlock _
  | .form .structExpr _ | .form .tryBlock _ | .form .tuple _ | .form .unsafeBlock _ => true
  | _ => false

/-- Whether a condition that takes several lines needs its brace on a line of its own. -/
def breaksBeforeBrace : Node → Bool
  | .form .assign _ | .form .awaitExpr _ | .form .binary _ | .form .cast _ | .form .field _
  | .form .index _ | .form .methodCall _ => true
  | .form .attributed [_, e] => e.breaksBeforeBrace
  | .form .breakExpr [_, _, e] => e.breaksBeforeBrace
  | .form .call [e, _] => e.breaksBeforeBrace
  | .form .letExpr [_, _, _, e] => e.breaksBeforeBrace
  | .form .paren [.group _ [e]] => e.breaksBeforeBrace
  | .form .range [_, _, e] => e.breaksBeforeBrace
  | .form .rawAddr [_, _, _, e] => e.breaksBeforeBrace
  | .form .reference [_, _, e] => e.breaksBeforeBrace
  | .form .returnExpr [_, e] => e.breaksBeforeBrace
  | .form .tryExpr [e, _] => e.breaksBeforeBrace
  | .form .unary [_, e] => e.breaksBeforeBrace
  | .form .yieldExpr [_, e] => e.breaksBeforeBrace
  | _ => false

/-- Whether an expression means the same as a statement. -/
def isStatementLike : Node → Bool
  | .form .attributed [_, e] => e.isStatementLike
  | .form .assign [e, _, _] => e.needsSemicolon && e.isStatementLike
  | .form .awaitExpr [e, _, _] => e.isStatementLike
  | .form .binary [e, _, _] => e.needsSemicolon && e.isStatementLike
  | .form .call [e, _] => e.needsSemicolon && e.isStatementLike
  | .form .cast [e, _, _] => e.needsSemicolon && e.isStatementLike
  | .form .field [e, _, _] => e.isStatementLike
  | .form .index [e, _] => e.needsSemicolon && e.isStatementLike
  | .form .methodCall [e, _, _, _, _] => e.isStatementLike
  | .form .range [e, _, _] => e.isAbsent || (e.needsSemicolon && e.isStatementLike)
  | .form .tryExpr [e, _] => e.isStatementLike
  | .form .letExpr _ => false
  | _ => true

/-- Whether an operator assigns. -/
def isAssignment (n : Node) : Bool :=
  ["+=", "-=", "*=", "/=", "%=", "^=", "&=", "|=", "<<=", ">>="].any n.isOp

/-- Whether an expression at the end of a block gets a semicolon, since it has no value of its own. -/
def takesSemicolon (e : Node) : Bool :=
  match e.bare with
  | .form .assign _ | .form .breakExpr _ | .form .continueExpr _ | .form .returnExpr _
  | .form .yieldExpr _ => true
  | .form .binary [_, o, _] => o.isAssignment
  | _ => false

/-- Whether an expression loses a semicolon after it. -/
def dropsSemicolon : Node → Bool
  | .form .attributed [_, e] => e.dropsSemicolon
  | .form .forLoop _ | .form .whileLoop _ => true
  | .form .ifExpr [_, _, _, .form .elseBranch [_, e]] => e.dropsSemicolon
  | .form .ifExpr _ => true
  | _ => false

/-- Whether a literal is short and plain enough to share a line with its neighbours in an array. -/
def isPlainLiteral : Node → Bool
  | .leaf (.literal s) =>
    match s.toList with
    | 'b' :: '\'' :: _ => true
    | '\'' :: _ => true
    | c :: _ => (c.isDigit && !Literal.isFloat s) || s == "true" || s == "false"
    | [] => false
  | _ => false

end Node

namespace Layout

/-- Whether the places before a dot are left out. -/
def hugs (atStart : Bool) (e : Node) : Bool := atStart && e.isShortName

/-- The place before a dot; a dot after a number such as `1.` stands apart. -/
def dotLine (atStart : Bool) (e : Node) : Layout := do
  if !hugs atStart e then place { within := if ← endsWithDot then " " else "" }

/-- The arguments of a call. -/
def callArgs (t : Typesetter) (parts : List Node) : Layout :=
  match Node.withoutCommas parts with
  | [e] => if e.isBlockLike then t.expr false e else elements (t.expr false) parts
  | _ => elements (t.expr false) parts

/-- An expression that more follows, with a dot, a call, an index or `?`. -/
def receiver (t : Typesetter) (atStart : Bool) : Node → Layout
  | .form .awaitExpr [e, _, _] => do
    receiver t atStart e
    dotLine atStart e
    text ".await"
  | .form .call [e, .group _ args] => do
    receiver t false e
    text "("
    callArgs t args
    text ")"
  | .form .field [e, _, name] => do
    receiver t atStart e
    dotLine atStart e
    text "."
    leaf name
  | .form .index [e, .group _ [i]] => do
    receiver t atStart e
    text "["
    t.expr false i
    text "]"
  | .form .methodCall [e, _, name, turbofish, .group _ args] => do
    receiver t atStart e
    dotLine atStart e
    text "."
    leaf name
    arguments t .expr turbofish
    openAll 0
    text "("
    callArgs t args
    text ")"
    close
  | .form .tryExpr [e, _] => do
    receiver t atStart e
    text "?"
  | e => do
    openAll (-indentation)
    t.expr false e
    close

/-- A block without its first brace's surroundings: a single expression stays on the line if it fits. -/
def smallBlock (t : Typesetter) (parts : List Node) : Layout := do
  text "\x7b"
  let attrs := Node.innerAttrs parts
  let statements := Node.afterAttrs parts
  if !parts.isEmpty then
    space
    innerAttrs t attrs
    match statements with
    | [.form .exprStmt [e, .form .absent _]] =>
      openSome 0
      t.expr true e
      close
      space
    | _ => statements.forM t.statement
    outdent
  text "\x7d"

/-- A block after a keyword. -/
def keywordBlock (t : Typesetter) (parts : List Node) : Layout := do
  openAll indentation
  smallBlock t parts
  close

/-- The statements of a block on lines of their own, from the opening brace on. -/
def blockLines (t : Typesetter) (parts : List Node) : Layout := do
  openAll indentation
  hardLineIfNonempty
  innerAttrs t (Node.innerAttrs parts)
  (Node.afterAttrs parts).forM t.statement
  outdent
  close
  text "\x7d"

/-- A condition and the gap before the brace that follows it. -/
def condition (t : Typesetter) (e : Node) : Layout := do
  openAll 0
  t.expr false e
  if e.breaksBeforeBrace then space else blank
  close

/-- A label, if there is one. -/
def label : Node → Layout
  | .form .label [name, _] => do
    leaf name
    text ": "
  | _ => return ()

/-- A blank and an expression, if there is one. -/
def value? (t : Typesetter) (e : Node) : Layout := do
  if !e.isAbsent then
    blank
    t.expr false e

/-- The branches of an `if` after its first block. -/
def elseBranches (t : Typesetter) : Node → Layout
  | .form .elseBranch [_, .form .ifExpr [_, cond, .group _ body, next]] => do
    text " else if "
    openAll (-indentation)
    condition t cond
    close
    smallBlock t body
    elseBranches t next
  | .form .elseBranch [_, .form .blockExpr [_, .group _ body]] => do
    text " else "
    smallBlock t body
  | _ => return ()

/-- An `if`. -/
def ifExpr (t : Typesetter) (cond : Node) (body : List Node) (otherwise : Node) : Layout := do
  openAll indentation
  text "if "
  openAll (-indentation)
  condition t cond
  close
  if !otherwise.isAbsent then
    smallBlock t body
    elseBranches t otherwise
  else if body.isEmpty then text "\x7b\x7d"
  else
    text "\x7b"
    hardLine
    body.forM t.statement
    outdent
    text "\x7d"
  close

/-- An expression that gets brackets of its own when it takes several lines: braces if it is a statement,
round brackets otherwise. `closing` is what the round bracket brings with it. -/
def wrapped (t : Typesetter) (atStart : Bool) (closing within : String) (e : Node) : Layout := do
  let braces := e.isStatementLike
  openAll indentation
  place { before := if braces then "\x7b" else "(" }
  t.expr atStart e
  place {
    offset := -indentation
    before := if braces && e.takesSemicolon then ";" else ""
    after := if braces then "\x7d" else closing
    within := within }
  close

/-- A closure. -/
def closure (t : Typesetter) (binder : Node) (marks : List Node) (params ret body : Node) : Layout := do
  openSome 0
  forLifetimes t binder
  marks.forM keyword?
  openAll indentation
  text "|"
  let inputs := Node.withoutCommas ((params.parts.drop 1).dropLast)
  each (fun first last p => do
    if first then softLine
    t.pattern p
    if !last then
      text ","
      space) inputs
  match ret with
  | .form .returns [_, ty] =>
    if !inputs.isEmpty then
      trailingComma true
      outdent
    text "|"
    close
    text " -> "
    t.type ty
    blank
    neverLine
    t.expr false body
  | _ =>
    text "|"
    space
    outdent
    close
    neverLine
    let isPlain := match body with
      | .form .matchExpr _ | .form .call _ => true
      | e => e.isBlockLike
    if isPlain then t.expr false body else wrapped t false ")" "" body
  close

/-- A field of a struct literal. -/
def fieldValue (t : Typesetter) : Node → Layout
  | .form .fieldValue [attrs, name, _, e] => do
    outerAttrs t attrs.attrsOf
    leaf name
    if !e.isAbsent then
      text ": "
      openSome 0
      t.expr false e
      close
  | _ => impossible

/-- Whether a part stands for the other fields of a struct literal. -/
def isBase : Node → Bool
  | .form .base _ => true
  | _ => false

/-- The expression that the other fields of a struct literal come from, if there is one. -/
def baseValue? : Node → Option Node
  | .form .base [_, e] => if e.isAbsent then none else some e
  | _ => none

/-- A struct literal. Dots without an expression are left out. -/
def structExpr (t : Typesetter) (p : Node) (parts : List Node) : Layout := do
  let parts := Node.withoutCommas parts
  let fields := parts.filter (!isBase ·)
  let bases := parts.filterMap baseValue?
  openAll indentation
  openSome (-indentation)
  path t .expr p
  close
  text " \x7b"
  spaceIfNonempty
  each (fun _ last f => do
    fieldValue t f
    trailingCommaOrSpace (last && bases.isEmpty)) fields
  bases.forM fun e => do
    text ".."
    t.expr false e
    space
  outdent
  closeWithin 34
  text "\x7d"

/-- The body of a match arm without the blocks around it, and an empty block for an empty tuple. -/
def armBody : Node → Node
  | .form .blockExpr [.form .absent a, .group d [.form .exprStmt [e, .form .absent b]]] =>
    if e.isAbsent then .form .blockExpr [.form .absent a, .group d [.form .exprStmt [e, .form .absent b]]]
    else armBody e
  | .form .tuple [.group _ []] => .form .blockExpr [.absent, .group .brace []]
  | e => e

/-- An arm of a `match`. -/
def arm (t : Typesetter) : Node → Layout
  | .form .arm [attrs, p, guard, _, e, _] => do
    outerAttrs t attrs.attrsOf
    openSome 0
    t.pattern p
    match guard with
    | .form .guard [_, cond] =>
      text " if "
      t.expr false cond
    | _ => pure ()
    text " => "
    match armBody e with
    | .form .attributed [_, .form .blockExpr [name, .group _ body]]
    | .form .blockExpr [name, .group _ body] =>
      label name
      text "\x7b"
      neverLine
      blockLines t body
    | e =>
      neverLine
      wrapped t true ")," (if e.needsComma then "," else "") e
    close
  | _ => impossible

/-- A `match`. -/
def matchExpr (t : Typesetter) (e : Node) (parts : List Node) : Layout := do
  openSome 0
  text "match "
  condition t e
  text "\x7b"
  neverLine
  openAll indentation
  hardLineIfNonempty
  innerAttrs t (Node.innerAttrs parts)
  (Node.afterAttrs parts).forM fun a => do
    arm t a
    hardLine
  outdent
  close
  text "\x7d"
  close

/-- An array by its elements. Plain literals share lines, other elements go one to a line. -/
def array (t : Typesetter) (parts : List Node) : Layout := do
  let elems := Node.withoutCommas parts
  if elems.isEmpty then text "[]"
  else if elems.all (·.bare.isPlainLiteral) then
    openAll indentation
    text "["
    softLine
    openSome 0
    each (fun _ last e => do
      t.expr false e
      if !last then
        text ","
        space) elems
    close
    trailingComma true
    outdent
    text "]"
    close
  else
    text "["
    elements (t.expr false) parts
    text "]"

/-- Two operands with what stands between them, which starts a new line if needed. -/
def infixed (t : Typesetter) (left : Node) (right : Layout) : Layout := do
  openSome indentation
  openSome (-indentation)
  t.expr false left
  close
  space
  right
  close

/-- An expression; the flag tells whether it stands at the beginning of a line. -/
def expr (t : Typesetter) (atStart : Bool) : Node → Layout
  | .leaf l => text (leafText l)
  | .form .phantom [e] => expr t atStart e
  | .form .attributed [attrs, e] => do
    outerAttrs t attrs.attrsOf
    expr t atStart e
  | .form .array [.group _ parts] => array t parts
  | .form .assign [l, _, r] => do
    openSome 0
    t.expr false l
    text " = "
    neverLine
    t.expr false r
    close
  | .form .asyncBlock [_, capture, .group _ body] => do
    text "async "
    keyword? capture
    keywordBlock t body
  | .form .awaitExpr parts => do
    openAll indentation
    receiver t atStart (.form .awaitExpr parts)
    close
  | .form .binary [l, o, r] =>
    infixed t l do
      leaf o
      blank
      t.expr false r
  | .form .blockExpr [name, .group _ body] => do
    label name
    keywordBlock t body
  | .form .breakExpr [_, name, e] => do
    text "break"
    if !name.isAbsent then
      blank
      leaf name
    value? t e
  | .form .call [e, .group _ args] => do
    expr t false e
    text "("
    callArgs t args
    text ")"
  | .form .cast [e, _, ty] =>
    infixed t e do
      text "as "
      t.type ty
  | .form .closure [binder, constness, movability, asyncness, capture, params, ret, body] =>
    closure t binder [constness, movability, asyncness, capture] params ret body
  | .form .constBlock [_, .group _ body] => do
    text "const "
    keywordBlock t body
  | .form .continueExpr [_, name] => do
    text "continue"
    if !name.isAbsent then
      blank
      leaf name
  | .form .field parts => do
    openAll indentation
    receiver t atStart (.form .field parts)
    close
  | .form .forLoop [name, _, p, _, e, .group _ body] => do
    openSome 0
    label name
    text "for "
    t.pattern p
    text " in "
    neverLine
    condition t e
    text "\x7b"
    neverLine
    blockLines t body
    close
  | .form .ifExpr [_, cond, .group _ body, otherwise] => ifExpr t cond body otherwise
  | .form .index [e, .group _ [i]] => do
    expr t atStart e
    text "["
    t.expr false i
    text "]"
  | .form .infer _ => text "_"
  | .form .letExpr [_, p, _, e] => do
    openSome 0
    text "let "
    openSome 0
    t.pattern p
    close
    text " = "
    neverLine
    openSome 0
    t.expr false e
    close
    close
  | .form .loopExpr [name, _, .group _ body] => do
    label name
    text "loop \x7b"
    blockLines t body
  | .form .macroCall parts => macroCall false (.form .macroCall parts)
  | .form .matchExpr [_, e, .group _ parts] => matchExpr t e parts
  | .form .methodCall [e, _, name, turbofish, .group _ args] => do
    openAll indentation
    receiver t atStart e
    dotLine atStart e
    text "."
    leaf name
    arguments t .expr turbofish
    openAll (if hugs atStart e then -indentation else 0)
    text "("
    callArgs t args
    text ")"
    close
    close
  | .form .paren [.group _ [e]] => do
    text "("
    t.expr false e
    text ")"
  | .form .range [lower, mark, upper] => do
    if !lower.isAbsent then t.expr false lower else if ← endsWithDot then blank
    leaf mark
    if !upper.isAbsent then t.expr false upper
  | .form .rawAddr [_, _, mutability, e] => do
    text "&raw "
    keyword? mutability
    t.expr false e
  | .form .reference [_, mutability, e] => do
    text "&"
    keyword? mutability
    t.expr false e
  | .form .repeatExpr [.group _ [e, _, length]] => do
    text "["
    t.expr false e
    text "; "
    t.expr false length
    text "]"
  | .form .returnExpr [_, e] => do
    text "return"
    value? t e
  | .form .structExpr [p, .group _ parts] => structExpr t p parts
  | .form .tryBlock [_, .group _ body] => do
    text "try "
    keywordBlock t body
  | .form .tryExpr [e, _] => do
    expr t atStart e
    text "?"
  | .form .tuple [.group _ elems] => do
    text "("
    tupleElements (t.expr false) true elems
    text ")"
  | .form .unary [o, e] => do
    leaf o
    t.expr false e
  | .form .unsafeBlock [_, .group _ body] => do
    text "unsafe "
    keywordBlock t body
  | .form .whileLoop [name, _, cond, .group _ body] => do
    label name
    text "while "
    condition t cond
    text "\x7b"
    neverLine
    blockLines t body
  | .form .yieldExpr [_, e] => do
    text "yield"
    value? t e
  | n => path t .expr n

end Layout

end SourceGen
