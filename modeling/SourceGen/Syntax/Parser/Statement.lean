import SourceGen.Syntax.Parser.Item

/-!
# Statements

The content of blocks: local declarations, items, macro calls and expressions. An expression that ends with
a block needs no semicolon; any other one may leave it out at the end of the block only.
-/

namespace SourceGen.Parser

/-- Puts attributes before an expression: they belong to its leftmost operand. -/
def attachAttrs (attrs : List Attr) : Node → Node
  | .form .assign (l :: ps) => .form .assign (attachAttrs attrs l :: ps)
  | .form .binary (l :: ps) => .form .binary (attachAttrs attrs l :: ps)
  | .form .cast (l :: ps) => .form .cast (attachAttrs attrs l :: ps)
  | .form .attributed [.form .attrs as, e] => .form .attributed [.form .attrs (attrs.map .attr ++ as), e]
  | e => attributed attrs e

/-- A local declaration after its attributes. -/
def letStmt (g : Grammar) (attrs : List Attr) : Parser Node := do
  let kw ← word "let"
  let p ← g.pattern
  let p ← if ← sees (Look.op ":") then do
      let colon ← op ":"
      pure (Node.form .typedPattern [p, colon, ← g.type true])
    else pure p
  let init ← whenSees (Look.op "=") do
    let eq ← op "="
    let e ← g.expr true
    let diverge ← if !e.endsWithBrace && (← sees (Look.word "else")) then do
        let elseKw ← word "else"
        pure (Node.form .elseBranch [elseKw, .form .blockExpr [.absent, ← block g]])
      else pure .absent
    return .form .initial [eq, e, diverge]
  let semi ← op ";"
  return .form .letStmt [.form .attrs (attrs.map .attr), kw, p, init, semi]

/-- Whether an item starts here, macro definitions apart. -/
def startsItem : Look := fun ts =>
  let two := fun l => Look.second l ts
  let three := fun l => Look.third l ts
  let w := fun s => Look.word s ts
  w "pub" || (w "crate" && !two (Look.op "::")) || w "extern" || w "use" ||
    (w "static" &&
      (two (Look.word "mut") ||
        (two Look.ident &&
          !(two (Look.word "async") && (three (Look.word "move") || three (Look.op "|")))))) ||
    (w "const" &&
      !(two Look.braces || two (Look.word "static") ||
        (two (Look.word "async") && !three (Look.words ["unsafe", "extern", "fn"])) ||
        two (Look.word "move") || two (Look.op "|"))) ||
    (w "unsafe" && !two Look.braces) ||
    (w "async" && two (Look.words ["unsafe", "extern", "fn"])) ||
    Look.words ["fn", "mod", "type", "struct", "enum", "trait", "impl", "macro"] ts ||
    (w "union" && two Look.ident) || (w "auto" && two (Look.word "trait")) ||
    (w "default" && two (Look.words ["unsafe", "impl"]))

/-- What a macro path at the start of a statement leads to. -/
inductive MacroStart
  | none
  | definition
  | call
deriving DecidableEq

/-- What a macro path at the start of a statement leads to. -/
def macroStart : Parser MacroStart := fun s =>
  match namePath s with
  | .error _ => .ok (.none, s)
  | .ok (_, t) =>
    let ts := t.rest
    if Look.op "!" ts then
      if Look.second Look.ident ts || Look.second (Look.word "try") ts then .ok (.definition, s)
      else if Look.second Look.braces ts &&
          !((Look.third (Look.op ".") ts && !Look.third (Look.op "..") ts) ||
            Look.third (Look.op "?") ts) then .ok (.call, s)
      else .ok (.none, s)
    else .ok (.none, s)

/-- An expression as a statement, after its attributes. -/
def exprStmt (g : Grammar) (attrs : List Attr) : Parser Node := do
  let e ← g.earlyExpr
  let e := if attrs.isEmpty then e else attachAttrs attrs e
  let semi ← op? ";"
  match e with
  | .form .macroCall _ =>
    if !semi.isAbsent || e.isBraceMacro then return .form .macroStmt [.form .attrs [], e, semi]
    else return .form .exprStmt [e, semi]
  | .form .attributed [as, m] =>
    match m with
    | .form .macroCall _ =>
      if !semi.isAbsent || m.isBraceMacro then return .form .macroStmt [as, m, semi]
      else return .form .exprStmt [e, semi]
    | _ => return .form .exprStmt [e, semi]
  | _ => return .form .exprStmt [e, semi]

/-- A statement. -/
def statement (g : Grammar) : Parser Node := do
  let start ← get
  let attrs ← outerAttrList g
  let m ← macroStart
  if m = .call then
    let call ← macroCall (namePathNode (← namePath))
    return .form .macroStmt [.form .attrs (attrs.map .attr), call, ← op? ";"]
  else if ← sees (Look.word "let") then letStmt g attrs
  else if (← sees startsItem) || m = .definition then return .item (← itemAfter g start attrs)
  else exprStmt g attrs

/-- Whether another statement may follow only after a semicolon. -/
def needsSeparator : Node → Bool
  | .form .exprStmt [e, semi] => semi.isAbsent && e.needsSemicolon
  | .form .macroStmt [_, call, semi] => semi.isAbsent && !call.isBraceMacro
  | _ => false

/-- Statements to the end of a block; `fuel` bounds their number. -/
def statementsFor (g : Grammar) : Nat → Parser (List Node)
  | 0 => return []
  | fuel + 1 => do
    if ← sees (Look.op ";") then
      let semi ← op ";"
      return .form .exprStmt [.raw [], semi] :: (← statementsFor g fuel)
    else if ← atEnd then return []
    else
      let s ← statement g
      if ← atEnd then return [s]
      else if needsSeparator s then fail
      else return s :: (← statementsFor g fuel)

/-- The statements between braces; the flag admits inner attributes before them. -/
def statements (g : Grammar) (admitsAttrs : Bool) : Parser (List Node) := do
  let attrs ← if admitsAttrs then innerAttrs g else pure []
  let ss ← statementsFor g ((← get).rest.length + 1)
  return attrs.map .attr ++ ss

/-- The grammar up to a nesting depth. -/
def grammar : Nat → Grammar
  | 0 => .none
  | depth + 1 => {
    type := fun allowPlus s => type (grammar depth) allowPlus s
    bound := fun s => bound (grammar depth) s
    pattern := fun s => pattern (grammar depth) s
    expr := fun allowStruct s => expr (grammar depth) allowStruct s
    operand := fun allowStruct s => operand (grammar depth) allowStruct s
    earlyExpr := fun s => earlyExpr (grammar depth) s
    operators := fun allowStruct base e s => operators (grammar depth) allowStruct base e s
    statements := fun admitsAttrs s => statements (grammar depth) admitsAttrs s
    item := fun s => item (grammar depth) s }

end SourceGen.Parser
