import SourceGen.Syntax.Parser.Type
import SourceGen.Syntax.Size
import SourceGen.Token.Literal

/-!
# Patterns

Patterns with and without alternatives. Range patterns share their form with range expressions.
-/

namespace SourceGen

/-- A whole number literal. -/
def Look.whole : Look
  | .literal s :: _ => s.toList.head?.any Char.isDigit && !Literal.isFloat s
  | _ => false

/-- A number literal with a fraction or an exponent. -/
def Look.float : Look
  | .literal s :: _ => s.toList.head?.any Char.isDigit && Literal.isFloat s
  | _ => false

namespace Parser

/-- The value of a number written in the given base, separators allowed; nothing if a suffix follows. -/
def wholeValue (base : Nat) : Nat → List Char → Option Nat
  | acc, [] => some acc
  | acc, c :: cs =>
    if c = '_' then wholeValue base acc cs
    else
      let d := if c.isDigit then c.toNat - 48
        else if 'a' ≤ c && c ≤ 'f' then c.toNat - 87
        else if 'A' ≤ c && c ≤ 'F' then c.toNat - 55
        else base
      if d < base then wholeValue base (acc * base + d) cs else none

/-- The index that a whole number literal stands for, if it is one without suffix. -/
def tupleIndex? (s : String) : Option Nat :=
  let value := match s.toList with
    | '0' :: 'x' :: cs => wholeValue 16 0 cs
    | '0' :: 'o' :: cs => wholeValue 8 0 cs
    | '0' :: 'b' :: cs => wholeValue 2 0 cs
    | cs => wholeValue 10 0 cs
  value.filter (· < 1 <<< 32)

/-- The name or index of a field. -/
def fieldName : Parser Node := do
  if ← sees Look.ident then return .word (← ident)
  else if ← sees Look.whole then
    match (← get).rest with
    | .literal s :: _ =>
      match tupleIndex? s with
      | some n => skip 1; return .leaf (.literal (toString n))
      | none => fail
    | _ => fail
  else fail

/-- Whether a field is named by a word. -/
def isNamedField : Node → Bool
  | .leaf (.word _) => true
  | _ => false

/-- The mark of a range; `...` is admitted in patterns only, where it means `..=`. -/
def rangeMark (admitsDots : Bool) : Parser Node := do
  if ← sees (Look.op "..=") then op "..="
  else if ← sees (Look.op "...") then
    if admitsDots then
      let _ ← op "..."
      return .op "..="
    else fail
  else op ".."

/-- A bound of a range pattern, if one comes next. -/
def rangeBound (g : Grammar) : Parser Node := do
  let ends ← sees fun ts =>
    ts.isEmpty || Look.op "|" ts || Look.op "=" ts || (Look.op ":" ts && !Look.op "::" ts) ||
      Look.op "," ts || Look.op ";" ts || Look.word "if" ts
  if ends then return .absent
  else if ← sees Look.literal then literal
  else if ← sees startsPath then anyPath g true
  else if ← sees (Look.word "const") then
    let kw ← word "const"
    return .form .constBlock [kw, ← group .brace (g.statements true)]
  else fail

/-- Whether a range needs an upper bound. -/
def needsUpper (mark : Node) : Bool := !mark.isOp ".."

/-- A range pattern after its lower bound. -/
def rangePattern (g : Grammar) (lower : Node) : Parser Node := do
  let mark ← rangeMark (!lower.isAbsent)
  let upper ← rangeBound g
  if needsUpper mark && upper.isAbsent then fail
  else if lower.isAbsent && upper.isAbsent then return .form .restPattern [mark]
  else return .form .range [lower, mark, upper]

/-- Whether an alternative follows. -/
def startsAlternative : Look := fun ts =>
  Look.op "|" ts && !Look.op "||" ts && !Look.op "|=" ts

/-- A pattern with alternatives; a leading `|` is allowed. -/
def alternatives (g : Grammar) : Parser Node := do
  let lead ← op? "|"
  let first ← g.pattern
  let more ← manyWhile startsAlternative do
    let bar ← op "|"
    let p ← g.pattern
    return [bar, p]
  if lead.isAbsent && more.isEmpty then return first
  else return .form .orPattern (lead :: first :: more.flatten)

/-- A field of a struct pattern that binds the name of the field. -/
def shorthandField (attrs byRef mutability : Node) (name : Node) : Node :=
  .form .fieldPattern [attrs, .absent, .absent, .form .identPattern [byRef, mutability, name, .absent]]

/-- A field of a struct pattern. -/
def fieldPattern (g : Grammar) (attrs : Node) : Parser Node := do
  let start ← get
  let boxed ← word? "box"
  let byRef ← word? "ref"
  let mutability ← word? "mut"
  if boxed.isAbsent && byRef.isAbsent && mutability.isAbsent then
    let name ← fieldName
    if (← sees (Look.op ":")) || !isNamedField name then
      let colon ← op ":"
      return .form .fieldPattern [attrs, name, colon, ← alternatives g]
    else return shorthandField attrs .absent .absent name
  else
    let name ← ident
    if boxed.isAbsent then return shorthandField attrs byRef mutability (.word name)
    else return .form .fieldPattern [attrs, .absent, .absent, .raw (← since start)]

/-- The fields of a struct pattern; `fuel` bounds their number. -/
def fieldPatternsFor (g : Grammar) : Nat → Parser (List Node)
  | 0 => return []
  | fuel + 1 => do
    if ← atEnd then return []
    let attrs ← outerAttrs g
    if ← sees (Look.op "..") then
      return [.form .fieldPattern [attrs, .absent, .absent, .form .restPattern [← op ".."]]]
    let field ← fieldPattern g attrs
    if ← atEnd then return [field]
    let comma ← op ","
    return field :: comma :: (← fieldPatternsFor g fuel)

/-- A pattern that starts with a path. -/
def pathPattern (g : Grammar) : Parser Node := do
  let p ← anyPath g true
  if isNamesOnly p && (← sees fun ts => Look.op "!" ts && !Look.op "!=" ts) then macroCall p
  else if ← sees Look.braces then
    let fields ← group .brace do fieldPatternsFor g ((← get).rest.length + 1)
    return .form .structPattern [p, fields]
  else if ← sees Look.parens then
    return .form .tupleStructPattern [p, ← group .paren (commaList (alternatives g))]
  else if ← sees (Look.op "..") then rangePattern g p
  else return p

/-- A pattern that binds a name. -/
def identPattern (g : Grammar) : Parser Node := do
  let byRef ← word? "ref"
  let mutability ← word? "mut"
  let name ← if ← sees (Look.word "self") then anyWord else ident
  let sub ← whenSees (Look.op "@") do
    return .form .atPattern [← op "@", ← g.pattern]
  return .form .identPattern [byRef, mutability, .word name, sub]

/-- A pattern in round brackets; a lone pattern without comma is only bracketed, unless it is `..`. -/
def parenPattern (g : Grammar) : Parser Node := do
  let content ← inside .paren (commaList (alternatives g))
  match content with
  | [.form .restPattern _] => return .form .tuple [.group .paren content]
  | [_] => return .form .paren [.group .paren content]
  | _ => return .form .tuple [.group .paren content]

/-- An element of a slice pattern; a range without one of its bounds needs brackets there. -/
def sliceElement (g : Grammar) : Parser Node := do
  let start ← index
  match ← alternatives g with
  | .form .range [lower, mark, upper] =>
    if lower.isAbsent || upper.isAbsent then failAt (start + lower.size)
    else return .form .range [lower, mark, upper]
  | p => return p

/-- A pattern without alternatives. -/
def pattern (g : Grammar) : Parser Node := do
  let startsPathPattern ← sees fun ts =>
    (Look.ident ts &&
      (Look.second (Look.op "::") ts || Look.second (Look.op "!") ts || Look.second Look.braces ts ||
        Look.second Look.parens ts || Look.second (Look.op "..") ts)) ||
      (Look.word "self" ts && Look.second (Look.op "::") ts) ||
      Look.op "::" ts || Look.op "<" ts || Look.words ["Self", "super", "crate"] ts
  if startsPathPattern then pathPattern g
  else if ← sees (Look.word "_") then return .form .infer [← word "_"]
  else if ← sees (Look.word "box") then
    let start ← get
    let _ ← word "box"
    let _ ← g.pattern
    return .raw (← since start)
  else if ← sees fun ts => Look.op "-" ts || Look.literal ts || Look.word "const" ts then
    let lower ← rangeBound g
    if ← sees (Look.op "..") then rangePattern g lower else return lower
  else if ← sees fun ts => Look.words ["ref", "mut", "self"] ts || Look.ident ts then identPattern g
  else if ← sees (Look.op "&") then
    let amp ← op "&"
    let mutability ← word? "mut"
    return .form .refPattern [amp, mutability, ← g.pattern]
  else if ← sees Look.parens then parenPattern g
  else if ← sees Look.brackets then
    return .form .slicePattern [← group .bracket (commaList (sliceElement g))]
  else if ← sees fun ts => Look.op ".." ts && !Look.op "..." ts then rangePattern g .absent
  else fail

end Parser

end SourceGen
