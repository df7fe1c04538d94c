import SourceGen.Syntax.Parser.Expr

/-!
# Visibilities and signatures

What items have in common: who may name them, and the signatures of functions.
-/

namespace SourceGen.Parser

/-- The scope of a visibility that is a single word. -/
def wordScope : Parser Visibility :=
  inside .paren do
    let name ← if ← sees (Look.words ["crate", "self", "super"]) then anyWord else fail
    if ← atEnd then return .restricted false ⟨false, [name]⟩ else fail

/-- The scope of a visibility that is a path. -/
def pathScope : Parser Visibility :=
  inside .paren do
    let _ ← word "in"
    return .restricted true (← namePath)

/-- A visibility; none at all is inherited. `pub` may have its scope in brackets. -/
def visibility : Parser Visibility := do
  if ← sees (Look.word "pub") then
    let _ ← word "pub"
    if ← sees Look.parens then
      match ← attempt wordScope with
      | some v => return v
      | none =>
        let isScoped ← sees fun ts => match ts with
          | .group _ inner :: _ => Look.word "in" inner
          | _ => false
        if isScoped then pathScope else return .pub
    else return .pub
  else return .inherited

/-- A visibility as syntax. -/
def visibilityNode : Visibility → Node
  | .inherited => .absent
  | .pub => .form .visibility [.word "pub"]
  | .restricted within p =>
    .form .visibility
      [.word "pub", .group .paren ((if within then [.word "in"] else []) ++ [namePathNode p])]

/-- A visibility as a part of a declaration. -/
def visibilityPart : Parser Node := do
  return visibilityNode (← visibility)

/-- A receiver without its attributes. -/
def receiver (g : Grammar) (attrs : Node) : Parser Node := do
  if ← sees (Look.op "&") then
    let amp ← op "&"
    let life ← lifetime?
    let mutability ← word? "mut"
    return .form .receiver [attrs, amp, life, mutability, ← word "self", .absent, .absent]
  else
    let mutability ← word? "mut"
    let self ← word "self"
    if ← sees (Look.op ":") then
      let colon ← op ":"
      return .form .receiver [attrs, .absent, .absent, mutability, self, colon, ← g.type true]
    else return .form .receiver [attrs, .absent, .absent, mutability, self, .absent, .absent]

/-- A parameter that is no receiver; a type alone gets the name `_`. -/
def parameter (g : Grammar) (attrs : Node) : Parser Node := do
  if ← sees fun ts => Look.ident ts && Look.second (Look.op "<") ts then
    return .form .parameter
      [attrs, .form .phantom [.form .infer [.word "_"]], .form .phantom [.op ":"], ← g.type true]
  else
    let p ← g.pattern
    let colon ← op ":"
    if ← sees (Look.op "...") then
      let dots ← op "..."
      let comma ← if ← atEnd then pure .absent else op ","
      return .form .variadic [attrs, .form .nameColon [p, colon], dots, comma]
    else return .form .parameter [attrs, p, colon, ← g.type true]

/-- Index of `self` in a receiver that starts at `start`. -/
def selfIndex (start : Nat) : Node → Nat
  | .form .receiver [_, amp, life, mutability, _, _, _] =>
    start + ([amp, life, mutability].filter (!·.isAbsent)).length
  | _ => start

/-- Whether a parameter takes any number of arguments. -/
def isVariadic : Node → Bool
  | .form .variadic _ => true
  | _ => false

/-- The parameters of a function, from the `position`-th on; `fuel` bounds their number. -/
def parametersFor (g : Grammar) (position : Nat) : Nat → Parser (List Node)
  | 0 => return []
  | fuel + 1 => do
    if ← atEnd then return []
    let attrs ← outerAttrs g
    if ← sees (Look.op "...") then
      let dots ← op "..."
      let comma ← if ← atEnd then pure .absent else op ","
      return [.form .variadic [attrs, .absent, dots, comma]]
    let start ← index
    let p ← match ← attempt (receiver g attrs) with
      | some r => if position = 0 then pure r else failAt (selfIndex start r)
      | none => parameter g attrs
    if isVariadic p then return [p]
    if ← atEnd then return [p]
    let comma ← op ","
    return p :: comma :: (← parametersFor g (position + 1) fuel)

/-- The signature of a function: its name, its parts, and whether it is marked safe. -/
def signature (g : Grammar) (admitsSafe : Bool) : Parser (String × List Node × Bool) := do
  let constness ← word? "const"
  let asyncness ← word? "async"
  let qualifier ← word? "unsafe"
  let safe ← if admitsSafe && qualifier.isAbsent then word? "safe" else pure .absent
  let convention ← abi
  let kw ← word "fn"
  let name ← ident
  let params ← generics g
  insideThen .paren (do parametersFor g 0 ((← get).rest.length + 1)) fun args => do
    let ret ← returns g true
    let preds ← whereClause g
    return (name,
      [constness, asyncness, qualifier, convention, kw, .word name, params, .group .paren args, ret, preds],
      !safe.isAbsent)

/-- Whether a signature starts here. -/
def startsSignature (admitsSafe : Bool) : Parser Bool :=
  succeeds do
    let _ ← word? "const"
    let _ ← word? "async"
    let _ ← if admitsSafe && (← sees (Look.word "safe")) then word "safe" else word? "unsafe"
    let _ ← abi
    word "fn"

end SourceGen.Parser
