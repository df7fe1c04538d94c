import SourceGen.Layout.Expr

/-!
# Layout of patterns

Alternatives break before their bars; lists of fields break like those of expressions.
-/

namespace SourceGen.Layout

/-- A field of a struct pattern. -/
def fieldPattern (t : Typesetter) : Node → Layout
  | .form .fieldPattern [attrs, name, _, p] => do
    outerAttrs t attrs.attrsOf
    if !name.isAbsent then
      leaf name
      text ": "
    t.pattern p
  | _ => impossible

/-- Whether a part of a struct pattern stands for all other fields. -/
def isRestField : Node → Bool
  | .form .fieldPattern [_, name, _, .form .restPattern _] => name.isAbsent
  | _ => false

/-- The path of a pattern; the type that qualifies it is left out. -/
def patternPath (t : Typesetter) : Node → Layout
  | .form .qualifiedPath (_ :: _ :: .form .asTrait [_, .form .path parts] :: _ :: rest) =>
    path t .expr (.form .path (parts ++ rest))
  | .form .qualifiedPath (_ :: _ :: _ :: _ :: rest) => path t .expr (.form .path rest)
  | p => path t .expr p

/-- A struct pattern. -/
def structPattern (t : Typesetter) (p : Node) (parts : List Node) : Layout := do
  let parts := Node.withoutCommas parts
  let fields := parts.filter (!isRestField ·)
  let rests := parts.filter isRestField
  openAll indentation
  patternPath t p
  text " \x7b"
  spaceIfNonempty
  each (fun _ last f => do
    fieldPattern t f
    trailingCommaOrSpace (last && rests.isEmpty)) fields
  rests.forM fun f => do
    fieldPattern t f
    space
  outdent
  close
  text "\x7d"

/-- Whether an alternative is a literal or matches anything. -/
def isPlainCase : Node → Bool
  | .leaf (.literal _) => true
  | .form .infer _ => true
  | _ => false

/-- A pattern with alternatives. -/
def orPattern (t : Typesetter) (parts : List Node) : Layout := do
  let cases := parts.filter fun n => !n.isAbsent && !n.isOp "|"
  if cases.all isPlainCase then openSome 0 else openAll 0
  each (fun first _ p => do
    if !first then
      space
      text "| "
    t.pattern p) cases
  close

/-- A pattern. -/
def pattern (t : Typesetter) : Node → Layout
  | .form .attributed [attrs, p] => do
    outerAttrs t attrs.attrsOf
    t.pattern p
  | .form .phantom [p] => pattern t p
  | .form .identPattern [byRef, mutability, name, sub] => do
    keyword? byRef
    keyword? mutability
    leaf name
    match sub with
    | .form .atPattern [_, p] =>
      text " @ "
      t.pattern p
    | _ => pure ()
  | .form .orPattern parts => orPattern t parts
  | .form .paren [.group _ [p]] => do
    text "("
    t.pattern p
    text ")"
  | .form .refPattern [_, mutability, p] => do
    text "&"
    keyword? mutability
    t.pattern p
  | .form .restPattern _ => text ".."
  | .form .slicePattern [.group _ elems] => do
    text "["
    each (fun _ last p => do
      t.pattern p
      trailingComma last) (Node.withoutCommas elems)
    text "]"
  | .form .structPattern [p, .group _ parts] => structPattern t p parts
  | .form .tuple [.group _ elems] => do
    text "("
    tupleElements t.pattern (elems.getLast?.any (·.isOp ",")) elems
    text ")"
  | .form .tupleStructPattern [p, .group _ elems] => do
    patternPath t p
    text "("
    elements t.pattern elems
    text ")"
  | .form .typedPattern [p, _, ty] => do
    t.pattern p
    text ": "
    t.type ty
  | n => expr t false n

end SourceGen.Layout
