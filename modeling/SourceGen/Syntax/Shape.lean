import SourceGen.Syntax.Basic

/-!
# Shapes of expressions

What the grammar and the layout ask about an expression: whether it can stand as a statement without a
semicolon, and whether it ends with a brace.
-/

namespace SourceGen

/-- The delimiter of a kept bracketed sequence. -/
def Node.rawDelimiter? : Node → Option Delimiter
  | .raw [.group d _] => some d
  | _ => none

/-- Whether the node is a macro call with braces. -/
def Node.isBraceMacro : Node → Bool
  | .form .macroCall [_, _, args] => args.rawDelimiter? == some .brace
  | _ => false

/-- The node without attributes and without marks on how it was read. -/
def Node.bare : Node → Node
  | .form .attributed [_, e] => e.bare
  | .form .phantom [n] => n.bare
  | n => n

/-- Whether a match arm with this body needs a comma. -/
def Node.needsComma (e : Node) : Bool :=
  match e.bare with
  | .form .ifExpr _ | .form .matchExpr _ | .form .blockExpr _ | .form .unsafeBlock _
  | .form .whileLoop _ | .form .loopExpr _ | .form .forLoop _ | .form .tryBlock _
  | .form .constBlock _ => false
  | _ => true

/-- Whether the expression needs a semicolon to be a statement. -/
def Node.needsSemicolon (e : Node) : Bool :=
  match e.bare with
  | .form .macroCall _ => !e.bare.isBraceMacro
  | _ => e.needsComma

/-- Whether a list of parts ends with kept tokens in braces. -/
def endsWithBraces (tokens : List TokenTree) : Bool :=
  match tokens.getLast? with
  | some (.group .brace _) => true
  | _ => false

mutual

/-- Whether an expression or a type ends with a brace. -/
def Node.endsWithBrace : Node → Bool
  | .form .asyncBlock _ | .form .blockExpr _ | .form .constBlock _ | .form .forLoop _
  | .form .ifExpr _ | .form .loopExpr _ | .form .matchExpr _ | .form .structExpr _
  | .form .tryBlock _ | .form .unsafeBlock _ | .form .whileLoop _ => true
  | .form .macroCall [_, _, .raw ts] => endsWithBraces ts
  | .raw ts => endsWithBraces ts
  | .form .assign ps | .form .binary ps | .form .cast ps | .form .closure ps | .form .letExpr ps
  | .form .rawAddr ps | .form .reference ps | .form .unary ps | .form .attributed ps | .form .kept ps
  | .form .breakExpr ps | .form .range ps | .form .returnExpr ps | .form .yieldExpr ps
  | .form .pointer ps | .form .refType ps | .form .fnType ps | .form .returns ps
  | .form .implTrait ps | .form .traitObject ps | .form .bounds ps | .form .traitBound ps
  | .form .path ps | .form .qualifiedPath ps | .form .segment ps | .form .parenArgs ps =>
    Node.lastEndsWithBrace ps
  | .form .parenBound [.group _ ps] => Node.lastEndsWithBrace ps
  | _ => false

/-- Whether the last of several parts ends with a brace. -/
def Node.lastEndsWithBrace : List Node → Bool
  | [] => false
  | [n] => n.endsWithBrace
  | _ :: ns => Node.lastEndsWithBrace ns

end

end SourceGen
