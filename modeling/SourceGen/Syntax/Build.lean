import SourceGen.Syntax.Basic
import SourceGen.Text.Quoted

/-!
# Building syntax

Short forms for the syntax that the library writes itself: attributes, paths, calls and functions.
-/

namespace SourceGen

namespace Attr

/-- The tokens of names with commas between them. -/
def nameTokens : List String → List TokenTree
  | [] => []
  | [n] => [.word n]
  | n :: ns => .word n :: .punct ',' false :: nameTokens ns

/-- An attribute whose arguments are names, if there are any. -/
def ofNames (inner : Bool) (name : String) (args : List String) : Attr :=
  .mk inner ⟨false, [name]⟩ (if args.isEmpty then [] else [.raw [.group .paren (nameTokens args)]])

end Attr

namespace UseTree

/-- A tree below a path of names. -/
def ofSteps (names : List String) (tree : UseTree) : UseTree := names.foldr .step tree

end UseTree

namespace Node

/-- A path of names with `::` between them. -/
def names : List String → List Node
  | [] => []
  | [n] => [word n]
  | n :: ns => word n :: op "::" :: names ns

/-- A path from the scope it stands in. -/
def path (ns : List String) : Node := .form .path (names ns)

/-- A path from the root of all crates. -/
def rootedPath (ns : List String) : Node := .form .path (op "::" :: names ns)

/-- A call. -/
def call (f : Node) (args : List Node) : Node := .form .call [f, .group .paren args]

/-- A method call. -/
def methodCall (receiver : Node) (name : String) (args : List Node) : Node :=
  .form .methodCall [receiver, op ".", word name, absent, .group .paren args]

/-- A reference to an expression. -/
def reference (e : Node) : Node := .form .reference [op "&", absent, e]

/-- A reference that can be written through. -/
def mutableReference (e : Node) : Node := .form .reference [op "&", word "mut", e]

/-- A string literal of a given value. -/
def stringLiteral (s : String) : Node := .leaf (.literal (Text.stringLiteral s.toList))

/-- A pattern that binds a name. -/
def binder (isMutable : Bool) (name : String) : Node :=
  .form .identPattern [absent, if isMutable then word "mut" else absent, word name, absent]

/-- An expression as a statement. -/
def statement (e : Node) : Node := .form .exprStmt [e, op ";"]

/-- An expression as the value of a block. -/
def result (e : Node) : Node := .form .exprStmt [e, absent]

end Node

namespace Decl

/-- A function with a calling convention, if one is given, its parameters with their types, its return type
and the statements of its body. -/
def function (convention : Option String) (name : String) (params : List (String × Node))
    (returns : Option Node) (body : List Node) : Decl :=
  let param (p : String × Node) : Node :=
    .form .parameter [.form .attrs [], Node.binder false p.1, .op ":", p.2]
  .plain .fn (some name)
    [.absent, .absent, .absent, .absent,
      match convention with
        | some c => .form .abi [.word "extern", Node.stringLiteral c]
        | none => .absent,
      .word "fn", .word name, .absent, .group .paren (params.map param),
      match returns with
        | some t => .form .returns [.op "->", t]
        | none => .absent,
      .absent, .group .brace body]

end Decl

end SourceGen
