import SourceGen.Layout.Typesetter

/-!
# Layout of paths, types and generics

Lists that do not fit go one element to a line, and lifetimes come first.
-/

namespace SourceGen.Layout

/-- Lifetimes before other elements, each group in its order. -/
def lifetimesFirst (ns : List Node) : List Node :=
  ns.filter isLifetime ++ ns.filter (!isLifetime ·)
where
  /-- Whether an element is a lifetime. -/
  isLifetime : Node → Bool
    | .leaf (.lifetime _) => true
    | .form .lifetimeParam _ => true
    | _ => false

/-- The parts between the angle brackets of a list. -/
def betweenAngles (parts : List Node) : List Node :=
  Node.withoutCommas ((parts.dropWhile (!·.isOp "<")).drop 1).dropLast

/-- A return type, if there is one. -/
def returns (t : Typesetter) : Node → Layout
  | .form .returns [_, ty] => do
    text " -> "
    t.type ty
  | _ => return ()

/-- The parts after the opening of a list whose elements may go one to a line, up to its closing. -/
def listBetween (f : Node → Layout) (ns : List Node) : Layout := do
  openAll indentation
  softLine
  each (fun _ last n => do f n; trailingComma last) ns
  outdent
  close

/-- Bounds after a colon, on one line. -/
def inlineBounds (bound : Node → Layout) (mark : String) : Node → Layout
  | .form .bounded (_ :: bs) =>
    each (fun first _ b => do
      text (if first then mark else " + ")
      bound b) (Node.withoutPluses bs)
  | .form .bounds bs =>
    each (fun first _ b => do
      text (if first then mark else " + ")
      bound b) (Node.withoutPluses bs)
  | _ => return ()

/-- A generic argument. -/
def argument (t : Typesetter) : Node → Layout
  | .leaf (.lifetime s) => text s
  | .leaf (.literal s) => text s
  | .form .blockExpr parts => t.expr false (.form .blockExpr parts)
  | .form .assocType [name, args, _, ty] => do
    leaf name
    t.arguments .type args
    text " = "
    t.type ty
  | .form .assocConst [name, args, _, value] => do
    leaf name
    t.arguments .type args
    text " = "
    t.expr false value
  | .form .constraint [name, args, _, bs] => do
    leaf name
    t.arguments .type args
    openSome indentation
    each (fun first _ b => do
      if first then text ": "
      else
        space
        text "+ "
      t.bound b) (Node.withoutPluses bs.parts)
    close
  | n => t.type n

/-- The arguments of a segment of a path, in angle or in round brackets. -/
def arguments (t : Typesetter) (style : PathStyle) : Node → Layout
  | .form .angled parts => do
    let args := betweenAngles parts
    if args.isEmpty || style = .plain then return ()
    if style = .expr then text "::"
    text "<"
    listBetween (argument t) (lifetimesFirst args)
    text ">"
  | .form .parenArgs [_, .group d types, ret] => arguments t style (.form .parenArgs [.group d types, ret])
  | .form .parenArgs [.group _ types, ret] => do
    openAll indentation
    text "("
    softLine
    each (fun _ last n => do t.type n; trailingComma last) (Node.withoutCommas types)
    outdent
    text ")"
    returns t ret
    close
  | .form .absent _ => return ()
  | _ => impossible

/-- A segment of a path. -/
def segment (t : Typesetter) (style : PathStyle) : Node → Layout
  | .form .segment [name, args] | .form .segment [name, _, args] => do
    leaf name
    t.arguments style args
  | n => leaf n

/-- A path without qualification. -/
def plainPath (t : Typesetter) (style : PathStyle) : Node → Layout
  | .form .path parts => parts.forM (segment t style)
  | _ => impossible

/-- A binder of lifetimes, if there is one. -/
def forLifetimes (t : Typesetter) : Node → Layout
  | .form .forLifetimes parts => do
    text "for<"
    each (fun first _ p => do
      if !first then text ", "
      t.param p) (betweenAngles parts)
    text "> "
  | _ => return ()

/-- A bound of a type parameter. -/
def bound (t : Typesetter) : Node → Layout
  | .leaf (.lifetime s) => text s
  | .form .parenBound [.group _ [b]] => do
    text "("
    t.bound b
    text ")"
  | .form .kept [_, b, _] => t.bound b
  | .form .traitBound [binder, modifier, p] => do
    forLifetimes t binder
    if modifier.isOp "?" then text "?"
    plainPath t .type p
  | .form .preciseCapture parts => do
    text "use<"
    each (fun first _ p => do
      if !first then text ", "
      leaf p) (betweenAngles parts)
    text ">"
  | _ => impossible

/-- A generic parameter. -/
def param (t : Typesetter) : Node → Layout
  | .form .lifetimeParam [attrs, name, bs] => do
    outerAttrs t attrs.attrsOf
    leaf name
    inlineBounds leaf ": " bs
  | .form .typeParam [attrs, name, bs, default] => do
    outerAttrs t attrs.attrsOf
    leaf name
    openSome indentation
    each (fun first _ b => do
      if first then text ": "
      else
        space
        text "+ "
      t.bound b) (Node.withoutPluses (bs.parts.drop 1))
    match default with
    | .form .initial [_, ty] =>
      space
      text "= "
      t.type ty
    | _ => pure ()
    close
  | .form .constParam [attrs, _, name, _, ty, default] => do
    outerAttrs t attrs.attrsOf
    text "const "
    leaf name
    text ": "
    t.type ty
    match default with
    | .form .initial [_, value] =>
      text " = "
      t.expr false value
    | _ => pure ()
  | _ => impossible

/-- A path. -/
def path (t : Typesetter) (style : PathStyle) : Node → Layout
  | .form .qualifiedPath (_ :: this :: as :: _ :: rest) => do
    text "<"
    t.type this
    match as with
    | .form .asTrait [_, p] =>
      text " as "
      plainPath t .type p
    | _ => pure ()
    text ">"
    rest.forM (segment t style)
  | p => plainPath t style p

/-- Generic parameters, if there are any. -/
def generics (t : Typesetter) (n : Node) : Layout := do
  let params := betweenAngles n.parts
  if params.isEmpty then return ()
  text "<"
  openAll 0
  softLine
  each (fun _ last p => do t.param p; trailingComma last) (lifetimesFirst params)
  outdent
  close
  text ">"

/-- The bounds of a predicate, in a group that breaks where needed. -/
def predicateBounds (bound : Node → Layout) (offset : Int) (bs : List Node) : Layout := do
  text ":"
  openSome offset
  each (fun first _ b => do
    if first then blank
    else
      space
      text "+ "
    bound b) bs
  close

/-- A predicate of a `where` clause. -/
def wherePredicate (t : Typesetter) : Node → Layout
  | .form .wherePredicate [binder, subject, _, bs] => do
    let bs := Node.withoutPluses bs.parts
    match subject with
    | .leaf (.lifetime s) =>
      text s
      predicateBounds leaf indentation bs
    | _ =>
      forLifetimes t binder
      t.type subject
      predicateBounds t.bound (if bs.length = 1 then 0 else indentation) bs
  | _ => impossible

/-- The predicates of a `where` clause. -/
def predicates (n : Node) : List Node := Node.withoutCommas (n.parts.drop 1)

/-- A `where` clause on lines of its own. Without predicates there is only what follows it: a blank, or a
semicolon. -/
def whereLines (t : Typesetter) (semicolon : Bool) (n : Node) : Layout := do
  let ps := predicates n
  if ps.isEmpty then
    if semicolon then text ";" else blank
  else
    hardLine
    outdent
    text "where"
    hardLine
    each (fun _ last p => do
      wherePredicate t p
      if last && semicolon then text ";"
      else
        text ","
        hardLine) ps
    if !semicolon then outdent

/-- A `where` clause on the line it starts on, if it fits. -/
def whereInline (t : Typesetter) (semicolon : Bool) (n : Node) : Layout := do
  let ps := predicates n
  if ps.isEmpty then
    if semicolon then text ";" else blank
  else
    space
    outdent
    text "where"
    space
    each (fun _ last p => do
      wherePredicate t p
      if last && semicolon then text ";" else trailingCommaOrSpace last) ps
    if !semicolon then outdent

/-- A calling convention and a blank, if there is one. -/
def abi : Node → Layout
  | .form .abi [_, name] => do
    text "extern "
    keyword? name
  | _ => return ()

/-- A name and a colon, if they are there. -/
def nameColon (f : Node → Layout) : Node → Layout
  | .form .nameColon [name, _] => do
    f name
    text ": "
  | _ => return ()

/-- A parameter of a function type. -/
def bareArg (t : Typesetter) : Node → Layout
  | .form .bareArg [attrs, name, ty] => do
    outerAttrs t attrs.attrsOf
    nameColon leaf name
    t.type ty
  | .form .variadic [attrs, name, _, _] => do
    outerAttrs t attrs.attrsOf
    nameColon leaf name
    text "..."
  | _ => impossible

/-- Whether a parameter stands for any number of arguments. -/
def isVariadic : Node → Bool
  | .form .variadic _ => true
  | _ => false

/-- Parameters, of which the last one may stand for any number of arguments. -/
def parameters (f : Node → Layout) (parts : List Node) : Layout :=
  each (fun _ last p => do
    f p
    if isVariadic p then softLine else trailingComma last) (Node.withoutCommas parts)

/-- A type. -/
def type (t : Typesetter) : Node → Layout
  | .form .arrayType [.group _ [elem, _, length]] => do
    text "["
    t.type elem
    text "; "
    t.expr false length
    text "]"
  | .form .sliceType [.group _ [elem]] => do
    text "["
    t.type elem
    text "]"
  | .form .fnType [binder, qualifier, convention, _, .group _ args, ret] => do
    forLifetimes t binder
    keyword? qualifier
    abi convention
    text "fn("
    openAll indentation
    softLine
    parameters (bareArg t) args
    outdent
    close
    text ")"
    returns t ret
  | .form .implTrait [_, bs] => do
    text "impl "
    inlineBounds t.bound "" bs
  | .form .infer _ => text "_"
  | .form .never _ => text "!"
  | .form .paren [.group _ [ty]] => do
    text "("
    t.type ty
    text ")"
  | .form .pointer [_, mutability, ty] => do
    text "*"
    keyword? mutability
    t.type ty
  | .form .refType [_, life, mutability, ty] => do
    text "&"
    keyword? life
    keyword? mutability
    t.type ty
  | .form .traitObject [_, bs] => do
    text "dyn "
    inlineBounds t.bound "" bs
  | .form .tuple [.group _ elems] => do
    text "("
    tupleElements t.type true elems
    text ")"
  | .form .macroCall parts => macroCall false (.form .macroCall parts)
  | .form .kept [_, ty] => t.type ty
  | n => path t .type n

end SourceGen.Layout
