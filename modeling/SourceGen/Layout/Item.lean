import SourceGen.Layout.Pattern
import SourceGen.Syntax.Text

/-!
# Layout of statements and items

Every statement and item ends its line. Bodies are indented by one level.
-/

namespace SourceGen

namespace Layout

/-! ### Statements -/

/-- The initial value of a local declaration. -/
def initialValue (t : Typesetter) : Node → Layout
  | .form .initial [_, e, otherwise] => do
    text " = "
    neverLine
    t.expr false e
    match otherwise with
    | .form .elseBranch [_, .form .blockExpr [_, .group _ body]] =>
      space
      text "else "
      close
      neverLine
      openAll indentation
      smallBlock t body
    | _ => pure ()
  | _ => return ()

/-- A statement. -/
def statement (t : Typesetter) : Node → Layout
  | .form .letStmt [attrs, _, p, init, _] => do
    outerAttrs t attrs.attrsOf
    openSome 0
    text "let "
    t.pattern p
    initialValue t init
    close
    text ";"
    hardLine
  | .item i => t.item i
  | .form .exprStmt [.raw [], _] => return ()
  | .form .exprStmt [e, semi] => do
    openSome 0
    t.expr true e
    if if semi.isAbsent then e.takesSemicolon else !e.dropsSemicolon then text ";"
    close
    hardLine
  | .form .macroStmt [attrs, call, semi] => do
    outerAttrs t attrs.attrsOf
    macroCall true call
    if call.isBraceMacro && !semi.isAbsent then text ";"
    hardLine
  | _ => impossible

/-! ### Parts of items -/

/-- A visibility and a blank. -/
def visibility : Visibility → Layout
  | .inherited => return ()
  | .pub => text "pub "
  | .restricted _ p => do
    text "pub("
    let isShort := !p.rooted &&
      match p.names with
      | [n] => n == "self" || n == "super" || n == "crate"
      | _ => false
    if !isShort then text "in "
    namePath p
    text ") "

/-- A visibility that is a part of a declaration. -/
def visibilityPart : Node → Layout
  | .form .visibility [_] => text "pub "
  | .form .visibility [_, .group _ parts] => do
    text "pub("
    let names := parts.filter fun
      | .form .path _ => true
      | _ => false
    match names with
    | [.form .path ps] =>
      let isShort := match ps with
        | [.leaf (.word n)] => n == "self" || n == "super" || n == "crate"
        | _ => false
      if !isShort then text "in "
      ps.forM leaf
    | _ => impossible
    text ") "
  | _ => return ()

/-- A field of a data type. -/
def field (t : Typesetter) : Node → Layout
  | .form .namedField [attrs, vis, name, _, ty] => do
    outerAttrs t attrs.attrsOf
    visibilityPart vis
    leaf name
    text ": "
    t.type ty
  | .form .unnamedField [attrs, vis, ty] => do
    outerAttrs t attrs.attrsOf
    visibilityPart vis
    t.type ty
  | _ => impossible

/-- Elements on lines of their own, each with a comma. -/
def commaLines (f : Node → Layout) (parts : List Node) : Layout :=
  (Node.withoutCommas parts).forM fun n => do
    f n
    text ","
    hardLine

/-- Fields without names between round brackets. -/
def tupleFields (t : Typesetter) (parts : List Node) : Layout := do
  text "("
  softLine
  each (fun _ last n => do
    field t n
    trailingComma last) (Node.withoutCommas parts)
  outdent
  text ")"

/-- A variant of an `enum`. -/
def variant (t : Typesetter) : Node → Layout
  | .form .variant [attrs, name, fields, value] | .form .variant [attrs, _, name, fields, value] => do
    outerAttrs t attrs.attrsOf
    leaf name
    match fields with
    | .group .brace parts =>
      text " "
      text "\x7b"
      openAll indentation
      space
      each (fun _ last n => do
        field t n
        trailingCommaOrSpace last) (Node.withoutCommas parts)
      outdent
      close
      text "\x7d"
    | .group _ parts =>
      openAll indentation
      tupleFields t parts
      close
    | _ => pure ()
    match value with
    | .form .initial [_, e] =>
      text " = "
      t.expr false e
    | _ => pure ()
  | _ => impossible

/-- A parameter of a function. -/
def parameter (t : Typesetter) : Node → Layout
  | .form .parameter [attrs, p, _, ty] => do
    outerAttrs t attrs.attrsOf
    t.pattern p
    text ": "
    t.type ty
  | .form .receiver [attrs, amp, life, mutability, _, colon, ty] => do
    outerAttrs t attrs.attrsOf
    if !amp.isAbsent then
      text "&"
      keyword? life
    keyword? mutability
    text "self"
    if !colon.isAbsent then
      text ": "
      t.type ty
  | .form .variadic [attrs, name, _, _] => do
    outerAttrs t attrs.attrsOf
    nameColon t.pattern name
    text "..."
  | _ => impossible

/-- A signature up to its return type: qualifiers, convention, name, generics, parameters. -/
def signature (t : Typesetter) : List Node → Layout
  | [constness, asyncness, qualifier, convention, _, name, params, .group _ args, ret] => do
    keyword? constness
    keyword? asyncness
    keyword? qualifier
    abi convention
    text "fn "
    leaf name
    generics t params
    text "("
    neverLine
    openAll 0
    softLine
    parameters (parameter t) args
    outdent
    close
    text ")"
    openAll (-indentation)
    returns t ret
    close
  | _ => impossible

/-- The rest of a body in braces, from the first line on. -/
def bodyLines (t : Typesetter) (parts : List Node) : Layout := do
  text "\x7b"
  hardLineIfNonempty
  innerAttrs t (Node.innerAttrs parts)
  (Node.afterAttrs parts).forM t.statement
  outdent
  close
  text "\x7d"

/-- A function after its visibility: its signature with `where` clause and body. -/
def function (t : Typesetter) : List Node → Layout
  | [constness, asyncness, qualifier, convention, kw, name, params, args, ret, preds, body] => do
    signature t [constness, asyncness, qualifier, convention, kw, name, params, args, ret]
    match body with
    | .group _ parts =>
      whereLines t false preds
      bodyLines t parts
    | _ =>
      whereLines t true preds
      close
  | _ => impossible

/-- The value of a constant. -/
def constantValue (t : Typesetter) : Node → Layout
  | .form .initial [_, e] => do
    text " = "
    neverLine
    t.expr false e
  | _ => return ()

/-- The type that a type declaration defines. -/
def typeDefinition (t : Typesetter) (ty : Node) : Layout := do
  neverLine
  openSome (-indentation)
  t.type ty
  close

/-! ### Members -/

/-- A member of a trait, an implementation or a foreign block. -/
def member (t : Typesetter) : Node → Layout
  | .item i => t.item i
  | .form .constMember [attrs, vis, defaultness, _, name, _, ty, value, _] => do
    outerAttrs t attrs.attrsOf
    openAll 0
    visibilityPart vis
    keyword? defaultness
    text "const "
    leaf name
    text ": "
    t.type ty
    constantValue t value
    text ";"
    close
    hardLine
  | .form .typeMember [attrs, vis, defaultness, _, name, params, bs, _, value, preds, _] => do
    outerAttrs t attrs.attrsOf
    openAll indentation
    visibilityPart vis
    keyword? defaultness
    text "type "
    leaf name
    generics t params
    each (fun first _ b => do
      if first then text ": "
      else
        space
        text "+ "
      t.bound b) (Node.withoutPluses (bs.parts.drop 1))
    match value with
    | .form .initial [_, ty] =>
      text " = "
      typeDefinition t ty
    | _ => pure ()
    whereInline t true preds
    close
    hardLine
  | .form .foreignType (attrs :: vis :: _ :: name :: params :: _) => do
    outerAttrs t attrs.attrsOf
    openAll 0
    visibilityPart vis
    text "type "
    leaf name
    generics t params
    text ";"
    close
    hardLine
  | .form .macroMember [attrs, call, _] => do
    outerAttrs t attrs.attrsOf
    macroCall true call
    hardLine
  | .form .foreignFn [attrs, vis, constness, asyncness, qualifier, convention, kw, name, params, args, ret,
      preds, semi] => do
    outerAttrs t attrs.attrsOf
    openAll indentation
    visibilityPart vis
    function t [constness, asyncness, qualifier, convention, kw, name, params, args, ret, preds, semi]
    hardLine
  | .form .foreignStatic [attrs, vis, _, mutability, name, _, ty, _] => do
    outerAttrs t attrs.attrsOf
    openAll 0
    visibilityPart vis
    text "static "
    keyword? mutability
    leaf name
    text ": "
    t.type ty
    text ";"
    close
    hardLine
  | _ => impossible

/-- Members between braces, from the opening brace on. -/
def memberLines (t : Typesetter) (attrs : List Attr) (members : List Node) : Layout := do
  text "\x7b"
  hardLineIfNonempty
  innerAttrs t attrs
  members.forM (member t)
  outdent
  close
  text "\x7d"

/-! ### Items -/

/-- Whether a tree is a path that ends with a group. -/
def endsWithGroup : UseTree → Bool
  | .step _ rest => endsWithGroup rest
  | .group _ _ => true
  | _ => false

/-- Whether a tree needs the braces of a group that holds nothing else. -/
def needsBraces : List UseTree → Bool
  | [.leaf name] => name == "self"
  | [.rename name _] => name == "self"
  | [_] => false
  | _ => true

mutual

/-- A use tree. A group of a single tree is written without braces, unless the tree is `self`. -/
def useTree : UseTree → Layout
  | .step name rest => do
    text name
    text "::"
    useTree rest
  | .leaf name => text name
  | .rename name other => do
    text name
    text " as "
    text other
  | .glob => text "*"
  | .group [] _ => text "\x7b\x7d"
  | .group trees _ => do
    if needsBraces trees then
      text "\x7b"
      openAll indentation
      softLine
      openSome 0
      useTrees trees
      close
      trailingComma true
      outdent
      close
      text "\x7d"
    else useTrees trees

/-- The use trees of a group; one that ends with a group of its own ends the line. -/
def useTrees : List UseTree → Layout
  | [] => return ()
  | [u] => useTree u
  | u :: us => do
    useTree u
    text ","
    if endsWithGroup u then hardLine else space
    useTrees us

end

/-- A data type after its visibility. -/
def dataDecl (t : Typesetter) (kind : DataKind) (name : String) (params : Node) : List Node → Layout
  | [preds, fields, latePreds, _] => do
    text kind.keyword
    blank
    text name
    generics t params
    match fields with
    | .group .brace parts =>
      whereLines t false preds
      text "\x7b"
      hardLineIfNonempty
      commaLines (if kind = .enum then variant t else field t) parts
      outdent
      close
      text "\x7d"
    | .group _ parts =>
      tupleFields t parts
      whereLines t true latePreds
      close
    | _ =>
      whereLines t true preds
      close
  | _ => impossible

/-- An implementation after its attributes. -/
def implDecl (t : Typesetter) (attrs : List Attr) (header : List Node) (selfType preds : Node)
    (members : List Node) : Layout :=
  match header with
  | [defaultness, qualifier, _, params, polarity, trait, _] => do
    openSome (-indentation)
    openAll indentation
    keyword? defaultness
    keyword? qualifier
    text "impl"
    generics t params
    close
    blank
    if !trait.isAbsent then
      if !polarity.isAbsent then text "!"
      path t .type trait
      space
      text "for "
    t.type selfType
    close
    whereLines t false preds
    memberLines t (attrs ++ Node.innerAttrs members) (Node.afterAttrs members)
  | _ => impossible

/-- An item of a kind without inner structure. -/
def plainDecl (t : Typesetter) (vis : Visibility) (kind : PlainKind) (name : Option String) :
    List Node → Layout
  | parts =>
    match kind, parts with
    | .fn, _ :: rest => do
      openAll indentation
      visibility vis
      function t rest
    | .method, defaultness :: rest => do
      openAll indentation
      visibility vis
      keyword? defaultness
      function t rest
    | .const, [_, name, _, ty, value, _] => do
      openAll 0
      visibility vis
      text "const "
      leaf name
      text ": "
      t.type ty
      constantValue t value
      text ";"
      close
    | .static, [_, mutability, name, _, ty, value, _] => do
      openAll 0
      visibility vis
      text "static "
      keyword? mutability
      leaf name
      text ": "
      t.type ty
      constantValue t value
      text ";"
      close
    | .typeAlias, [_, name, params, _, preds, .form .initial [_, ty], latePreds, _] => do
      openAll indentation
      visibility vis
      text "type "
      leaf name
      generics t params
      whereInline t false (if preds.isAbsent then latePreds else preds)
      text "= "
      typeDefinition t ty
      text ";"
      close
    | .macroItem, [p, bang, _, .raw [.group d inner], _] =>
      match name, p with
      | some n, .form .path [.leaf (.word "macro_rules")] => macroDefinition n inner
      | some n, .form .path ps => do
        ps.forM leaf
        text "! "
        text n
        macroArgs d inner
        if d ≠ .brace then text ";"
      | none, _ => macroCall true (.form .macroCall [p, bang, .raw [.group d inner]])
      | _, _ => impossible
    | .traitAlias, [_, name, params, _, bs, preds, _] => do
      openAll indentation
      visibility vis
      text "trait "
      leaf name
      generics t params
      text " = "
      neverLine
      each (fun first _ b => do
        if !first then
          space
          text "+ "
        t.bound b) (Node.withoutPluses bs.parts)
      whereLines t true preds
      close
    | .foreignBlock, [qualifier, convention, .group _ members] => do
      openAll indentation
      keyword? qualifier
      abi convention
      memberLines t (Node.innerAttrs members) (Node.afterAttrs members)
    | _, _ => impossible

/-- An item after its outer attributes. -/
def decl (t : Typesetter) (attrs : List Attr) (vis : Visibility) : Decl → Layout
  | .useDecl rooted tree => do
    visibility vis
    text "use "
    if rooted then text "::"
    useTree tree
    text ";"
  | .externCrate name rename => do
    visibility vis
    text "extern crate "
    text name
    match rename with
    | some other =>
      text " as "
      text other
    | none => pure ()
    text ";"
  | .module isUnsafe name items => do
    openAll indentation
    visibility vis
    if isUnsafe then text "unsafe "
    text "mod "
    text name
    match items with
    | some is =>
      text " \x7b"
      hardLineIfNonempty
      innerAttrs t attrs
      is.forM t.item
      outdent
      close
      text "\x7d"
    | none =>
      text ";"
      close
  | .data kind name params body => do
    openAll indentation
    visibility vis
    dataDecl t kind name params body
  | .trait qualifiers name params supers preds members => do
    openAll indentation
    visibility vis
    qualifiers.forM keyword?
    text "trait "
    text name
    generics t params
    inlineBounds t.bound ": " supers
    whereLines t false preds
    memberLines t (attrs.filter (·.inner)) members
  | .impl header selfType preds members => do
    openAll indentation
    implDecl t (attrs.filter (·.inner)) header selfType preds members
  | .plain kind name parts => plainDecl t vis kind name parts
  | .verbatim _ => impossible

/-- An item. -/
def item (t : Typesetter) : Item → Layout
  | .mk attrs vis d => do
    outerAttrs t attrs
    decl t attrs vis d
    hardLine

end Layout

/-- The typesetter for syntax of a bounded nesting. -/
def Typesetter.ofDepth : Nat → Typesetter
  | 0 => .none
  | depth + 1 => {
    type := fun n => Layout.type (ofDepth depth) n
    arguments := fun style n => Layout.arguments (ofDepth depth) style n
    bound := fun n => Layout.bound (ofDepth depth) n
    param := fun n => Layout.param (ofDepth depth) n
    pattern := fun n => Layout.pattern (ofDepth depth) n
    expr := fun atStart n => Layout.expr (ofDepth depth) atStart n
    statement := fun n => Layout.statement (ofDepth depth) n
    item := fun i => Layout.item (ofDepth depth) i }

end SourceGen
