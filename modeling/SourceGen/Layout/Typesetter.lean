import SourceGen.Layout.Macro
import SourceGen.Syntax.Shape
import SourceGen.Text.Split
import SourceGen.Text.Unquoted

/-!
# The recursive part of the layout

Types, patterns, expressions and items contain each other. As in the grammar, each layout is written over a
record of the layouts it needs for smaller syntax. This module holds the record and what all layouts share:
lists, attributes and macro calls.
-/

namespace SourceGen

open SourceGen.Text

/-- How much of a path is written, and how its arguments are introduced. -/
inductive PathStyle
  | /-- Names only. -/
    plain
  | /-- Arguments follow the name. -/
    type
  | /-- Arguments follow `::`. -/
    expr
deriving DecidableEq

/-- The layouts that need each other. -/
structure Typesetter where
  type : Node → Layout
  /-- The arguments of a segment of a path. -/
  arguments : PathStyle → Node → Layout
  /-- A bound of a type parameter. -/
  bound : Node → Layout
  /-- A generic parameter. -/
  param : Node → Layout
  pattern : Node → Layout
  /-- An expression; the flag tells whether it stands at the beginning of a line. -/
  expr : Bool → Node → Layout
  /-- A statement. -/
  statement : Node → Layout
  item : Item → Layout

namespace Typesetter

/-- The typesetter without layouts; it stands below the deepest nesting. -/
def none : Typesetter :=
  ⟨fun _ => Layout.impossible, fun _ _ => Layout.impossible, fun _ => Layout.impossible,
    fun _ => Layout.impossible, fun _ => Layout.impossible, fun _ _ => Layout.impossible,
    fun _ => Layout.impossible, fun _ => Layout.impossible⟩

end Typesetter

namespace Node

/-- The parts that are no commas. -/
def withoutCommas (parts : List Node) : List Node := parts.filter (!·.isOp ",")

/-- The parts that are no plus signs. -/
def withoutPluses (parts : List Node) : List Node := parts.filter (!·.isOp "+")

/-- The parts between brackets. -/
def inside : Node → List Node
  | .group _ parts => parts
  | _ => []

/-- The parts of a form. -/
def parts : Node → List Node
  | .form _ parts => parts
  | _ => []

/-- The node without a mark that it was never read. -/
def unmarked : Node → Node
  | .form .phantom [n] => n
  | n => n

/-- The attributes that a part holds. -/
def attrsOf : Node → List Attr
  | .form .attrs parts => parts.filterMap fun
    | .attr a => some a
    | _ => none
  | _ => []

/-- The inner attributes at the start of a body. -/
def innerAttrs (parts : List Node) : List Attr :=
  parts.filterMap fun
    | .attr a => if a.inner then some a else none
    | _ => none

/-- The parts of a body after its attributes. -/
def afterAttrs (parts : List Node) : List Node :=
  parts.filter fun
    | .attr _ => false
    | _ => true

end Node

namespace Layout

/-- The text of a leaf. -/
def leafText : Leaf → String
  | .word s | .lifetime s | .literal s | .op s => s

/-- A leaf. -/
def leaf (n : Node) : Layout :=
  match n.unmarked with
  | .leaf l => text (leafText l)
  | _ => impossible

/-- A word and a blank, if the part is there. -/
def keyword? : Node → Layout
  | .form .absent _ => return ()
  | n => do
    leaf n
    blank

/-- Elements after the opening bracket of a call, a tuple or a parameter list, each on a line of its own if
they do not fit. -/
def elements (f : Node → Layout) (parts : List Node) : Layout := do
  openAll indentation
  softLine
  each (fun _ last n => do f n; trailingComma last) (Node.withoutCommas parts)
  outdent
  close

/-- The elements of a tuple; a single element keeps its comma. -/
def tupleElements (f : Node → Layout) (keepsComma : Bool) (parts : List Node) : Layout := do
  let ns := Node.withoutCommas parts
  openAll indentation
  softLine
  each (fun _ last n => do
    f n
    if ns.length = 1 then
      if keepsComma then text ","
      softLine
    else trailingComma last) ns
  outdent
  close

/-- A path of names. -/
def namePath (p : NamePath) : Layout := do
  if p.rooted then text "::"
  each (fun first _ n => do
    if !first then text "::"
    text n) p.names

/-- A macro call with its path; the flag asks for a semicolon where the brackets need one. -/
def macroCall (semicolon : Bool) : Node → Layout
  | .form .macroCall [p, _, .raw [.group d inner]] => do
    match p with
    | .form .path parts => parts.forM leaf
    | _ => impossible
    text "!"
    macroArgs d inner
    if semicolon && d ≠ .brace then text ";"
  | _ => impossible

/-! ### Attributes -/

/-- The text without blanks at its end. -/
def withoutTrailingBlanks (s : List Char) : List Char :=
  (s.reverse.dropWhile (· = ' ')).reverse

/-- The lines of a text; all but the last one lose the blanks at their ends. -/
def withoutInteriorBlanks (s : List Char) : List Char :=
  let lines := Text.split '\n' s
  List.intercalate ['\n'] (lines.dropLast.map withoutTrailingBlanks ++ lines.drop (lines.length - 1))

/-- Whether block comments in a text are balanced. -/
def commentsBalance (depth : Nat) : List Char → Bool
  | '/' :: '*' :: cs => commentsBalance (depth + 1) cs
  | '*' :: '/' :: cs => if depth = 0 then false else commentsBalance (depth - 1) cs
  | _ :: cs => commentsBalance depth cs
  | [] => depth = 0

/-- Whether a text can stand inside a block comment. -/
def fitsBlockComment (s : List Char) : Bool :=
  commentsBalance 0 s && s.getLast? != some '/'

/-- The text of an attribute `name = "text"`. -/
def attrText? (name : String) (a : Attr) : Option (List Char) :=
  if a.isNamed name then
    match a.args with
    | [_, .leaf (.literal l)] => (unquoted? l).map String.toList
    | _ => none
  else none

/-- Whether a text starts with one of several characters. -/
def startsWithAny (chars : List Char) (s : List Char) : Bool :=
  s.head?.any chars.contains

/-- The comment that an attribute can be written as. -/
def attrComment? (a : Attr) : Option String :=
  match attrText? "doc" a with
  | some s =>
    if !s.contains '\n' && (a.inner || !startsWithAny ['/'] s) then
      some ((if a.inner then "//!" else "///") ++ String.ofList (withoutTrailingBlanks s))
    else if fitsBlockComment s && (a.inner || !startsWithAny ['*', '/'] s) then
      some ((if a.inner then "/*!" else "/**") ++ String.ofList (withoutInteriorBlanks s) ++ "*/")
    else none
  | none =>
    match attrText? "comment" a with
    | some s =>
      if !s.contains '\n' then some ("//" ++ String.ofList (withoutTrailingBlanks s))
      else if fitsBlockComment s && !startsWithAny ['*', '!'] s then
        some ("/*" ++ String.ofList (withoutInteriorBlanks s) ++ "*/")
      else none
    | none => none

/-- What the last token of an attribute was. -/
inductive AttrState
  | word
  | punct
  | trailingComma
deriving DecidableEq

/-- The tokens of an attribute from a state on, and the state after them. `fuel` bounds the number of
tokens and the nesting of groups. -/
def attrTokensFor : Nat → AttrState → List MacroToken → LayoutWriter AttrState
  | 0, _, _ => fun _ => none
  | _, s, [] => return s
  | fuel + 1, s, t :: ts => do
    match t with
    | .word w =>
      if s = .word then space
      text w
      attrTokensFor fuel .word ts
    | .literal l =>
      if s = .word then space
      text l
      attrTokensFor fuel .word ts
    | .punct c _ =>
      if s = .word && c = '=' then blank
      if c = ',' && ts.isEmpty then
        trailingComma true
        attrTokensFor fuel .trailingComma ts
      else
        text c.toString
        if c = '=' then blank else if c = ',' then space
        attrTokensFor fuel .punct ts
    | .group d inner =>
      text d.opening
      if d = .paren then
        openAll indentation
        softLine
      let last ← attrTokensFor fuel .punct (MacroToken.ofTrees inner)
      if d = .paren then
        if last ≠ .trailingComma then softLine
        outdent
        close
      text d.closing
      attrTokensFor fuel .punct ts

/-- The bracketed tokens of an attribute. -/
def attrTokens (trees : List TokenTree) : Layout := do
  let _ ← attrTokensFor (2 * TokenTree.sizeAll trees + 2) .punct (MacroToken.ofTrees trees)

/-- An attribute with what follows it. -/
def attr (t : Typesetter) (a : Attr) : Layout := do
  match attrComment? a with
  | some comment =>
    text comment
    hardLine
  | none =>
    text (if a.inner then "#!" else "#")
    text "["
    namePath a.path
    match a.args with
    | [] => pure ()
    | [.raw trees] => attrTokens trees
    | [_, value] =>
      text " = "
      t.expr false value
    | _ => impossible
    text "]"
    space

/-- The outer attributes among several. -/
def outerAttrs (t : Typesetter) (attrs : List Attr) : Layout :=
  (attrs.filter (!·.inner)).forM (attr t)

/-- The inner attributes among several. -/
def innerAttrs (t : Typesetter) (attrs : List Attr) : Layout :=
  (attrs.filter (·.inner)).forM (attr t)

end Layout

end SourceGen
