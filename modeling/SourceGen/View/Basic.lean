import SourceGen.Text.Split
import SourceGen.View.Kind

/-!
# Nodes as generators see them

Generators never touch syntax trees. They get every declaration of the program as plain data: its kind,
its name, its attributes with everything their paths may mean, its tokens as text and its place.
-/

namespace SourceGen

open SourceGen.Text

/-- A place in a file of the program; line and column count from one. -/
structure Location where
  file : String
  line : Nat
  column : Nat
deriving DecidableEq, Repr

namespace Location

/-- The text of a place. -/
def text (l : Location) : String :=
  l.file ++ ":" ++ toString l.line ++ ":" ++ toString l.column

end Location

/-- The path of a name declared in a module; the root module leaves no trace. -/
def qualify (modulePath : List String) (name : String) : String :=
  if modulePath.isEmpty then name else joinPath modulePath ++ "::" ++ name

/-- An outer attribute. -/
structure AttributeView where
  /-- The path as written. -/
  path : String
  /-- What the path may mean, best first. -/
  resolved : List String
  /-- The tokens of the attribute. -/
  tokens : String
deriving DecidableEq, Repr

namespace AttributeView

/-- Whether `::` occurs in a text. -/
def hasSeparator : List Char → Bool
  | ':' :: ':' :: _ => true
  | _ :: rest => hasSeparator rest
  | [] => false

/-- The text before the first `::`. -/
def beforeSeparator : List Char → List Char
  | ':' :: ':' :: _ => []
  | c :: rest => c :: beforeSeparator rest
  | [] => []

/-- The last segment of a path. -/
def lastSegment (path : List Char) : List Char :=
  (beforeSeparator path.reverse).reverse

/-- Whether the attribute is called `path`: as written, by one of its meanings, or, for a single name, by
the last segment as written. -/
def isCalled (a : AttributeView) (path : String) : Bool :=
  a.path == path || a.resolved.contains path ||
    (!hasSeparator path.toList && lastSegment a.path.toList == path.toList)

end AttributeView

/-- A declaration of the program. Its number is its position in the order of the walk. -/
structure NodeView where
  id : Nat
  kind : NodeKind
  /-- The declared name, if the declaration has one. -/
  name : Option String
  /-- The module around the declaration. -/
  modulePath : List String
  attributes : List AttributeView
  /-- The tokens of the declaration. -/
  source : String
  location : Location
deriving DecidableEq, Repr

namespace NodeView

/-- Whether the declaration has an attribute called `path`. -/
def hasAttribute (n : NodeView) (path : String) : Bool :=
  n.attributes.any (·.isCalled path)

/-- The path of the declared name from the root of the crate. -/
def qualifiedName (n : NodeView) : Option String :=
  n.name.map (qualify n.modulePath)

end NodeView

/-- How the number of a node is written. -/
def nodeLabel (id : Nat) : String := "#" ++ toString id

end SourceGen
