import SourceGen.View.Basic

/-!
# The context of a pass

What generators may ask about the program as a whole: which names it declares, and where.
-/

namespace SourceGen

/-- A declared name. -/
structure Symbol where
  name : String
  kind : NodeKind
  modulePath : List String
  attributes : List AttributeView
  /-- The number of the declaring node. -/
  node : Nat
  location : Location
deriving DecidableEq, Repr

namespace Symbol

/-- The path of the name from the root of the crate. -/
def path (s : Symbol) : String := qualify s.modulePath s.name

/-- Whether the declaration has an attribute called `path`. -/
def hasAttribute (s : Symbol) (path : String) : Bool :=
  s.attributes.any (·.isCalled path)

end Symbol

/-- The declared names of a program. -/
structure Context where
  crateName : String
  symbols : List Symbol
deriving DecidableEq, Repr

namespace Context

open SourceGen.Text

/-- The symbol that a node declares. -/
def symbolFor? (c : Context) (n : NodeView) : Option Symbol :=
  c.symbols.find? (·.node = n.id)

/-- The first declared type of a given path; `crate::` may stand before the path. -/
def findType? (c : Context) (path : String) : Option Symbol :=
  let path := withoutStart "crate::" path
  c.symbols.find? fun s => s.kind.declaresType && s.path == path

/-- The declared types with an attribute called `path`. -/
def typesWithAttribute (c : Context) (path : String) : List Symbol :=
  c.symbols.filter fun s => s.kind.declaresType && s.hasAttribute path

end Context

end SourceGen
