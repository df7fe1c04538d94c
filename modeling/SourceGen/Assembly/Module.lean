import SourceGen.Fragment

/-!
# The modules of a generated crate

Fragments are gathered by the module they were taken from. A module of the generated crate holds what its
fragments bring along, each import, attribute and implementation once, and the modules below it in the
order of their names.
-/

namespace SourceGen

/-- A type that is offered as a generator. -/
structure Offer where
  /-- The name of the type in its module. -/
  typeName : String
  /-- Its path from the root of the crate. -/
  label : String
deriving DecidableEq, Repr

/-- What a module of a generated crate holds of its own. -/
structure ModuleContent where
  innerAttrs : List Attr
  imports : List Item
  /-- Declarations and implementations. -/
  items : List Item
  offers : List Offer

namespace ModuleContent

/-- A module without content. -/
def empty : ModuleContent := ⟨[], [], [], []⟩

/-- Adds a value that is not there yet. -/
def addNew {α : Type} [BEq α] (values : List α) (value : α) : List α :=
  if values.contains value then values else values ++ [value]

/-- Adds values that are not there yet. -/
def addAllNew {α : Type} [BEq α] (values : List α) (more : List α) : List α :=
  more.foldl addNew values

/-- Adds what a fragment brings along. -/
def add (c : ModuleContent) (f : Fragment) : ModuleContent where
  innerAttrs := addAllNew c.innerAttrs f.innerAttrs
  imports := addAllNew c.imports f.imports
  items := addAllNew (c.items ++ [f.declaration]) f.impls
  offers := if f.isCandidate then c.offers ++ [⟨f.name, f.path⟩] else c.offers

end ModuleContent

/-- A module of a generated crate with the modules below it. -/
inductive ModuleTree
  | mk (name : String) (content : ModuleContent) (children : List ModuleTree)

namespace ModuleTree

/-- The name of a module. -/
def name : ModuleTree → String
  | .mk name _ _ => name

/-- What a module holds of its own. -/
def content : ModuleTree → ModuleContent
  | .mk _ content _ => content

/-- The modules below a module. -/
def children : ModuleTree → List ModuleTree
  | .mk _ _ children => children

/-- A module without content. -/
def empty (name : String) : ModuleTree := .mk name .empty []

/-- Changes the module of a given name among modules in the order of their names; a missing module is
changed from an empty one. -/
def update (name : String) (f : ModuleTree → ModuleTree) : List ModuleTree → List ModuleTree
  | [] => [f (empty name)]
  | m :: ms =>
    if name = m.name then f m :: ms
    else if name < m.name then f (empty name) :: m :: ms
    else m :: update name f ms

/-- Adds a fragment to the module at a path. -/
def insert (f : Fragment) : List String → ModuleTree → ModuleTree
  | [], .mk name content children => .mk name (content.add f) children
  | step :: path, .mk name content children =>
    .mk name content (update step (insert f path) children)

/-- The modules of fragments. -/
def ofFragments (fs : List Fragment) : ModuleTree :=
  fs.foldl (fun t f => t.insert f f.modulePath) (empty "")

mutual

/-- The paths of the modules that offer types; a module comes before those below it. -/
def offering (path : List String) : ModuleTree → List (List String)
  | .mk _ content children =>
    (if content.offers.isEmpty then [] else [path]) ++ offeringAll path children

/-- The paths of offering modules below a module. -/
def offeringAll (path : List String) : List ModuleTree → List (List String)
  | [] => []
  | m :: ms => m.offering (path ++ [m.name]) ++ offeringAll path ms

end

mutual

/-- The labels of all offered types; a module comes before those below it. -/
def labels : ModuleTree → List String
  | .mk _ content children => content.offers.map (·.label) ++ labelsAll children

/-- The labels of the types offered by several modules. -/
def labelsAll : List ModuleTree → List String
  | [] => []
  | m :: ms => m.labels ++ labelsAll ms

end

mutual

/-- The names of the modules below a module. -/
def namesBelow : ModuleTree → List String
  | .mk _ _ children => namesBelowAll children

/-- The names of several modules and of those below them. -/
def namesBelowAll : List ModuleTree → List String
  | [] => []
  | m :: ms => m.name :: m.namesBelow ++ namesBelowAll ms

end

end ModuleTree

end SourceGen
