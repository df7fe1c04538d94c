/-!
# Kinds of declarations

The kinds that generators tell declarations apart by. Struct, enum, union and trait declare types.
-/

namespace SourceGen

/-- The kind of a declaration as generators see it. -/
inductive NodeKind
  | struct
  | enum
  | union
  | trait
  | impl
  | fn
  | /-- A function inside an implementation or a trait. -/
    method
  | module
  | use
  | const
  | static
  | typeAlias
  | macroCall
  | externCrate
  | other
deriving DecidableEq, Repr

namespace NodeKind

/-- All kinds. -/
def all : List NodeKind :=
  [struct, enum, union, trait, impl, fn, method, module, use, const, static, typeAlias, macroCall,
    externCrate, other]

/-- Whether declarations of the kind declare a type. -/
def declaresType : NodeKind → Bool
  | struct | enum | union | trait => true
  | _ => false

/-- Whether named declarations of the kind are symbols. -/
def declaresSymbol : NodeKind → Bool
  | impl | use | macroCall | other => false
  | _ => true

/-- The words that introduce a declaration of the kind. -/
def keyword : NodeKind → Option String
  | struct => some "struct"
  | enum => some "enum"
  | union => some "union"
  | trait => some "trait"
  | impl => some "impl"
  | fn | method => some "fn"
  | module => some "mod"
  | use => some "use"
  | const => some "const"
  | static => some "static"
  | typeAlias => some "type"
  | externCrate => some "extern crate"
  | macroCall | other => none

/-- The name of the kind. -/
def name : NodeKind → String
  | struct => "Struct"
  | enum => "Enum"
  | union => "Union"
  | trait => "Trait"
  | impl => "Impl"
  | fn => "Fn"
  | method => "Method"
  | module => "Mod"
  | use => "Use"
  | const => "Const"
  | static => "Static"
  | typeAlias => "TypeAlias"
  | macroCall => "Macro"
  | externCrate => "ExternCrate"
  | other => "Other"

/-- The kind of a given name. -/
def ofName? (s : String) : Option NodeKind :=
  all.find? (·.name = s)

end NodeKind

end SourceGen
