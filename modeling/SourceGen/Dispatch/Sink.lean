import SourceGen.Fault

/-!
# Sinks

Sources are staged by the unit of work that produces them, and published together when it is done. A name is
published once: a unit cannot stage a name that is taken, and a unit whose names were taken meanwhile
publishes nothing.
-/

namespace SourceGen

/-- A source that a generator produced for a node. -/
structure GeneratedSource where
  name : String
  text : String
  /-- The type of the generator. -/
  generator : String
  node : Nat
deriving DecidableEq, Repr

/-- The published sources of a pass, in the order of their names. -/
structure PassSink where
  sources : List GeneratedSource
deriving DecidableEq, Repr

/-- The staged sources of one unit of work, in the order in which they came. -/
structure UnitSink where
  generator : String
  node : Nat
  staged : List (String × String)
deriving DecidableEq, Repr

namespace PassSink

/-- Nothing is published. -/
def empty : PassSink := ⟨[]⟩

/-- Whether a name is published. -/
def contains (p : PassSink) (name : String) : Bool :=
  p.sources.any (·.name = name)

/-- Puts a source into a list that is ordered by names; a source of the same name gives way. -/
def insertByName (s : GeneratedSource) : List GeneratedSource → List GeneratedSource
  | [] => [s]
  | t :: ts =>
    if s.name < t.name then s :: t :: ts
    else if s.name = t.name then s :: ts
    else t :: insertByName s ts

/-- Publishes one source. -/
def publish (p : PassSink) (s : GeneratedSource) : PassSink :=
  ⟨insertByName s p.sources⟩

end PassSink

namespace UnitSink

/-- A unit of work that has staged nothing. -/
def new (generator : String) (node : Nat) : UnitSink := ⟨generator, node, []⟩

/-- Whether a name is staged. -/
def stages (u : UnitSink) (name : String) : Bool :=
  u.staged.any (·.1 = name)

/-- Stages a source, unless its name is taken. -/
def add (u : UnitSink) (p : PassSink) (name text : String) : Except GeneratorError UnitSink :=
  if u.stages name || p.contains name then .error (.duplicateSource name)
  else .ok { u with staged := u.staged ++ [(name, text)] }

/-- The fault of a unit that cannot publish because of a name. -/
def conflict (name : String) : Fault :=
  let e := GeneratorError.duplicateSource name
  ⟨e.category, "<commit>", e.text⟩

/-- The staged sources as they will be published. -/
def toSources (u : UnitSink) : List GeneratedSource :=
  u.staged.map fun (name, text) => ⟨name, text, u.generator, u.node⟩

/-- Publishes all staged sources, or nothing if one of the names is published already. -/
def commit (u : UnitSink) (p : PassSink) : Except Fault PassSink :=
  match u.staged.find? fun (name, _) => p.contains name with
  | some (name, _) => .error (conflict name)
  | none => .ok (u.toSources.foldl PassSink.publish p)

end UnitSink

end SourceGen
