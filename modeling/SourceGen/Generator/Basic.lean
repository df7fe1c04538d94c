import SourceGen.Generator.Guard
import SourceGen.View.Context

/-!
# Generators

A generator is told about the program before a pass, is asked about every node, and produces sources for the
nodes it accepts. What it produces depends on how its offers are answered, since a name can be taken.
-/

namespace SourceGen

/-- What is left of a call that produces sources. -/
inductive Production
  | done
  | fault (f : Fault)
  | /-- Offers a source, and goes on from the answer. -/
    offer (name text : String) (next : Except GeneratorError Unit → Production)

/-- The contract of generators, as seen through their guard. A generator is a value of `γ`; a call may change
it, but for `produce`. -/
class Generator (γ : Type) where
  prepare : γ → Context → Except Fault γ
  accept : γ → Context → NodeView → Except Fault Bool × γ
  produce : γ → Context → NodeView → Production

/-- What is found out about a type that a module offers. -/
inductive CandidateShape (γ : Type)
  | /-- A generator, made by the constructor of the type. -/
    generator (g : γ)
  | /-- The type is a generator, but nothing makes values of it. -/
    missingConstructor
  | constructionFailed (f : Fault)
  | notAGenerator

/-- An offered type. -/
structure Candidate (γ : Type) where
  typeName : String
  shape : CandidateShape γ

/-- What the probe of a type can see: whether it is a generator, and the code that makes a value of it. -/
structure ProbedType (γ : Type) where
  typeName : String
  isGenerator : Bool
  construct : Option (Code γ)

namespace ProbedType

/-- The best that can be said of a type. -/
def describe {γ : Type} (t : ProbedType γ) : Candidate γ where
  typeName := t.typeName
  shape :=
    match t.isGenerator, t.construct with
    | true, some c =>
      match c.result with
      | .ok g => .generator g
      | .error f => .constructionFailed f
    | true, none => .missingConstructor
    | false, _ => .notAGenerator

end ProbedType

namespace CandidateShape

/-- The text of a shape. -/
def text {γ : Type} : CandidateShape γ → String
  | .generator _ => "Generator(..)"
  | .missingConstructor => "MissingConstructor"
  | .constructionFailed f => "ConstructionFailed(" ++ f.text ++ ")"
  | .notAGenerator => "NotAGenerator"

end CandidateShape

end SourceGen
