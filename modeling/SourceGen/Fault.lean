/-!
# Faults

Generators are foreign code. What goes wrong in a call of one becomes a fault: what kind of failure it was,
where it came from, and its message.
-/

namespace SourceGen

/-- An error that a generator returns. -/
inductive GeneratorError
  | /-- A source of that name exists already. -/
    duplicateSource (name : String)
  | unsupportedNode (node : String)
  | message (text : String)
deriving DecidableEq, Repr

namespace GeneratorError

/-- The kind of the error. -/
def category : GeneratorError → String
  | .duplicateSource _ => "DuplicateSource"
  | .unsupportedNode _ => "UnsupportedNode"
  | .message _ => "Message"

/-- The text of the error. -/
def text : GeneratorError → String
  | .duplicateSource name => "a source named `" ++ name ++ "` was already produced in this pass"
  | .unsupportedNode node => "node " ++ node ++ " is not supported by this generator"
  | .message text => text

end GeneratorError

/-- A captured failure. -/
structure Fault where
  category : String
  trace : String
  message : String
deriving DecidableEq, Repr

namespace Fault

/-- The fault of a returned error. -/
def ofError (e : GeneratorError) : Fault := ⟨e.category, "<returned error>", e.text⟩

/-- The text of a fault. -/
def text (f : Fault) : String := f.category ++ ": " ++ f.message

end Fault

/-- The text of an error and those of its causes, the nearest first. -/
structure ErrorChain where
  text : String
  causes : List String
deriving DecidableEq, Repr

namespace ErrorChain

/-- An error that has no cause of its own. -/
def ofText (text : String) : ErrorChain := ⟨text, []⟩

/-- The error behind another one, as its causes. -/
def asCauses (e : ErrorChain) : List String := e.text :: e.causes

/-- The fault of an error: its trace is the causes. -/
def fault (category : String) (e : ErrorChain) : Fault :=
  ⟨category, if e.causes.isEmpty then "<none>" else " <- ".intercalate e.causes, e.text⟩

end ErrorChain

end SourceGen
