import SourceGen.Dispatch.Sink

/-!
# Units of work side by side

Several units of work share the sink of a pass. Each step below is one that happens at once, so any order of
them is a schedule.
-/

namespace SourceGen

/-- The sink of a pass and the open units of work, by name. -/
structure SinkBoard where
  pass : PassSink
  units : List (String × UnitSink)
deriving DecidableEq, Repr

/-- A step of a unit of work. -/
inductive SinkStep
  | /-- Opens a unit; an open unit of that name is dropped. -/
    start (unit generator : String) (node : Nat)
  | add (unit name text : String)
  | commit (unit : String)
  | drop (unit : String)
  | contains (name : String)
deriving DecidableEq, Repr

/-- What a step answers. -/
inductive SinkAnswer
  | opened
  | closed
  | added (result : Except GeneratorError Unit) (staged : Nat)
  | committed (result : Except Fault Nat)
  | dropped (staged : Option Nat)
  | found (yes : Bool)

namespace SinkBoard

/-- No unit is open and nothing is published. -/
def empty : SinkBoard := ⟨.empty, []⟩

/-- The open unit of a name. -/
def unit? (b : SinkBoard) (name : String) : Option UnitSink :=
  (b.units.find? (·.1 = name)).map (·.2)

/-- Closes the unit of a name. -/
def close (b : SinkBoard) (name : String) : SinkBoard :=
  { b with units := b.units.filter (·.1 ≠ name) }

/-- Opens or changes the unit of a name. -/
def put (b : SinkBoard) (name : String) (u : UnitSink) : SinkBoard :=
  { b with units := (name, u) :: b.units.filter (·.1 ≠ name) }

/-- Takes a step. -/
def step (b : SinkBoard) : SinkStep → SinkAnswer × SinkBoard
  | .start unit generator node => (.opened, b.put unit (.new generator node))
  | .add unit name text =>
    match b.unit? unit with
    | none => (.closed, b)
    | some u =>
      match u.add b.pass name text with
      | .ok u => (.added (.ok ()) u.staged.length, b.put unit u)
      | .error e => (.added (.error e) u.staged.length, b)
  | .commit unit =>
    match b.unit? unit with
    | none => (.closed, b)
    | some u =>
      match u.commit b.pass with
      | .ok pass => (.committed (.ok u.staged.length), { b.close unit with pass := pass })
      | .error f => (.committed (.error f), b.close unit)
  | .drop unit => (.dropped ((b.unit? unit).map (·.staged.length)), b.close unit)
  | .contains name => (.found (b.pass.contains name), b)

/-- Takes steps in a row. -/
def run (b : SinkBoard) : List SinkStep → List SinkAnswer × SinkBoard
  | [] => ([], b)
  | s :: steps =>
    let (a, b) := b.step s
    let (as, b) := b.run steps
    (a :: as, b)

end SinkBoard

end SourceGen
