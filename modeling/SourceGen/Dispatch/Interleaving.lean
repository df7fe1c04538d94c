import SourceGen.Dispatch.Units

/-!
# Units of work under way together

When a pass does its units in parallel, each of them advances by steps that happen at once: the generator is
asked, it starts to produce, it offers one source, the unit publishes or is given up. A schedule says which unit
takes the next step. The reports of a pass stand in the order of its units, whatever the schedule.
-/

namespace SourceGen

/-- How far a unit of work has come. -/
inductive UnitPhase
  | waiting
  | /-- The generator has accepted the node. -/
    accepted
  | producing (sink : UnitSink) (rest : Production)
  | ended (report : Option Diagnostic)

namespace UnitPhase

/-- Whether nothing is left to do. -/
def isEnded : UnitPhase → Bool
  | .ended _ => true
  | _ => false

/-- The report of a unit that has ended with one. -/
def report? : UnitPhase → Option Diagnostic
  | .ended report => report
  | _ => none

end UnitPhase

/-- A unit of work that is under way. -/
structure UnitTask (ι : Type) where
  key : ι
  node : NodeView
  phase : UnitPhase

/-- Units of work that are under way together. -/
structure Interleaving (ι γ : Type) where
  insts : ι → PluginInstance γ
  pass : PassSink
  tasks : List (UnitTask ι)

namespace Interleaving

variable {ι γ : Type}

/-- The units before their first step. -/
def start (insts : ι → PluginInstance γ) (pass : PassSink) (units : List (ι × NodeView)) :
    Interleaving ι γ :=
  ⟨insts, pass, units.map fun (i, n) => ⟨i, n, .waiting⟩⟩

/-- Whether all units have ended. -/
def isDone (s : Interleaving ι γ) : Bool := s.tasks.all (·.phase.isEnded)

/-- The reports of the units, in the order of the units. -/
def reports (s : Interleaving ι γ) : List (Option Diagnostic) := s.tasks.map (·.phase.report?)

/-- What the units that have ended leave behind. -/
def result (s : Interleaving ι γ) : Dispatch.UnitsResult ι γ := ⟨s.insts, s.pass, s.reports⟩

variable [DecidableEq ι] [Generator γ]

/-- The next step of a unit that has not ended: what it leaves of instances and sink, and how far the unit has
come then. -/
def advance (c : Context) (insts : ι → PluginInstance γ) (pass : PassSink) (t : UnitTask ι) :
    (ι → PluginInstance γ) × PassSink × UnitPhase :=
  let inst := insts t.key
  let failed (f : Fault) : UnitPhase :=
    .ended (some (.productionFailure inst.typeName f t.node.location))
  match t.phase with
  | .waiting =>
    let (answer, g) := Generator.accept inst.generator c t.node
    let insts := Dispatch.replace insts t.key { inst with generator := g }
    match answer with
    | .error f => (insts, pass, .ended (some (.filterFailure inst.typeName f t.node.location)))
    | .ok false => (insts, pass, .ended none)
    | .ok true => (insts, pass, .accepted)
  | .accepted =>
    let production := Generator.produce inst.generator c t.node
    (insts, pass, .producing (.new inst.typeName t.node.id) production)
  | .producing u (.offer name text next) =>
    match u.add pass name text with
    | .ok u => (insts, pass, .producing u (next (.ok ())))
    | .error e => (insts, pass, .producing u (next (.error e)))
  | .producing u .done =>
    match u.commit pass with
    | .ok pass => (insts, pass, .ended none)
    | .error f => (insts, pass, failed f)
  | .producing _ (.fault f) => (insts, pass, failed f)
  | .ended report => (insts, pass, .ended report)

/-- Lets the unit at a position take its next step; nothing happens if there is none. -/
def step (c : Context) (s : Interleaving ι γ) (position : Nat) : Interleaving ι γ :=
  match s.tasks[position]? with
  | none => s
  | some t =>
    let (insts, pass, phase) := advance c s.insts s.pass t
    ⟨insts, pass, s.tasks.set position { t with phase := phase }⟩

/-- Lets units take their steps in the order of a schedule. -/
def run (c : Context) (s : Interleaving ι γ) (schedule : List Nat) : Interleaving ι γ :=
  schedule.foldl (step c) s

end Interleaving

end SourceGen
