import SourceGen.Build.Epoch
import SourceGen.Diagnostic.Basic
import SourceGen.Dispatch.Sink
import SourceGen.Generator.Basic

/-!
# Dispatch

One pass of generators over the nodes of a program. All generators are prepared first. Then every node is
shown to every generator that is ready, node by node, and each such pair is a unit of work with a sink of its
own. A fault costs the unit in which it happens, or the generator if it happens before the first node, and is
reported; nothing else changes because of it.
-/

namespace SourceGen

/-- A generator of a module, with the name of its type and the epoch of the module. -/
structure PluginInstance (γ : Type) where
  typeName : String
  epoch : Epoch
  generator : γ

/-- What a pass leaves behind. -/
structure GenerationOutput where
  /-- The sources, in the order of their names. -/
  sources : List GeneratedSource
  diagnostics : List Diagnostic
deriving DecidableEq, Repr

namespace GenerationOutput

/-- The source of a given name. -/
def source? (o : GenerationOutput) (name : String) : Option GeneratedSource :=
  o.sources.find? (·.name = name)

/-- Whether an error is among the diagnostics. -/
def hasErrors (o : GenerationOutput) : Bool := o.diagnostics.any (·.isError)

end GenerationOutput

/-- What a generator is called for. Nodes are named by their numbers. -/
inductive CallKind
  | prepare
  | accept (node : Nat)
  | produce (node : Nat)
deriving DecidableEq, Repr

/-- A call of a generator, by the position of the instance in the list that was handed in. -/
structure GeneratorCall where
  index : Nat
  kind : CallKind
deriving DecidableEq, Repr

namespace PluginInstance

variable {γ : Type} [Generator γ]

/-! A pass calls generators by the following three functions only. Each puts its call on record, and whoever
uses one hands the record on. -/

/-- Calls a generator to prepare. -/
def prepare (c : Context) (i : PluginInstance γ) : Except Fault γ × List CallKind :=
  (Generator.prepare i.generator c, [.prepare])

/-- Calls a generator to accept or decline a node, which may change the generator. -/
def accept (c : Context) (i : PluginInstance γ) (n : NodeView) : (Except Fault Bool × γ) × List CallKind :=
  (Generator.accept i.generator c n, [.accept n.id])

/-- Calls a generator to produce sources for a node. -/
def produce (c : Context) (i : PluginInstance γ) (n : NodeView) : Production × List CallKind :=
  (Generator.produce i.generator c n, [.produce n.id])

end PluginInstance

namespace Production

/-- Carries on with a production until it ends, against the sink of its unit. -/
def run (pass : PassSink) (u : UnitSink) : Production → Except Fault UnitSink
  | .done => .ok u
  | .fault f => .error f
  | .offer name text next =>
    match u.add pass name text with
    | .ok u => run pass u (next (.ok ()))
    | .error e => run pass u (next (.error e))

end Production

namespace Dispatch

variable {γ : Type} [Generator γ]

/-- Produces the sources of a unit of work and publishes them. -/
def produceUnit (c : Context) (pass : PassSink) (i : PluginInstance γ) (n : NodeView) :
    Except Fault PassSink × List CallKind :=
  let (production, calls) := i.produce c n
  let published :=
    match production.run pass (.new i.typeName n.id) with
    | .error f => .error f
    | .ok u => u.commit pass
  (published, calls)

/-- What a unit of work leaves behind: the instance after it, the sink, the report of a fault, and the calls
that were made for it. -/
structure UnitResult (γ : Type) where
  inst : PluginInstance γ
  pass : PassSink
  report : Option Diagnostic
  calls : List CallKind

/-- Does a unit of work. -/
def runUnit (c : Context) (pass : PassSink) (i : PluginInstance γ) (n : NodeView) : UnitResult γ :=
  let ((answer, g), asked) := i.accept c n
  let i := { i with generator := g }
  match answer with
  | .error f => ⟨i, pass, some (.filterFailure i.typeName f n.location), asked⟩
  | .ok false => ⟨i, pass, none, asked⟩
  | .ok true =>
    match produceUnit c pass i n with
    | (.error f, calls) => ⟨i, pass, some (.productionFailure i.typeName f n.location), asked ++ calls⟩
    | (.ok pass, calls) => ⟨i, pass, none, asked ++ calls⟩

/-- A generator that is ready, with its position among those handed in. -/
structure Ready (γ : Type) where
  index : Nat
  inst : PluginInstance γ

/-- Shows a node to one generator after the other. -/
def runNode (c : Context) (n : NodeView) (pass : PassSink) :
    List (Ready γ) → List (Ready γ) × PassSink × List Diagnostic × List GeneratorCall
  | [] => ([], pass, [], [])
  | r :: rs =>
    let u := runUnit c pass r.inst n
    let (rs, pass, reports, calls) := runNode c n u.pass rs
    (⟨r.index, u.inst⟩ :: rs, pass, u.report.toList ++ reports, u.calls.map (⟨r.index, ·⟩) ++ calls)

/-- Shows all nodes, one after the other, to all generators that are ready. -/
def runNodes (c : Context) (pass : PassSink) (rs : List (Ready γ)) :
    List NodeView → PassSink × List Diagnostic × List GeneratorCall
  | [] => (pass, [], [])
  | n :: ns =>
    let (rs, pass, reports, calls) := runNode c n pass rs
    let (pass, moreReports, moreCalls) := runNodes c pass rs ns
    (pass, reports ++ moreReports, calls ++ moreCalls)

/-- Prepares the instances of the current epoch. Those of another epoch are passed over. -/
def prepareAll (c : Context) (epoch : Epoch) (index : Nat) :
    List (PluginInstance γ) → List (Ready γ) × List Diagnostic × List GeneratorCall
  | [] => ([], [], [])
  | i :: is =>
    let (ready, reports, more) := prepareAll c epoch (index + 1) is
    if i.epoch = epoch then
      let (prepared, calls) := i.prepare c
      let calls := calls.map (⟨index, ·⟩) ++ more
      match prepared with
      | .ok g => (⟨index, { i with generator := g }⟩ :: ready, reports, calls)
      | .error f => (ready, .initializationFailure i.typeName f :: reports, calls)
    else (ready, reports, more)

/-- A pass together with the calls it made, in their order. -/
def runTraced (c : Context) (epoch : Epoch) (instances : List (PluginInstance γ)) (nodes : List NodeView) :
    GenerationOutput × List GeneratorCall :=
  let (ready, reports, calls) := prepareAll c epoch 0 instances
  let (pass, moreReports, moreCalls) := runNodes c .empty ready nodes
  (⟨pass.sources, reports ++ moreReports⟩, calls ++ moreCalls)

/-- A pass. -/
def run (c : Context) (epoch : Epoch) (instances : List (PluginInstance γ)) (nodes : List NodeView) :
    GenerationOutput :=
  (runTraced c epoch instances nodes).1

end Dispatch

end SourceGen
