import SourceGen.Dispatch.Pass

/-!
# Units of work in a row

A unit of work shows one node to one generator. Generators are named by keys, since many units share one and a
generator may change when it is shown a node. A pass does its units node by node.
-/

namespace SourceGen

namespace Generator

variable {γ : Type} [Generator γ]

/-- A generator after it was shown some nodes. -/
def shown (c : Context) (g : γ) : List NodeView → γ
  | [] => g
  | n :: ns => shown c (accept g c n).2 ns

/-- Whether what a generator answers depends on nothing but the context, the node and the answers of the sink:
it does not matter which nodes it was shown before. -/
def Steady (c : Context) (g : γ) : Prop :=
  ∀ before n, (accept (shown c g before) c n).1 = (accept g c n).1 ∧
    produce (shown c g before) c n = produce g c n

end Generator

namespace Dispatch

variable {ι γ : Type} [DecidableEq ι]

/-- The instances after one of them has changed. -/
def replace (insts : ι → PluginInstance γ) (i : ι) (inst : PluginInstance γ) : ι → PluginInstance γ :=
  fun j => if j = i then inst else insts j

/-- The units of some generators and nodes: node by node, and for every node generator by generator. -/
def nodeMajor (keys : List ι) (nodes : List NodeView) : List (ι × NodeView) :=
  nodes.flatMap fun n => keys.map (·, n)

/-- What units of work leave behind: the instances, the sink, and for every unit its report, if it has one. -/
structure UnitsResult (ι γ : Type) where
  insts : ι → PluginInstance γ
  pass : PassSink
  reports : List (Option Diagnostic)

namespace UnitsResult

/-- The reports of those units that have one. -/
def diagnostics (r : UnitsResult ι γ) : List Diagnostic := r.reports.filterMap id

end UnitsResult

/-- Does units of work one after the other. -/
def runUnits [Generator γ] (c : Context) (insts : ι → PluginInstance γ) (pass : PassSink) :
    List (ι × NodeView) → UnitsResult ι γ
  | [] => ⟨insts, pass, []⟩
  | (i, n) :: units =>
    let u := runUnit c pass (insts i) n
    let rest := runUnits c (replace insts i u.inst) u.pass units
    { rest with reports := u.report :: rest.reports }

end Dispatch

end SourceGen
