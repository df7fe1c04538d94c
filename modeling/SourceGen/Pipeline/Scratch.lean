import SourceGen.Pipeline.Pass

/-!
# Passes without memory

What a pass comes to if nothing is remembered: the module is built from the program in a given epoch, it
is loaded, and the program is shown to its generators. This is a function of the program and of the epoch
as soon as the compiler and the loader are functions, so it can be held against the calls of a pipeline,
one after the other.
-/

namespace SourceGen

open SourceGen.Pass

variable {δ γ β : Type}

/-- A compiler and a loader whose answers depend on what they are given and on nothing else. -/
structure Backend (γ : Type) where
  compile : CompileRequest → Compilation
  load : SyntheticModule → LoadOutcome γ

/-- Whether a host answers like a compiler and a loader whatever it did before. The compiler does not tell
apart references that are the same. -/
structure Host.Follows (h : Host β γ) (b : Backend γ) : Prop where
  compile : ∀ r s, (h.compile r s).1 = b.compile r
  load : ∀ m s, (h.load m s).1 = b.load m
  same : ∀ name source rs rs', Reference.sameList rs rs' = true →
    b.compile ⟨name, source, rs⟩ = b.compile ⟨name, source, rs'⟩

namespace ModuleInput

/-- What a program has its module built from. -/
def ofModel (config : Config) (m : Model) : ModuleInput :=
  ⟨Fragment.ofModel m, .ofProgram m.program, referenceSet config m.program⟩

/-- The crate that is compiled for an input; without fragments there is none. -/
def crate (i : ModuleInput) : Except AssemblyFault (Option AssembledCrate) :=
  if i.fragments.isEmpty then .ok none else (assemble i.fragments i.globals).map some

end ModuleInput

namespace Backend

/-- The module of an input, built in a given epoch. -/
def build (b : Backend γ) (e : Epoch) (i : ModuleInput) : Except PassStop SyntheticModule :=
  match i.crate with
  | .error f => .error (.unassembled f)
  | .ok none => .ok (.empty e)
  | .ok (some crate) =>
    match b.compile (.ofCrate e crate i.references) with
    | .finished result => .ok (.ofCompilation e crate result)
    | .crashed => .error .crashed

/-- The module of an input together with the output of a program under it. -/
def passFrom [Generator γ] (b : Backend γ) (e : Epoch) (m : Model) (i : ModuleInput) :
    Except PassStop (SyntheticModule × GenerationOutput) :=
  (b.build e i).map fun built => (built, outputOf m built (b.load built))

/-- A pass over a program that remembers nothing and builds in a given epoch. -/
def pass [Generator γ] (b : Backend γ) (config : Config) (e : Epoch) (p : Program) :
    Except PassStop (SyntheticModule × GenerationOutput) :=
  match Model.ofProgram p with
  | .error stop => .error (.error stop)
  | .ok m => b.passFrom e m (.ofModel config m)

end Backend

/-- A call of a pipeline: the program, and the state of the host when the call begins, which decides among
other things whether the pass is given up and where. -/
structure PassCall (β : Type) where
  program : Program
  host : β

section Calls

variable [Digest δ] [BEq δ]

/-- How a call ends on given cells, and the cells that it leaves. -/
def PassCall.run [Generator γ] (k : PassCall β) (h : Host β γ) (config : Config) (c : PipelineCells δ γ) :
    Except PassStop GenerationOutput × PipelineCells δ γ :=
  let (result, s) := Pass.run h config k.program ⟨c, k.host⟩
  (result, s.cells)

namespace PipelineCells

/-- The cells of a pipeline after calls in a row. -/
def after [Generator γ] (h : Host β γ) (config : Config) (ks : List (PassCall β)) : PipelineCells δ γ :=
  ks.foldl (fun c k => (k.run h config c).2) start

/-- What a pass over a program on given cells has its module built from. -/
def input (c : PipelineCells δ γ) (config : Config) (m : Model) : ModuleInput :=
  let references := referenceSet config m.program
  { fragments := (collectFrom m (referencesFingerprint references) 0 c.fragments m.program.units).1
    globals := (c.globals.getOrCompute m.program.fingerprint fun _ => .ofProgram m.program).1
    references := references }

end PipelineCells

end Calls

end SourceGen
