import SourceGen.Build.Module
import SourceGen.Fragment
import SourceGen.GlobalImports
import SourceGen.Load.Library
import SourceGen.Memo

/-!
# The memory of a pipeline

Every stage of a pass has a memo cell that lives as long as the pipeline. The cell of a stage is keyed by all
that the stage looks at, up to the equality of its notion: fragments by the tokens of their unit, the module
by fragments, global imports and references, the output by tokens and layout.
-/

namespace SourceGen

/-- What a module is built from. -/
structure ModuleInput where
  fragments : List Fragment
  globals : GlobalImports
  references : List Reference

namespace ModuleInput

instance : BEq ModuleInput where
  beq a b :=
    a.fragments == b.fragments && a.globals == b.globals &&
      Reference.sameList a.references b.references

end ModuleInput

/-- How often the stages answered from memory. -/
structure PipelineStats where
  fragments : StageStats
  globals : StageStats
  module : StageStats
  load : StageStats
  dispatch : StageStats
deriving DecidableEq, Repr

/-- The cells of a pipeline, keyed by summaries in `δ`. -/
structure PipelineCells (δ γ : Type) where
  /-- The fragments of a unit, under its path. -/
  fragments : KeyedMemo (List PathPart) (δ × δ) (List Fragment)
  globals : Memo δ GlobalImports
  module : Memo ModuleInput SyntheticModule
  load : Memo Epoch (LoadOutcome γ)
  output : Memo (δ × δ × Epoch) GenerationOutput
  /-- The epoch of the last build. -/
  epoch : Epoch
  /-- How often a module was asked for generators. -/
  instantiations : Nat

namespace PipelineCells

variable {δ γ : Type}

/-- A pipeline before its first pass. -/
def start : PipelineCells δ γ :=
  ⟨⟨[], .zero⟩, ⟨none, .zero⟩, ⟨none, .zero⟩, ⟨none, .zero⟩, ⟨none, .zero⟩, .start, 0⟩

/-- The counters of all stages. -/
def stats (c : PipelineCells δ γ) : PipelineStats :=
  ⟨c.fragments.stats, c.globals.stats, c.module.stats, c.load.stats, c.output.stats⟩

/-- The module that was built last. -/
def currentModule (c : PipelineCells δ γ) : Option SyntheticModule := c.module.peek

end PipelineCells

end SourceGen
