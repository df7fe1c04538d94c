import SourceGen.Config
import SourceGen.Pipeline.Cells
import SourceGen.Program.Crate
import SourceGen.View.Index

/-!
# Passes

A pass takes a program to its generated sources: collect the marked declarations, build them into a module,
load it, and show the program to its generators. A stage whose input has not changed answers from memory.
Between any two stages the host may give up the pass. Then the stages before have done their work, and those
behind have not begun.
-/

namespace SourceGen

/-- How a compilation ends; a crash is one of the compiler, not of the compiled crate. -/
inductive Compilation
  | finished (result : Except BuildError CompileOutput)
  | crashed

/-- What a pass asks of its host, whose own state is a value of `β`. -/
structure Host (β γ : Type) where
  /-- Whether the pass is given up. -/
  poll : β → Bool × β
  compile : CompileRequest → β → Compilation × β
  load : SyntheticModule → β → LoadOutcome γ × β

/-- Why a pass has no output. -/
inductive PassStop
  | error (e : PassError)
  | /-- The generated crate cannot be written. -/
    unassembled (f : AssemblyFault)
  | /-- The compiler crashed. -/
    crashed

/-- The cells of a pipeline and the state of its host. -/
structure PassState (δ γ β : Type) where
  cells : PipelineCells δ γ
  host : β

/-- A step of a pass. A step that stops it leaves what was done until then. -/
abbrev PassM (δ γ β : Type) := ExceptT PassStop (StateM (PassState δ γ β))

namespace Pass

variable {δ γ β : Type}

/-- Looks at the cells. -/
def cells : PassM δ γ β (PipelineCells δ γ) := do return (← get).cells

/-- Changes the cells. -/
def change (f : PipelineCells δ γ → PipelineCells δ γ) : PassM δ γ β Unit :=
  modify fun s => { s with cells := f s.cells }

/-- Lets the host do something. -/
def ask {α : Type} (f : β → α × β) : PassM δ γ β α :=
  modifyGet fun s => let (a, b) := f s.host; (a, { s with host := b })

/-- Stops if the host gave up. -/
def check (h : Host β γ) : PassM δ γ β Unit := do
  if ← ask h.poll then throw (.error .cancelled)

/-- The references of the module: those of the program, and the crate of the contract. -/
def referenceSet (config : Config) (p : Program) : List Reference :=
  if p.references.any (·.name = sdkCrate) then p.references
  else Reference.sortByName (p.references ++ [⟨sdkCrate, .path config.sdkPathText⟩])

/-- The summary of references. -/
def referencesFingerprint [Digest δ] (references : List Reference) : δ :=
  Digest.combine (references.map fun r => Digest.ofText r.manifestEntry)

/-- The key of a unit in the cell of fragments. -/
def unitKey (u : SourceUnit) : List PathPart := SourcePath.parts u.path

/-- The fragments of units, of which the first is at a given position, unit by unit through the cell. -/
def collectFrom [Digest δ] [BEq δ] (m : Model) (references : δ) (index : Nat)
    (memo : KeyedMemo (List PathPart) (δ × δ) (List Fragment)) :
    List SourceUnit → List Fragment × KeyedMemo (List PathPart) (δ × δ) (List Fragment)
  | [] => ([], memo)
  | u :: us =>
    let (found, memo) :=
      memo.getOrCompute (unitKey u) (u.fingerprint, references) fun _ => Fragment.ofUnit m index u
    let (more, memo) := collectFrom m references (index + 1) memo us
    (found ++ more, memo)

/-- Collects the fragments of all units, and forgets units that are gone. -/
def fragmentStage [Digest δ] [BEq δ] (m : Model) (references : List Reference) :
    PassM δ γ β (List Fragment) := do
  let c ← cells
  let (fragments, memo) := collectFrom m (referencesFingerprint references) 0 c.fragments m.program.units
  change fun c => { c with fragments := memo.retain (m.program.units.map unitKey) }
  return fragments

/-- Collects the global imports. -/
def globalStage [Digest δ] [BEq δ] (p : Program) : PassM δ γ β GlobalImports := do
  let c ← cells
  let (globals, memo) := c.globals.getOrCompute p.fingerprint fun _ => .ofProgram p
  change fun c => { c with globals := memo }
  return globals

/-- Builds a module. -/
def buildModule (h : Host β γ) (e : Epoch) (input : ModuleInput) : PassM δ γ β SyntheticModule := do
  if input.fragments.isEmpty then return .empty e
  match assemble input.fragments input.globals with
  | .error f => throw (.unassembled f)
  | .ok crate =>
    match ← ask (h.compile (.ofCrate e crate input.references)) with
    | .finished result => return .ofCompilation e crate result
    | .crashed => throw .crashed

/-- The module of an input, built in a new epoch unless it is remembered. -/
def moduleStage (h : Host β γ) (input : ModuleInput) : PassM δ γ β SyntheticModule := do
  let c ← cells
  match c.module.held? input with
  | some m =>
    change fun c => { c with module := c.module.hit }
    return m
  | none =>
    let epoch := c.epoch.next
    change fun c => { c with module := c.module.miss, epoch := epoch }
    let m ← buildModule h epoch input
    change fun c => { c with module := c.module.fill input m }
    return m

/-- Loads a module, unless it is remembered. -/
def loadStage (h : Host β γ) (m : SyntheticModule) : PassM δ γ β (LoadOutcome γ) := do
  let c ← cells
  match c.load.held? m.epoch with
  | some loaded =>
    change fun c => { c with load := c.load.hit }
    return loaded
  | none =>
    change fun c => { c with load := c.load.miss }
    let loaded ← ask (h.load m)
    change fun c => { c with load := c.load.fill m.epoch loaded }
    return loaded

/-- The output of a program under a loaded module: reports of the module come first, then those of loading,
of making generators and of the dispatch. -/
def outputOf [Generator γ] (model : Model) (m : SyntheticModule) (loaded : LoadOutcome γ) :
    GenerationOutput :=
  let before := m.diagnostics ++ loaded.diagnostics
  match loaded.source with
  | none => ⟨[], before⟩
  | some source =>
    let made := source.instantiate
    let index := NodeIndex.ofModel model
    let dispatched := Dispatch.run index.context m.epoch made.instances index.nodes
    ⟨dispatched.sources, before ++ made.diagnostics ++ dispatched.diagnostics⟩

/-- The output of a program, unless it is remembered. -/
def outputStage [Digest δ] [BEq δ] [Generator γ] (model : Model) (m : SyntheticModule)
    (loaded : LoadOutcome γ) : PassM δ γ β GenerationOutput := do
  let c ← cells
  let key := (model.program.fingerprint, model.program.layout, m.epoch)
  match c.output.held? key with
  | some output =>
    change fun c => { c with output := c.output.hit }
    return output
  | none =>
    let output := outputOf model m loaded
    change fun c =>
      { c with
        output := c.output.miss.fill key output
        instantiations := c.instantiations + (if loaded.source.isSome then 1 else 0) }
    return output

/-- A pass over a program. -/
def run [Digest δ] [BEq δ] [Generator γ] (h : Host β γ) (config : Config) (p : Program) :
    PassM δ γ β GenerationOutput := do
  check h
  let model ← match Model.ofProgram p with
    | .ok model => pure model
    | .error e => throw (.error e)
  let references := referenceSet config p
  let fragments ← fragmentStage model references
  check h
  let globals ← globalStage p
  check h
  let m ← moduleStage h ⟨fragments, globals, references⟩
  check h
  let loaded ← loadStage h m
  check h
  outputStage model m loaded

/-- A pass over a crate on disk. -/
def runCrate [Digest δ] [BEq δ] [Generator γ] (h : Host β γ) (config : Config) (d : Disk)
    (root : String) :
    PassM δ γ β GenerationOutput :=
  match CrateDirectory.load d config root with
  | .ok p => run h config p
  | .error e => throw (.error (.host e))

end Pass

end SourceGen
