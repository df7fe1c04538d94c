import SourceGen.Proofs.Pipeline.Stages

/-!
# What a pass can do

One relation for each stage that has a choice says all that the stage can do to the cells of a pipeline: answer
from memory, or do its work and remember it (`ModuleStep`, `LoadStep`, `OutputStep`). A pass over a program whose
markers are known takes one step of each stage in turn (`Completed`), or stops after the first of them (`Stopped`).
`PassCall.run_steps` says that a call of a pipeline does one or the other, from any cells and on any host, unless it
does not begin.
-/

namespace SourceGen

open SourceGen.Pass

variable {δ γ β : Type}

namespace PipelineCells

section Collecting

variable [Digest δ] [BEq δ] (c : PipelineCells δ γ) (config : Config) (m : Model)

/-- The cells after the fragments of a program were collected. -/
def withFragments : PipelineCells δ γ :=
  let references : δ := referencesFingerprint (referenceSet config m.program)
  let memo := (collectFrom m references 0 c.fragments m.program.units).2
  { c with fragments := memo.retain (m.program.units.map unitKey) }

/-- The cells after the fragments and the global imports of a program were collected. -/
def collected : PipelineCells δ γ :=
  { c.withFragments config m with
    globals := (c.globals.getOrCompute m.program.fingerprint fun _ => .ofProgram m.program).2 }

end Collecting

/-- The cells when a build begins: the epoch is that of the build, and the module still the one before. -/
def building (c : PipelineCells δ γ) : PipelineCells δ γ :=
  { c with module := c.module.miss, epoch := c.epoch.next }

/-- The cells when a build has left a module. -/
def built (c : PipelineCells δ γ) (i : ModuleInput) (m : SyntheticModule) : PipelineCells δ γ :=
  { c with module := c.module.miss.fill i m, epoch := c.epoch.next }

/-- The cells when a module was loaded. -/
def loaded (c : PipelineCells δ γ) (m : SyntheticModule) (outcome : LoadOutcome γ) : PipelineCells δ γ :=
  { c with load := c.load.miss.fill m.epoch outcome }

end PipelineCells

namespace Pass

/-- Whether a host can leave a module when it is asked for the module of an input in an epoch. -/
inductive Builds (h : Host β γ) (e : Epoch) (i : ModuleInput) : SyntheticModule → Prop
  | empty (bare : i.fragments.isEmpty = true) : Builds h e i (.empty e)
  | compiled {crate : AssembledCrate} {s : β} {result : Except BuildError CompileOutput}
      (bare : i.fragments.isEmpty = false) (assembled : assemble i.fragments i.globals = .ok crate)
      (answer : (h.compile (.ofCrate e crate i.references) s).1 = .finished result) :
      Builds h e i (.ofCompilation e crate result)

/-- What the stage of the module can do when it comes to its end. -/
inductive ModuleStep (h : Host β γ) (c : PipelineCells δ γ) (i : ModuleInput) :
    SyntheticModule → PipelineCells δ γ → Prop
  | held {m : SyntheticModule} (known : c.module.held? i = some m) :
      ModuleStep h c i m { c with module := c.module.hit }
  | built {m : SyntheticModule} (new : c.module.held? i = none) (made : Builds h c.epoch.next i m) :
      ModuleStep h c i m (c.built i m)

/-- What the stage of loading can do. -/
inductive LoadStep (h : Host β γ) (c : PipelineCells δ γ) (m : SyntheticModule) :
    LoadOutcome γ → PipelineCells δ γ → Prop
  | held {outcome : LoadOutcome γ} (known : c.load.held? m.epoch = some outcome) :
      LoadStep h c m outcome { c with load := c.load.hit }
  | loaded {s : β} (new : c.load.held? m.epoch = none) :
      LoadStep h c m (h.load m s).1 (c.loaded m (h.load m s).1)

/-- What the stage of the output can do. -/
inductive OutputStep [Digest δ] [BEq δ] [Generator γ] (c : PipelineCells δ γ) (model : Model)
    (m : SyntheticModule) (outcome : LoadOutcome γ) : GenerationOutput → PipelineCells δ γ → Prop
  | held {out : GenerationOutput}
      (known : c.output.held? (model.program.fingerprint, model.program.layout, m.epoch) = some out) :
      OutputStep c model m outcome out { c with output := c.output.hit }
  | dispatched
      (new : c.output.held? (model.program.fingerprint, model.program.layout, m.epoch) = none) :
      OutputStep c model m outcome (outputOf model m outcome)
        { c with
          output := c.output.miss.fill (model.program.fingerprint, model.program.layout, m.epoch)
            (outputOf model m outcome)
          instantiations := c.instantiations + (if outcome.source.isSome then 1 else 0) }

variable [Digest δ] [BEq δ]

/-- A pass over the program of a model that comes to its end, from the cells that it finds to those that it leaves. -/
inductive Completed [Generator γ] (h : Host β γ) (config : Config) (model : Model) (c : PipelineCells δ γ) :
    GenerationOutput → PipelineCells δ γ → Prop
  | intro {m : SyntheticModule} {outcome : LoadOutcome γ} {out : GenerationOutput}
      {c₁ c₂ c₃ : PipelineCells δ γ}
      (module : ModuleStep h (c.collected config model) (c.input config model) m c₁)
      (load : LoadStep h c₁ m outcome c₂) (output : OutputStep c₂ model m outcome out c₃) :
      Completed h config model c out c₃

/-- A pass over the program of a model that stops, from the cells that it finds to those that it leaves. -/
inductive Stopped (h : Host β γ) (config : Config) (model : Model) (c : PipelineCells δ γ) :
    PipelineCells δ γ → Prop
  | afterFragments : Stopped h config model c (c.withFragments config model)
  | afterGlobals : Stopped h config model c (c.collected config model)
  | inBuild (new : (c.collected config model).module.held? (c.input config model) = none) :
      Stopped h config model c (c.collected config model).building
  | afterModule {m : SyntheticModule} {c₁ : PipelineCells δ γ}
      (module : ModuleStep h (c.collected config model) (c.input config model) m c₁) :
      Stopped h config model c c₁
  | afterLoad {m : SyntheticModule} {outcome : LoadOutcome γ} {c₁ c₂ : PipelineCells δ γ}
      (module : ModuleStep h (c.collected config model) (c.input config model) m c₁)
      (load : LoadStep h c₁ m outcome c₂) : Stopped h config model c c₂

/-- A pass over the program of a model, from its first stage on. -/
def ofModel [Generator γ] (h : Host β γ) (config : Config) (model : Model) : PassM δ γ β GenerationOutput := do
  let references := referenceSet config model.program
  let fragments ← fragmentStage model references
  check h
  let globals ← globalStage model.program
  check h
  let m ← moduleStage h ⟨fragments, globals, references⟩
  check h
  let loaded ← loadStage h m
  check h
  outputStage model m loaded

/-- A pass begins if the host has not given up and the markers are known. -/
lemma run_eq [Generator γ] (h : Host β γ) (config : Config) (p : Program) :
    (run h config p : PassM δ γ β _) = check h >>= fun _ =>
      match Model.ofProgram p with
      | .ok model => ofModel h config model
      | .error e => throw (.error e) := by
  unfold run
  cases resolved : Model.ofProgram p with
  | error e => rfl
  | ok model =>
    obtain rfl := Model.program_of_ofProgram resolved
    rfl

variable {h : Host β γ} {config : Config} {c : PipelineCells δ γ}

omit [Digest δ] [BEq δ] in
/-- A build leaves the cells alone and ends with a module that the host can leave, unless it is broken off. -/
lemma buildModule_steps (e : Epoch) (i : ModuleInput) :
    Leads (buildModule h e i : PassM δ γ β _) c (fun m c' => c' = c ∧ Builds h e i m) (· = c) := by
  unfold buildModule
  split
  case isTrue bare => exact leads_pure ⟨rfl, .empty bare⟩
  case isFalse bare =>
    split
    case h_1 f assembled => exact leads_throw rfl
    case h_2 crate assembled =>
      refine .bind (leads_ask fun s => ?_)
      split
      case h_1 result answer => exact leads_pure ⟨rfl, .compiled (Bool.not_eq_true _ ▸ bare) assembled answer⟩
      case h_2 => exact leads_throw rfl

omit [Digest δ] [BEq δ] in
/-- The stage of the module does one of its steps, or a build begins and is broken off. -/
lemma moduleStage_steps (i : ModuleInput) :
    Leads (moduleStage h i : PassM δ γ β _) c (ModuleStep h c i)
      (fun c' => c.module.held? i = none ∧ c' = c.building) := by
  refine .bind (leads_cells ?_)
  cases held : c.module.held? i with
  | some m => exact .bind (leads_change (leads_pure (.held held)))
  | none =>
    refine .bind (leads_change ((buildModule_steps _ i).mono ?_ ?_).bind)
    · rintro m _ ⟨rfl, made⟩
      exact .bind (leads_change (leads_pure (.built held made)))
    · rintro _ rfl
      exact ⟨rfl, rfl⟩

omit [Digest δ] [BEq δ] in
lemma loadStage_steps (m : SyntheticModule) :
    Leads (loadStage h m : PassM δ γ β _) c (LoadStep h c m) (fun _ => False) := by
  refine .bind (leads_cells ?_)
  cases held : c.load.held? m.epoch with
  | some outcome => exact .bind (leads_change (leads_pure (.held held)))
  | none =>
    refine .bind (leads_change (.bind (leads_ask fun s => ?_)))
    exact .bind (leads_change (leads_pure (.loaded held)))

lemma outputStage_steps [Generator γ] (model : Model) (m : SyntheticModule) (outcome : LoadOutcome γ) :
    Leads (outputStage model m outcome : PassM δ γ β _) c (OutputStep c model m outcome)
      (fun _ => False) := by
  refine .bind (leads_cells ?_)
  cases held : c.output.held? (model.program.fingerprint, model.program.layout, m.epoch) with
  | some out =>
    simp only [held]
    exact .bind (leads_change (leads_pure (.held held)))
  | none =>
    simp only [held]
    exact .bind (leads_change (leads_pure (.dispatched held)))

/-- The stage of fragments hands out what the cells have, and leaves it in them. -/
lemma fragmentStage_steps (model : Model) :
    Leads (fragmentStage model (referenceSet config model.program) : PassM δ γ β _) c
      (fun fs c' => fs = (c.input config model).fragments ∧ c' = c.withFragments config model)
      (fun _ => False) := fun _ => ⟨rfl, rfl⟩

lemma globalStage_steps (model : Model) :
    Leads (globalStage model.program : PassM δ γ β _) (c.withFragments config model)
      (fun g c' => g = (c.input config model).globals ∧ c' = c.collected config model)
      (fun _ => False) := fun _ => ⟨rfl, rfl⟩

/-- A pass from any cells, on any host, takes one step of each stage in turn, or stops on its way. -/
lemma leads_steps [Generator γ] (model : Model) :
    Leads (ofModel h config model : PassM δ γ β _) c (Completed h config model c)
      (Stopped h config model c) := by
  refine .bind ((fragmentStage_steps model).mono ?_ fun _ => False.elim)
  rintro _ _ ⟨rfl, rfl⟩
  refine (leads_check h .afterFragments).andThen ?_
  rintro _ _ rfl
  refine .bind ((globalStage_steps model).mono ?_ fun _ => False.elim)
  rintro _ _ ⟨rfl, rfl⟩
  refine (leads_check h .afterGlobals).andThen ?_
  rintro _ _ rfl
  refine .bind ((moduleStage_steps (c.input config model)).mono ?_ ?_)
  · intro m c₁ module
    refine (leads_check h (.afterModule module)).andThen ?_
    rintro _ _ rfl
    refine .bind ((loadStage_steps m).mono ?_ fun _ => False.elim)
    intro outcome c₂ load
    refine (leads_check h (.afterLoad module load)).andThen ?_
    rintro _ _ rfl
    exact (outputStage_steps model m outcome).mono (fun _ _ output => .intro module load output)
      fun _ => False.elim
  · rintro _ ⟨new, rfl⟩
    exact .inBuild new

end Pass

namespace PassCall

variable [Digest δ] [BEq δ] [Generator γ] {h : Host β γ} {config : Config} {k : PassCall β}
  {c : PipelineCells δ γ}

/-- What a call of a pipeline does, by how it ends; a call that does not begin leaves the cells alone. -/
lemma run_steps (h : Host β γ) (config : Config) (k : PassCall β) (c : PipelineCells δ γ) :
    (∃ model out, Model.ofProgram k.program = .ok model ∧ (k.run h config c).1 = .ok out ∧
        Completed h config model c out (k.run h config c).2) ∨
      (∃ e, (k.run h config c).1 = .error e) ∧
        ((k.run h config c).2 = c ∨ ∃ model, Model.ofProgram k.program = .ok model ∧
          Stopped h config model c (k.run h config c).2) := by
  have leads : Leads (Pass.run h config k.program : PassM δ γ β _) c
      (fun out c' => ∃ model, Model.ofProgram k.program = .ok model ∧ Completed h config model c out c')
      (fun c' => c' = c ∨ ∃ model, Model.ofProgram k.program = .ok model ∧ Stopped h config model c c') := by
    rw [run_eq]
    refine (leads_check h (.inl rfl)).andThen ?_
    rintro _ _ rfl
    cases resolved : Model.ofProgram k.program with
    | error e => exact leads_throw (.inl rfl)
    | ok model =>
      exact (leads_steps model).mono (fun _ _ completed => ⟨model, rfl, completed⟩)
        fun _ stopped => .inr ⟨model, rfl, stopped⟩
  have ends := leads k.host
  unfold PassCall.run
  split at ends
  case h_1 out s eq =>
    rw [eq]
    obtain ⟨model, resolved, completed⟩ := ends
    exact .inl ⟨model, out, resolved, rfl, completed⟩
  case h_2 e s eq =>
    rw [eq]
    exact .inr ⟨⟨e, rfl⟩, ends⟩

/-- A call begins if the host has not given up and the markers are known. -/
lemma steps_of_poll (asks : (h.poll k.host).1 = false) {model : Model}
    (resolved : Model.ofProgram k.program = .ok model) :
    (∃ out, Completed h config model c out (k.run h config c).2) ∨
      Stopped h config model c (k.run h config c).2 := by
  have begins : (Pass.run h config k.program : PassM δ γ β _) ⟨c, k.host⟩ =
      Pass.ofModel h config model ⟨c, (h.poll k.host).2⟩ := by
    have checked : (check h : PassM δ γ β Unit) ⟨c, k.host⟩ = (.ok (), ⟨c, (h.poll k.host).2⟩) := by
      have polled : (ask h.poll : PassM δ γ β Bool) ⟨c, k.host⟩ = (.ok (h.poll k.host).1, ⟨c, (h.poll k.host).2⟩) :=
        rfl
      rw [check, bind_apply, polled, asks]
      rfl
    rw [run_eq, resolved, bind_apply, checked]
    rfl
  have leads : Leads (Pass.ofModel h config model : PassM δ γ β _) c (Completed h config model c)
      (Stopped h config model c) := leads_steps model
  have leads := leads (h.poll k.host).2
  unfold PassCall.run
  rw [begins]
  split at leads
  case h_1 out s eq =>
    rw [eq]
    exact .inl ⟨out, leads⟩
  case h_2 e s eq =>
    rw [eq]
    exact .inr leads

end PassCall

end SourceGen
