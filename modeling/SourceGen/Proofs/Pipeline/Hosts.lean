import SourceGen.Proofs.Pipeline.Steps

/-!
# What a pass asks of its host

A pass asks the compiler only for the module that it builds, in the epoch that it begins for it, and the
loader only for a module that is not loaded yet. So hosts that agree there are one to it (`run_sameOn`). A pass
that answers from memory is then the same on all hosts: nothing is compiled, nothing is loaded.
-/

namespace SourceGen

namespace Pass

variable {δ γ β α α' : Type} {c : PipelineCells δ γ}

/-- Whether two steps do the same on given cells, whatever the state of the host. -/
def SameOn (x y : PassM δ γ β α) (c : PipelineCells δ γ) : Prop := ∀ host, x ⟨c, host⟩ = y ⟨c, host⟩

lemma SameOn.refl (x : PassM δ γ β α) (c : PipelineCells δ γ) : SameOn x x c := fun _ => rfl

/-- Steps go on alike from wherever they lead. -/
lemma SameOn.bind {x y : PassM δ γ β α} {f g : α → PassM δ γ β α'} {good : α → PipelineCells δ γ → Prop}
    {stopped : PipelineCells δ γ → Prop} (same : SameOn x y c) (leads : Leads x c good stopped)
    (next : ∀ a c', good a c' → SameOn (f a) (g a) c') : SameOn (x >>= f) (y >>= g) c := by
  intro host
  have first := leads host
  rw [bind_apply, bind_apply, ← same host]
  split at first
  case h_1 a s eq =>
    rw [eq]
    exact next a s.cells first s.host
  case h_2 e s eq =>
    rw [eq]
    rfl

lemma SameOn.after {x : PassM δ γ β α} {f g : α → PassM δ γ β α'} {good : α → PipelineCells δ γ → Prop}
    {stopped : PipelineCells δ γ → Prop} (leads : Leads x c good stopped)
    (next : ∀ a c', good a c' → SameOn (f a) (g a) c') : SameOn (x >>= f) (x >>= g) c :=
  .bind (.refl x c) leads next

variable {h h' : Host β γ}

lemma SameOn.check {f g : Unit → PassM δ γ β α'} (poll : h.poll = h'.poll) (next : SameOn (f ()) (g ()) c) :
    SameOn (Pass.check h >>= f) (Pass.check h' >>= g) c := by
  have same : (Pass.check h : PassM δ γ β Unit) = Pass.check h' := by rw [Pass.check, Pass.check, poll]
  rw [same]
  have checked : Leads (Pass.check h' : PassM δ γ β Unit) c (fun _ c' => c = c') (fun _ => True) :=
    leads_check h' trivial
  refine .after checked ?_
  rintro _ _ rfl
  exact next

lemma leads_look (c : PipelineCells δ γ) :
    Leads (cells : PassM δ γ β _) c (fun a c' => a = c ∧ c' = c) (fun _ => True) :=
  leads_cells ⟨rfl, rfl⟩

/-- A build asks for one crate, in its epoch. -/
lemma buildModule_sameOn {e : Epoch} {i : ModuleInput}
    (compile : ∀ crate, h.compile (.ofCrate e crate i.references) = h'.compile (.ofCrate e crate i.references)) :
    SameOn (buildModule h e i : PassM δ γ β _) (buildModule h' e i) c := by
  unfold buildModule
  split
  case isTrue => exact .refl _ _
  case isFalse =>
    cases assemble i.fragments i.globals with
    | error f => exact .refl _ _
    | ok crate =>
      simp only [compile]
      exact .refl _ _

/-- The stage of the module asks for a crate in the next epoch, if the module of the input is not remembered. -/
lemma moduleStage_sameOn {i : ModuleInput}
    (compile : c.module.held? i = none → ∀ crate,
      h.compile (.ofCrate c.epoch.next crate i.references) =
        h'.compile (.ofCrate c.epoch.next crate i.references)) :
    SameOn (moduleStage h i : PassM δ γ β _) (moduleStage h' i) c := by
  refine .after (leads_look c) ?_
  rintro _ c ⟨rfl, rfl⟩
  split
  case h_1 => exact .refl _ _
  case h_2 new =>
    have changed (f : PipelineCells δ γ → PipelineCells δ γ) :
        Leads (change f : PassM δ γ β Unit) c (fun _ _ => True) (fun _ => True) := leads_change trivial
    refine .after (changed _) ?_
    rintro _ c' -
    exact (buildModule_sameOn (compile new)).bind (buildModule_steps _ i) fun _ _ _ => .refl _ _

/-- The stage of loading asks for the module, if it is not loaded yet. -/
lemma loadStage_sameOn {m : SyntheticModule} (load : c.load.held? m.epoch = none → h.load m = h'.load m) :
    SameOn (loadStage h m : PassM δ γ β _) (loadStage h' m) c := by
  refine .after (leads_look c) ?_
  rintro _ _ ⟨rfl, rfl⟩
  split
  case h_1 => exact .refl _ _
  case h_2 new =>
    rw [load new]
    exact .refl _ _

/-- A pass is the same on two hosts that give up alike, that compile alike what is not remembered, and that load
alike what is not loaded yet. -/
lemma run_sameOn [Digest δ] [BEq δ] [Generator γ] {config : Config} {p : Program} (poll : h.poll = h'.poll)
    (compile : ∀ model, Model.ofProgram p = .ok model →
      (c.collected config model).module.held? (c.input config model) = none → ∀ crate,
        h.compile (.ofCrate c.epoch.next crate (referenceSet config model.program)) =
          h'.compile (.ofCrate c.epoch.next crate (referenceSet config model.program)))
    (load : ∀ model m c₁, Model.ofProgram p = .ok model →
      ModuleStep h (c.collected config model) (c.input config model) m c₁ →
        c₁.load.held? m.epoch = none → h.load m = h'.load m) :
    SameOn (run h config p : PassM δ γ β _) (run h' config p) c := by
  rw [run_eq, run_eq]
  refine .check poll ?_
  cases resolved : Model.ofProgram p with
  | error e => exact .refl _ _
  | ok model =>
    refine .after (fragmentStage_steps model) ?_
    rintro _ _ ⟨rfl, rfl⟩
    refine .check poll ?_
    refine .after (globalStage_steps model) ?_
    rintro _ _ ⟨rfl, rfl⟩
    refine .check poll ?_
    refine .bind (moduleStage_sameOn (compile model resolved)) (moduleStage_steps (c.input config model)) ?_
    intro m c₁ module
    refine .check poll ?_
    refine .bind (loadStage_sameOn (load model m c₁ resolved module)) (loadStage_steps m) ?_
    intro outcome c₂ _
    exact .check poll (.refl _ _)

end Pass

/-! ### Hosts that count and hosts that never give up -/

namespace Host

variable {β γ : Type}

/-- A host with a count of the checks at which it was asked whether it gives up. -/
def counting (h : Host β γ) : Host (β × Nat) γ where
  poll s := ((h.poll s.1).1, (h.poll s.1).2, s.2 + 1)
  compile r s := ((h.compile r s.1).1, (h.compile r s.1).2, s.2)
  load m s := ((h.load m s.1).1, (h.load m s.1).2, s.2)

/-- A host that does all as before, but never gives up. -/
def steadfast (h : Host β γ) : Host β γ where
  poll s := (false, (h.poll s).2)
  compile := h.compile
  load := h.load

end Host

end SourceGen
