import SourceGen.Proofs.Pipeline.Fragments
import SourceGen.Proofs.Pipeline.Hosts

/-!
# Passes that repeat

A pass that came to its end leaves cells that know what its module was built from. A pass over a program with the
same trees, whatever its texts, finds all of that again: the module and what was loaded come from memory, and
neither the compiler nor the loader is asked for anything (`PipelineCells.reuses_of_sameTrees`).
-/

namespace SourceGen

open SourceGen.Pass

variable {δ γ β : Type}

/-! ### Programs with the same trees -/

/-- Whether units differ in their texts only. -/
structure SourceUnit.SameTree (u v : SourceUnit) : Prop where
  path : u.path = v.path
  modulePath : u.modulePath = v.modulePath
  file : u.parsed.file = v.parsed.file

namespace SourceUnit

variable {u v : SourceUnit}

lemma SameTree.unitKey_eq (same : SameTree u v) : unitKey u = unitKey v := by
  rw [unitKey, unitKey, same.path]

lemma SameTree.fingerprint_eq [Digest δ] (same : SameTree u v) : (u.fingerprint : δ) = v.fingerprint := by
  rw [fingerprint, fingerprint, same.file]

/-- Units with the same tree have the same items at the same places. -/
lemma SameTree.sightings_eq (same : SameTree u v) : u.sightings = v.sightings := by
  rw [sightings, sightings, Scope.ofUnit, Scope.ofUnit, same.file, same.modulePath]

end SourceUnit

/-- Whether programs differ in the texts of their units only. -/
structure Program.SameTrees (p q : Program) : Prop where
  crateName : p.crateName = q.crateName
  units : List.Forall₂ SourceUnit.SameTree p.units q.units
  references : p.references = q.references

namespace Program

variable {p q : Program}

/-- Programs with the same trees agree on all that units with the same tree agree on. -/
lemma SameTrees.map_eq {α : Type} (same : SameTrees p q) {f : SourceUnit → α}
    (agree : ∀ ⦃u v⦄, SourceUnit.SameTree u v → f u = f v) : p.units.map f = q.units.map f := by
  have mapped : List.Forall₂ Eq (p.units.map f) (q.units.map f) := List.rel_map agree same.units
  rwa [List.forall₂_eq_eq_eq] at mapped

lemma SameTrees.fingerprint_eq [Digest δ] (same : SameTrees p q) : (p.fingerprint : δ) = q.fingerprint := by
  rw [fingerprint, fingerprint, fingerprintParts, fingerprintParts, same.references, List.flatMap_def, List.flatMap_def,
    same.map_eq fun u v alike => ?_]
  rw [alike.path, alike.modulePath, alike.fingerprint_eq]

lemma SameTrees.globals_eq (same : SameTrees p q) : GlobalImports.ofProgram p = .ofProgram q := by
  rw [GlobalImports.ofProgram, GlobalImports.ofProgram, List.flatMap_def, List.flatMap_def,
    same.map_eq fun u v alike => ?_]
  rw [alike.sightings_eq]

end Program

/-! ### What a pass leaves -/

namespace ModuleInput

/-- What a module is built from compares as equal if the fragments do and all else is equal. -/
lemma beq_of_parts {i j : ModuleInput} (fragments : (i.fragments == j.fragments) = true) (globals : i.globals = j.globals)
    (references : i.references = j.references) : (i == j) = true := by
  have parts : (i.fragments == j.fragments && i.globals.imports == j.globals.imports &&
      Reference.sameList i.references j.references) = true := by
    rw [fragments, globals, references, Reference.sameList_refl, beq_self_eq_true]
    rfl
  exact parts

lemma beq_self (i : ModuleInput) : (i == i) = true :=
  beq_of_parts (Fragment.beq_of_map_placeless rfl) rfl rfl

end ModuleInput

namespace Pass

/-- The stage of the module leaves a cell that has the module for its input. -/
lemma ModuleStep.held? {h : Host β γ} {c c' : PipelineCells δ γ} {i : ModuleInput} {m : SyntheticModule}
    (step : ModuleStep h c i m c') : c'.module.held? i = some m := by
  cases step with
  | held known => exact known
  | built new made => simp only [PipelineCells.built, Memo.held?, Memo.fill, ModuleInput.beq_self, if_true]

lemma LoadStep.held? {h : Host β γ} {c c' : PipelineCells δ γ} {m : SyntheticModule} {outcome : LoadOutcome γ}
    (step : LoadStep h c m outcome c') : c'.load.held? m.epoch = some outcome := by
  cases step with
  | held known => exact known
  | loaded new => simp only [PipelineCells.loaded, Memo.held?, Memo.fill, beq_self_eq_true, if_true]

lemma ModuleStep.eq_of_held {h : Host β γ} {c c' : PipelineCells δ γ} {i : ModuleInput} {m built : SyntheticModule}
    (step : ModuleStep h c i m c') (held : c.module.held? i = some built) :
    m = built ∧ c' = { c with module := c.module.hit } := by
  cases step with
  | held known =>
    rw [held] at known
    cases known
    exact ⟨rfl, rfl⟩
  | built new made =>
    rw [held] at new
    cases new

lemma LoadStep.eq_of_held {h : Host β γ} {c c' : PipelineCells δ γ} {m : SyntheticModule}
    {outcome known : LoadOutcome γ} (step : LoadStep h c m outcome c') (held : c.load.held? m.epoch = some known) :
    c' = { c with load := c.load.hit } := by
  cases step with
  | held known => rfl
  | loaded new =>
    rw [held] at new
    cases new

/-- A cell that has something for every unit hands that out. -/
lemma collectFrom_of_held [Digest δ] [BEq δ] (m : Model) (references : δ) {us : List SourceUnit} {parts : List (List Fragment)}
    {memo : KeyedMemo (List PathPart) (δ × δ) (List Fragment)}
    (held : (us.map fun u => memo.held? (unitKey u) (u.fingerprint, references)) = parts.map some) (index : Nat) :
    (collectFrom m references index memo us).1 = parts.flatten := by
  induction us generalizing index memo parts with
  | nil =>
    obtain rfl := List.map_eq_nil_iff.mp held.symm
    rfl
  | cons u us ih =>
    cases parts with
    | nil => cases held
    | cons fs parts =>
      obtain ⟨first, rest⟩ := List.cons.inj held
      have first : memo.held? (unitKey u) (u.fingerprint, references) = some fs := first
      have rest : (us.map fun u => KeyedMemo.held? { memo with stats := memo.stats.hit } (unitKey u)
          (u.fingerprint, references)) = parts.map some := rest
      have later := ih rest (index + 1)
      rw [collectFrom, KeyedMemo.getOrCompute_eq, first, List.flatten_cons]
      exact congrArg (fs ++ ·) later

end Pass

namespace PipelineCells

variable [Digest δ] [BEq δ] {config : Config} {h : Host β γ} {c c' : PipelineCells δ γ} {m m' : Model}

section Completed

variable [Generator γ] {out : GenerationOutput}

/-- A pass that came to its end leaves cells that have its module for what it was built from, and what was loaded. -/
lemma held?_of_completed (completed : Completed h config m c out c') :
    ∃ built outcome, c'.module.held? (c.input config m) = some built ∧
      c'.load.held? built.epoch = some outcome := by
  obtain ⟨module, load, output⟩ := completed
  have module := module.held?
  have loaded := load.held?
  cases load with
  | held known => cases output <;> exact ⟨_, _, module, loaded⟩
  | loaded new => cases output <;> exact ⟨_, _, module, loaded⟩

lemma globals_of_completed (completed : Completed h config m c out c') :
    c'.globals = (c.collected config m).globals := by
  obtain ⟨module, load, output⟩ := completed
  cases module <;> cases load <;> cases output <;> rfl

variable [LawfulBEq δ]

/-- A pass that came to its end leaves a cell that has for every unit what the pass was handed out for it. -/
lemma fragments_of_completed (completed : Completed h config m c out c')
    (distinct : (m.program.units.map unitKey).Nodup) :
    ∃ parts : List (List Fragment), (c.input config m).fragments = parts.flatten ∧
      (m.program.units.map fun u => c'.fragments.held? (unitKey u)
        (u.fingerprint, referencesFingerprint (referenceSet config m.program))) = parts.map some := by
  obtain ⟨collected, remembered, -⟩ := collectFrom_distinct m
    (referencesFingerprint (referenceSet config m.program)) c.fragments distinct 0
  refine ⟨_, collected, ?_⟩
  rw [fragments_of_steps (.inl ⟨out, completed⟩), List.map_map]
  have units : m.program.units = m.program.units.zipIdx.map (·.1) := (List.zipIdx_map_fst 0 _).symm
  conv_lhs => rw [units]
  rw [List.map_map]
  refine List.map_congr_left fun e he => ?_
  exact (KeyedMemo.held?_retain _ (List.mem_map_of_mem (List.fst_mem_of_mem_zipIdx he)) _).trans (remembered e he)

/-- After a pass that came to its end, a program whose units have the same keys and summaries, and that has the same
references and the same summary, has its module built from the same. -/
lemma input_of_completed (completed : Completed h config m c out c')
    (units : (m'.program.units.map fun u => (unitKey u, (u.fingerprint : δ))) =
      m.program.units.map fun u => (unitKey u, u.fingerprint))
    (references : m'.program.references = m.program.references)
    (summary : (m'.program.fingerprint : δ) = m.program.fingerprint)
    (distinct : (m.program.units.map unitKey).Nodup) : c'.input config m' = c.input config m := by
  have references : referenceSet config m'.program = referenceSet config m.program := by
    rw [referenceSet, referenceSet, references]
  have fragments : (c'.input config m').fragments = (c.input config m).fragments := by
    obtain ⟨parts, handed, held⟩ := fragments_of_completed completed distinct
    rw [handed]
    refine collectFrom_of_held m' _ ?_ 0
    rw [references, ← held]
    have rows := congrArg (List.map fun row => c'.fragments.held? row.1
      (row.2, referencesFingerprint (referenceSet config m.program))) units
    rwa [List.map_map, List.map_map] at rows
  have globals : (c'.input config m').globals = (c.input config m).globals := by
    refine Memo.getOrCompute_of_held? ?_ _
    rw [globals_of_completed completed, summary]
    exact Memo.held?_getOrCompute_self c.globals _ _
  calc c'.input config m'
    _ = ⟨(c'.input config m').fragments, (c'.input config m').globals, referenceSet config m'.program⟩ := rfl
    _ = ⟨(c.input config m).fragments, (c.input config m).globals, referenceSet config m.program⟩ := by
      rw [fragments, globals, references]
    _ = c.input config m := rfl

end Completed

/-! ### What a pass reuses -/

/-- Whether cells have the module and what was loaded as before, and nothing was built or loaded in between. -/
structure Kept (c c' : PipelineCells δ γ) : Prop where
  module : c'.module.entry = c.module.entry
  load : c'.load.entry = c.load.entry
  epoch : c'.epoch = c.epoch
  builds : c'.module.stats.misses = c.module.stats.misses
  loads : c'.load.stats.misses = c.load.stats.misses

/-- Whether any pass over a program takes its module and what was loaded from memory. -/
structure Reuses [Generator γ] (h : Host β γ) (config : Config) (c : PipelineCells δ γ) (p : Program) : Prop where
  /-- Whatever the compiler and the loader would do, the pass is the same. -/
  asks : ∀ compile load, SameOn (run h config p : PassM δ γ β _)
    (run { h with compile := compile, load := load } config p) c
  kept : ∀ s, c.Kept ((PassCall.mk p s).run h config c).2
  hits : ∀ s out, ((PassCall.mk p s).run h config c).1 = .ok out →
    ((PassCall.mk p s).run h config c).2.module.stats.hits = c.module.stats.hits + 1 ∧
      ((PassCall.mk p s).run h config c).2.load.stats.hits = c.load.stats.hits + 1

section Held

variable {built : SyntheticModule} {outcome : LoadOutcome γ}
  (module : c.module.held? (c.input config m) = some built) (loaded : c.load.held? built.epoch = some outcome)

include module loaded

/-- A pass that comes to its end with cells that have its module and what was loaded counts them as answers. -/
lemma kept_of_completed [Generator γ] {out : GenerationOutput} (completed : Completed h config m c out c') :
    c.Kept c' ∧ c'.module.stats.hits = c.module.stats.hits + 1 ∧
      c'.load.stats.hits = c.load.stats.hits + 1 := by
  obtain ⟨step, load, output⟩ := completed
  obtain ⟨rfl, rfl⟩ := step.eq_of_held module
  obtain rfl := load.eq_of_held loaded
  cases output <;> exact ⟨⟨rfl, rfl, rfl, rfl, rfl⟩, rfl, rfl⟩

/-- A pass that stops has built and loaded nothing if the cells have its module and what was loaded. -/
lemma kept_of_stopped (stopped : Stopped h config m c c') : c.Kept c' := by
  cases stopped with
  | afterFragments => exact ⟨rfl, rfl, rfl, rfl, rfl⟩
  | afterGlobals => exact ⟨rfl, rfl, rfl, rfl, rfl⟩
  | inBuild new => exact absurd (module.symm.trans new) (Option.some_ne_none _)
  | afterModule step =>
    obtain ⟨rfl, rfl⟩ := step.eq_of_held module
    exact ⟨rfl, rfl, rfl, rfl, rfl⟩
  | afterLoad step load =>
    obtain ⟨rfl, rfl⟩ := step.eq_of_held module
    obtain rfl := load.eq_of_held loaded
    exact ⟨rfl, rfl, rfl, rfl, rfl⟩

end Held

variable [Generator γ] {p : Program}

/-- A pass that finds its module and what was loaded in the cells reuses them. -/
lemma reuses_of_held (held : ∀ m, Model.ofProgram p = .ok m → ∃ built outcome,
      c.module.held? (c.input config m) = some built ∧ c.load.held? built.epoch = some outcome) :
    Reuses h config c p where
  asks := by
    intro compile load
    refine run_sameOn rfl ?_ ?_
    · intro m hm new
      obtain ⟨built, outcome, module, -⟩ := held m hm
      exact absurd (module.symm.trans new) (Option.some_ne_none _)
    · -- the module that the step answers is the remembered one, which is loaded
      intro m built' c₁ hm step new
      obtain ⟨built, outcome, module, loaded⟩ := held m hm
      obtain ⟨rfl, rfl⟩ := step.eq_of_held module
      exact absurd (loaded.symm.trans new) (Option.some_ne_none _)
  kept := by
    intro s
    obtain ⟨m, out, hm, -, completed⟩ | ⟨-, same | ⟨m, hm, stopped⟩⟩ := (PassCall.mk p s).run_steps h config c
    · obtain ⟨built, outcome, module, loaded⟩ := held m hm
      exact (kept_of_completed module loaded completed).1
    · rw [same]
      exact ⟨rfl, rfl, rfl, rfl, rfl⟩
    · obtain ⟨built, outcome, module, loaded⟩ := held m hm
      exact kept_of_stopped module loaded stopped
  hits := by
    intro s out ok
    obtain ⟨m, out, hm, -, completed⟩ | ⟨⟨e, stop⟩, -⟩ := (PassCall.mk p s).run_steps h config c
    · obtain ⟨built, outcome, module, loaded⟩ := held m hm
      exact (kept_of_completed module loaded completed).2
    · rw [ok] at stop
      cases stop

variable [LawfulBEq δ]

/-- A pass over a program with the same trees as the one before reuses what that one left, on any host. -/
lemma reuses_of_sameTrees {h' : Host β γ} {k : PassCall β} {out : GenerationOutput}
    (ended : (k.run h config c).1 = .ok out) (same : k.program.SameTrees p)
    (distinct : (k.program.units.map unitKey).Nodup) : Reuses h' config (k.run h config c).2 p := by
  obtain ⟨m, out, hm, -, completed⟩ | ⟨⟨e, stop⟩, -⟩ := k.run_steps h config c
  · refine reuses_of_held fun m' hm' => ?_
    obtain ⟨built, outcome, module, loaded⟩ := held?_of_completed completed
    obtain rfl := Model.program_of_ofProgram hm'
    rw [← Model.program_of_ofProgram hm] at same distinct
    refine ⟨built, outcome, ?_, loaded⟩
    have units : m.program.units.map (fun u => (unitKey u, (u.fingerprint : δ))) =
        m'.program.units.map fun u => (unitKey u, u.fingerprint) :=
      same.map_eq fun u v alike => by rw [alike.unitKey_eq, alike.fingerprint_eq]
    rw [input_of_completed completed units.symm same.references.symm same.fingerprint_eq.symm distinct]
    exact module
  · rw [ended] at stop
    cases stop

end PipelineCells

end SourceGen
