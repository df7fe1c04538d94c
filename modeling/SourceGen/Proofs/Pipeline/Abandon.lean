import SourceGen.Proofs.Pipeline.Ends

/-!
# Passes that are given up

A pass asks five times whether its host gives it up: at its beginning, and after each stage but the last. What it
leaves when it is stopped is held here against a pass that is asked as often and never gives up
(`Host.steadfast`), on a host that counts the checks (`Host.counting`). `Tracks` follows the two passes
side by side: up to the check that stops the one they are in the same state, and from there on the other one works
on cells of later stages only.
-/

namespace SourceGen

open SourceGen.Pass

variable {δ γ β : Type}

/-- How a call ends on given cells, the cells that it leaves, and how many checks it came to. -/
def PassCall.counted [Digest δ] [BEq δ] [Generator γ] (k : PassCall β) (h : Host β γ) (config : Config)
    (c : PipelineCells δ γ) : Except PassStop GenerationOutput × PipelineCells δ γ × Nat :=
  let (result, s) := Pass.run h.counting config k.program ⟨c, k.host, 0⟩
  (result, s.cells, s.host.2)

/-! ### Cells that agree -/

namespace PipelineCells

/-- Whether cells agree in all that belongs to the stages of which a property holds. The stages are numbered in the
order of a pass, from 1 on; the epoch belongs to the stage of the module. -/
structure AgreeOn (P : Nat → Prop) (c c' : PipelineCells δ γ) : Prop where
  fragments : P 1 → c.fragments = c'.fragments
  globals : P 2 → c.globals = c'.globals
  module : P 3 → c.module = c'.module ∧ c.epoch = c'.epoch
  load : P 4 → c.load = c'.load
  output : P 5 → c.output = c'.output ∧ c.instantiations = c'.instantiations

namespace AgreeOn

variable {P Q : Nat → Prop} {c c' c'' : PipelineCells δ γ}

lemma refl (P : Nat → Prop) (c : PipelineCells δ γ) : AgreeOn P c c :=
  ⟨fun _ => rfl, fun _ => rfl, fun _ => ⟨rfl, rfl⟩, fun _ => rfl, fun _ => ⟨rfl, rfl⟩⟩

lemma mono (h : AgreeOn P c c') (le : ∀ i, Q i → P i) : AgreeOn Q c c' where
  fragments q := h.fragments (le 1 q)
  globals q := h.globals (le 2 q)
  module q := h.module (le 3 q)
  load q := h.load (le 4 q)
  output q := h.output (le 5 q)

lemma trans (h : AgreeOn P c c') (h' : AgreeOn P c' c'') : AgreeOn P c c'' where
  fragments p := (h.fragments p).trans (h'.fragments p)
  globals p := (h.globals p).trans (h'.globals p)
  module p := ⟨(h.module p).1.trans (h'.module p).1, (h.module p).2.trans (h'.module p).2⟩
  load p := (h.load p).trans (h'.load p)
  output p := ⟨(h.output p).1.trans (h'.output p).1, (h.output p).2.trans (h'.output p).2⟩

lemma symm (h : AgreeOn P c c') : AgreeOn P c' c where
  fragments p := (h.fragments p).symm
  globals p := (h.globals p).symm
  module p := ⟨(h.module p).1.symm, (h.module p).2.symm⟩
  load p := (h.load p).symm
  output p := ⟨(h.output p).1.symm, (h.output p).2.symm⟩

end AgreeOn

end PipelineCells

namespace Pass

open PipelineCells

variable {h : Host β γ} {config : Config} {c c' : PipelineCells δ γ} {model : Model}

/-- The stage of fragments changes what belongs to it. -/
lemma agreeOn_withFragments [Digest δ] [BEq δ] : AgreeOn (· ≠ 1) c (c.withFragments config model) where
  fragments p := absurd rfl p
  globals _ := rfl
  module _ := ⟨rfl, rfl⟩
  load _ := rfl
  output _ := ⟨rfl, rfl⟩

lemma agreeOn_collected [Digest δ] [BEq δ] :
    AgreeOn (· ≠ 2) (c.withFragments config model) (c.collected config model) where
  fragments _ := rfl
  globals p := absurd rfl p
  module _ := ⟨rfl, rfl⟩
  load _ := rfl
  output _ := ⟨rfl, rfl⟩

lemma agreeOn_building : AgreeOn (· ≠ 3) c c.building where
  fragments _ := rfl
  globals _ := rfl
  module p := absurd rfl p
  load _ := rfl
  output _ := ⟨rfl, rfl⟩

/-- The stage of the module changes what belongs to it. -/
lemma ModuleStep.agreeOn {i : ModuleInput} {m : SyntheticModule} (step : ModuleStep h c i m c') :
    AgreeOn (· ≠ 3) c c' := by
  cases step with
  | held => exact ⟨fun _ => rfl, fun _ => rfl, fun p => absurd rfl p, fun _ => rfl, fun _ => ⟨rfl, rfl⟩⟩
  | built => exact ⟨fun _ => rfl, fun _ => rfl, fun p => absurd rfl p, fun _ => rfl, fun _ => ⟨rfl, rfl⟩⟩

lemma LoadStep.agreeOn {m : SyntheticModule} {outcome : LoadOutcome γ} (step : LoadStep h c m outcome c') :
    AgreeOn (· ≠ 4) c c' := by
  cases step with
  | held => exact ⟨fun _ => rfl, fun _ => rfl, fun _ => ⟨rfl, rfl⟩, fun p => absurd rfl p, fun _ => ⟨rfl, rfl⟩⟩
  | loaded => exact ⟨fun _ => rfl, fun _ => rfl, fun _ => ⟨rfl, rfl⟩, fun p => absurd rfl p, fun _ => ⟨rfl, rfl⟩⟩

lemma OutputStep.agreeOn [Digest δ] [BEq δ] [Generator γ] {m : SyntheticModule} {outcome : LoadOutcome γ}
    {out : GenerationOutput} (step : OutputStep c model m outcome out c') : AgreeOn (· ≠ 5) c c' := by
  cases step with
  | held => exact ⟨fun _ => rfl, fun _ => rfl, fun _ => ⟨rfl, rfl⟩, fun _ => rfl, fun p => absurd rfl p⟩
  | dispatched => exact ⟨fun _ => rfl, fun _ => rfl, fun _ => ⟨rfl, rfl⟩, fun _ => rfl, fun p => absurd rfl p⟩

/-! ### Steps that ask for no check -/

/-- Whether a step that counts checks does what another one does, comes to no check, and is not given up. -/
def Unchecked {α : Type} (x : PassM δ γ (β × Nat) α) (y : PassM δ γ β α) : Prop :=
  ∀ c host n, x ⟨c, host, n⟩ = ((y ⟨c, host⟩).1, ⟨(y ⟨c, host⟩).2.cells, (y ⟨c, host⟩).2.host, n⟩) ∧
    (y ⟨c, host⟩).1 ≠ .error (.error .cancelled)

namespace Unchecked

variable {α α' : Type}

/-- Steps in a row come to no check if none of them does. -/
lemma bind {x : PassM δ γ (β × Nat) α} {y : PassM δ γ β α} {f : α → PassM δ γ (β × Nat) α'}
    {g : α → PassM δ γ β α'} (first : Unchecked x y) (next : ∀ a, Unchecked (f a) (g a)) :
    Unchecked (x >>= f) (y >>= g) := by
  intro c host n
  obtain ⟨same, goes⟩ := first c host n
  rw [bind_apply, bind_apply, same]
  cases ends : y ⟨c, host⟩ with
  | mk result s =>
    cases result with
    | ok a => exact next a s.cells s.host n
    | error e =>
      refine ⟨rfl, fun given => goes ?_⟩
      cases given
      rw [ends]

lemma pure (a : α) : Unchecked (Pure.pure a : PassM δ γ (β × Nat) α) (Pure.pure a) :=
  fun _ _ _ => ⟨rfl, nofun⟩

lemma throw {e : PassStop} (other : e ≠ .error .cancelled) :
    Unchecked (MonadExcept.throw e : PassM δ γ (β × Nat) α) (MonadExcept.throw e) :=
  fun _ _ _ => ⟨rfl, fun given => other (Except.error.inj given)⟩

lemma cells : Unchecked (Pass.cells : PassM δ γ (β × Nat) _) Pass.cells := fun _ _ _ => ⟨rfl, nofun⟩

lemma change (f : PipelineCells δ γ → PipelineCells δ γ) :
    Unchecked (Pass.change f : PassM δ γ (β × Nat) _) (Pass.change f) := fun _ _ _ => ⟨rfl, nofun⟩

/-- What a host is asked besides checks. -/
lemma ask (f : β → α × β) :
    Unchecked (Pass.ask fun s => ((f s.1).1, (f s.1).2, s.2) : PassM δ γ (β × Nat) α) (Pass.ask f) :=
  fun _ _ _ => ⟨rfl, nofun⟩

/-- A build comes to no check. -/
lemma buildModule (h : Host β γ) (e : Epoch) (i : ModuleInput) :
    Unchecked (Pass.buildModule h.counting e i : PassM δ γ (β × Nat) _) (Pass.buildModule h e i) := by
  unfold Pass.buildModule
  split
  case isTrue => exact pure _
  case isFalse =>
    split
    case h_1 f _ => exact throw nofun
    case h_2 crate _ =>
      refine (ask (h.compile _)).bind fun compilation => ?_
      cases compilation with
      | finished result => exact pure _
      | crashed => exact throw nofun

lemma moduleStage (h : Host β γ) (i : ModuleInput) :
    Unchecked (Pass.moduleStage h.counting i : PassM δ γ (β × Nat) _) (Pass.moduleStage h i) := by
  refine cells.bind fun c => ?_
  split
  case h_1 m _ => exact (change _).bind fun _ => pure m
  case h_2 => exact (change _).bind fun _ => (buildModule h _ i).bind fun m => (change _).bind fun _ => pure m

lemma loadStage (h : Host β γ) (m : SyntheticModule) :
    Unchecked (Pass.loadStage h.counting m : PassM δ γ (β × Nat) _) (Pass.loadStage h m) := by
  refine cells.bind fun c => ?_
  split
  case h_1 loaded _ => exact (change _).bind fun _ => pure loaded
  case h_2 =>
    exact (change _).bind fun _ => (ask (h.load m)).bind fun loaded => (change _).bind fun _ => pure loaded

lemma outputStage [Digest δ] [BEq δ] [Generator γ] (model : Model) (m : SyntheticModule)
    (loaded : LoadOutcome γ) :
    Unchecked (Pass.outputStage model m loaded : PassM δ γ (β × Nat) _) (Pass.outputStage model m loaded) := by
  refine cells.bind fun c => ?_
  simp only
  split
  case h_1 out _ => exact (change _).bind fun _ => pure out
  case h_2 => exact (change _).bind fun _ => pure _

end Unchecked

/-! ### A pass beside one that is never given up -/

/-- Whether a step with `n` stages and `k` checks behind it goes as a step that is never given up, from given cells on,
which were `c₀` when the pass began. The latter leaves what belongs to the stages behind it. Where the former is given
up by a check, it leaves of the stages before that check what the latter leaves, and the others as they were. -/
def Tracks {α : Type} (c₀ : PipelineCells δ γ) (x : PassM δ γ (β × Nat) α) (y : PassM δ γ β α)
    (c : PipelineCells δ γ) (n k : Nat) : Prop :=
  ∀ host, AgreeOn (· ≤ n) c (y ⟨c, host⟩).2.cells ∧
    ((x ⟨c, host, k⟩).1 = .error (.error .cancelled) →
      let s := (x ⟨c, host, k⟩).2
      1 ≤ s.host.2 ∧ s.host.2 ≤ 5 ∧ AgreeOn (· < s.host.2) s.cells (y ⟨c, host⟩).2.cells ∧
        AgreeOn (s.host.2 ≤ ·) s.cells c₀)

namespace Tracks

variable {α α' : Type} {c₀ : PipelineCells δ γ} {n k : Nat} {x : PassM δ γ (β × Nat) α} {y : PassM δ γ β α}
  {f : α → PassM δ γ (β × Nat) α'} {g : α → PassM δ γ β α'}

/-- A last stage. -/
lemma last (unchecked : Unchecked x y)
    (leads : Leads y c (fun _ => AgreeOn (· ≠ n + 1) c) (AgreeOn (· ≠ n + 1) c)) : Tracks c₀ x y c n k := by
  intro host
  obtain ⟨same, goes⟩ := unchecked c host k
  have leads := leads host
  have before : ∀ i, i ≤ n → i ≠ n + 1 := by omega
  rw [same]
  refine ⟨?_, fun given => absurd given goes⟩
  split at leads
  case h_1 a s eq => exact eq ▸ leads.mono before
  case h_2 e s eq => exact eq ▸ leads.mono before

/-- A stage and what follows it. -/
lemma stage (unchecked : Unchecked x y)
    (leads : Leads y c (fun a c' => AgreeOn (· ≠ n + 1) c c' ∧ Tracks c₀ (f a) (g a) c' (n + 1) k)
      (AgreeOn (· ≠ n + 1) c)) : Tracks c₀ (x >>= f) (y >>= g) c n k := by
  intro host
  obtain ⟨same, goes⟩ := unchecked c host k
  have leads := leads host
  have before : ∀ i, i ≤ n → i ≠ n + 1 := by omega
  -- the stage itself comes to no check, so it is what follows that may be given up
  rw [bind_apply, bind_apply, same]
  split at leads
  case h_1 a s eq =>
    rw [eq]
    obtain ⟨agree, tracks⟩ := leads
    obtain ⟨later, cut⟩ := tracks s.host
    exact ⟨(agree.mono before).trans (later.mono fun _ => Nat.le_succ_of_le), cut⟩
  case h_2 e s eq =>
    rw [eq] at goes ⊢
    exact ⟨leads.mono before, fun given => (goes (congrArg Except.error (Except.error.inj given))).elim⟩

/-- A check and what follows it, if the stages that are not behind it have not begun. -/
lemma check {f : Unit → PassM δ γ (β × Nat) α'} {g : Unit → PassM δ γ β α'} (few : n < 5)
    (still : AgreeOn (n < ·) c c₀) (next : Tracks c₀ (f ()) (g ()) c n (n + 1)) :
    Tracks c₀ (Pass.check h.counting >>= f) (Pass.check h.steadfast >>= g) c n n := by
  intro host
  obtain ⟨later, cut⟩ := next (h.poll host).2
  have goes : (Pass.check h.steadfast >>= g) ⟨c, host⟩ = g () ⟨c, (h.poll host).2⟩ := rfl
  have asked : (Pass.ask h.counting.poll : PassM δ γ (β × Nat) Bool) ⟨c, host, n⟩ =
      (.ok (h.poll host).1, ⟨c, (h.poll host).2, n + 1⟩) := rfl
  rw [goes, bind_apply, Pass.check, bind_apply, asked]
  cases (h.poll host).1 with
  | false => exact ⟨later, cut⟩
  | true =>
    -- given up here: the pass that goes on leaves the stages behind it alone
    refine ⟨later, fun _ => ⟨Nat.le_add_left 1 n, few, ?_, still⟩⟩
    exact later.mono fun _ => Nat.le_of_lt_succ

end Tracks

/-- The cells of later stages are as they were when the pass began, if the stage that was next has left them alone. -/
lemma still_of_stage {c₀ : PipelineCells δ γ} {n : Nat} (still : AgreeOn (n < ·) c c₀) (stage : AgreeOn (· ≠ n + 1) c c') :
    AgreeOn (n + 1 < ·) c' c₀ :=
  (stage.symm.mono fun _ => Nat.ne_of_gt).trans (still.mono fun _ => Nat.lt_of_succ_lt)

/-- A pass that begins goes as one that is never given up. -/
lemma tracks_ofModel [Digest δ] [BEq δ] [Generator γ] (h : Host β γ) (config : Config) (model : Model)
    (c : PipelineCells δ γ) :
    Tracks c (ofModel h.counting config model) (ofModel h.steadfast config model) c 0 1 := by
  refine .stage (fun _ _ _ => ⟨rfl, nofun⟩) ((fragmentStage_steps model).mono ?_ fun _ => False.elim)
  rintro _ _ ⟨rfl, rfl⟩
  -- with each stage, the cells of the later ones are still those of the beginning
  have fragments : AgreeOn (· ≠ 1) c (c.withFragments config model) := agreeOn_withFragments
  have still₁ := still_of_stage (.refl _ c) fragments
  refine ⟨fragments, .check (by decide) still₁ ?_⟩
  refine .stage (fun _ _ _ => ⟨rfl, nofun⟩) ((globalStage_steps model).mono ?_ fun _ => False.elim)
  rintro _ _ ⟨rfl, rfl⟩
  have still₂ := still_of_stage still₁ agreeOn_collected
  refine ⟨agreeOn_collected, .check (by decide) still₂ ?_⟩
  refine .stage (.moduleStage h _) ((moduleStage_steps (c.input config model)).mono ?_ ?_)
  · intro m c₃ module
    have still₃ := still_of_stage still₂ module.agreeOn
    refine ⟨module.agreeOn, .check (by decide) still₃ ?_⟩
    refine .stage (.loadStage h m) ((loadStage_steps m).mono ?_ fun _ => False.elim)
    intro outcome c₄ load
    have still₄ := still_of_stage still₃ load.agreeOn
    refine ⟨load.agreeOn, .check (by decide) still₄ ?_⟩
    refine .last (.outputStage model m outcome) ((outputStage_steps model m outcome).mono ?_ fun _ => False.elim)
    exact fun _ _ output => output.agreeOn
  · rintro _ ⟨-, rfl⟩
    exact agreeOn_building

/-- A pass goes as one that is never given up. -/
lemma tracks_run [Digest δ] [BEq δ] [Generator γ] (h : Host β γ) (config : Config) (p : Program)
    (c : PipelineCells δ γ) : Tracks c (run h.counting config p) (run h.steadfast config p) c 0 0 := by
  rw [run_eq, run_eq]
  refine .check (by decide) (.refl _ c) ?_
  cases resolved : Model.ofProgram p with
  | error e =>
    obtain ⟨marker, rfl⟩ := Model.error_of_ofProgram resolved
    exact .last (.throw nofun) (leads_throw (.refl _ c))
  | ok model => exact tracks_ofModel h config model c

/-! ### Counting changes nothing -/

/-- Whether a step that counts checks does what another one does, however many checks it comes to. -/
def Mirrors {α : Type} (x : PassM δ γ (β × Nat) α) (y : PassM δ γ β α) : Prop :=
  ∀ c host n, ∃ n', x ⟨c, host, n⟩ = ((y ⟨c, host⟩).1, ⟨(y ⟨c, host⟩).2.cells, (y ⟨c, host⟩).2.host, n'⟩)

namespace Mirrors

variable {α α' : Type}

lemma of_unchecked {x : PassM δ γ (β × Nat) α} {y : PassM δ γ β α} (unchecked : Unchecked x y) : Mirrors x y :=
  fun c host n => ⟨n, (unchecked c host n).1⟩

/-- Steps in a row. -/
lemma bind {x : PassM δ γ (β × Nat) α} {y : PassM δ γ β α} {f : α → PassM δ γ (β × Nat) α'}
    {g : α → PassM δ γ β α'} (first : Mirrors x y) (next : ∀ a, Mirrors (f a) (g a)) :
    Mirrors (x >>= f) (y >>= g) := by
  intro c host n
  obtain ⟨n', same⟩ := first c host n
  rw [bind_apply, bind_apply, same]
  cases y ⟨c, host⟩ with
  | mk result s =>
    cases result with
    | ok a => exact next a s.cells s.host n'
    | error e => exact ⟨n', rfl⟩

lemma check (h : Host β γ) : Mirrors (Pass.check h.counting : PassM δ γ (β × Nat) Unit) (Pass.check h) := by
  intro c host n
  refine ⟨n + 1, ?_⟩
  have counted : (Pass.ask h.counting.poll : PassM δ γ (β × Nat) Bool) ⟨c, host, n⟩ =
      (.ok (h.poll host).1, ⟨c, (h.poll host).2, n + 1⟩) := rfl
  have asked : (Pass.ask h.poll : PassM δ γ β Bool) ⟨c, host⟩ = (.ok (h.poll host).1, ⟨c, (h.poll host).2⟩) := rfl
  rw [Pass.check, Pass.check, bind_apply, bind_apply, counted, asked]
  cases (h.poll host).1 <;> rfl

/-- A pass on a host that counts is a pass. -/
lemma run [Digest δ] [BEq δ] [Generator γ] (h : Host β γ) (config : Config) (p : Program) :
    Mirrors (Pass.run h.counting config p : PassM δ γ (β × Nat) _) (Pass.run h config p) := by
  rw [run_eq, run_eq]
  refine (check h).bind fun _ => ?_
  cases Model.ofProgram p with
  | error e => exact fun _ _ n => ⟨n, rfl⟩
  | ok model =>
    have fragments : Mirrors (fragmentStage model (referenceSet config model.program) : PassM δ γ (β × Nat) _)
        (fragmentStage model (referenceSet config model.program)) := fun _ _ n => ⟨n, rfl⟩
    have globals : Mirrors (globalStage model.program : PassM δ γ (β × Nat) _) (globalStage model.program) :=
      fun _ _ n => ⟨n, rfl⟩
    refine fragments.bind fun fs => (check h).bind fun _ => globals.bind fun g => (check h).bind fun _ => ?_
    refine (of_unchecked (.moduleStage h _)).bind fun m => (check h).bind fun _ => ?_
    refine (of_unchecked (.loadStage h m)).bind fun loaded => (check h).bind fun _ => ?_
    exact of_unchecked (.outputStage model m loaded)

end Mirrors

end Pass

/-! ### What is counted -/

/-- Whether a cell was asked a number of times between two counts. -/
def StageStats.Asked (n : Nat) (before after : StageStats) : Prop :=
  ∃ hits misses, hits + misses = n ∧ after = ⟨before.hits + hits, before.misses + misses⟩

namespace StageStats.Asked

variable {s s' s'' : StageStats} {n n' : Nat}

lemma refl (s : StageStats) : Asked 0 s s := ⟨0, 0, rfl, rfl⟩

lemma hit (s : StageStats) : Asked 1 s s.hit := ⟨1, 0, rfl, rfl⟩

lemma miss (s : StageStats) : Asked 1 s s.miss := ⟨0, 1, rfl, rfl⟩

lemma trans (h : Asked n s s') (h' : Asked n' s' s'') : Asked (n + n') s s'' := by
  obtain ⟨hits, misses, rfl, rfl⟩ := h
  obtain ⟨hits', misses', rfl, rfl⟩ := h'
  exact ⟨hits + hits', misses + misses', by omega, by simp only [Nat.add_assoc]⟩

end StageStats.Asked

namespace Pass

open StageStats

variable {config : Config} {model : Model} {c c' : PipelineCells δ γ}

/-- The cell of fragments is asked once for each unit. -/
lemma asked_collectFrom [Digest δ] [BEq δ] (references : δ) (us : List SourceUnit) (index : Nat)
    (memo : KeyedMemo (List PathPart) (δ × δ) (List Fragment)) :
    Asked us.length memo.stats (collectFrom model references index memo us).2.stats := by
  induction us generalizing index memo with
  | nil => exact .refl _
  | cons u us ih =>
    have first : Asked 1 memo.stats (memo.getOrCompute (unitKey u) (u.fingerprint, references)
        fun _ => Fragment.ofUnit model index u).2.stats := by
      rw [KeyedMemo.getOrCompute_eq]
      split
      · exact .hit _
      · exact .miss _
    rw [List.length_cons, Nat.add_comm]
    exact first.trans (ih (index + 1) _)

lemma asked_globals [Digest δ] [BEq δ] : Asked 1 c.globals.stats (c.collected config model).globals.stats := by
  unfold PipelineCells.collected
  rw [Memo.getOrCompute_eq]
  split
  · exact .hit _
  · exact .miss _

/-- The stage of the module asks its cell once. -/
lemma ModuleStep.asked {h : Host β γ} {i : ModuleInput} {m : SyntheticModule} (step : ModuleStep h c i m c') :
    Asked 1 c.module.stats c'.module.stats := by
  cases step with
  | held => exact .hit _
  | built => exact .miss _

lemma LoadStep.asked {h : Host β γ} {m : SyntheticModule} {outcome : LoadOutcome γ} (step : LoadStep h c m outcome c') :
    Asked 1 c.load.stats c'.load.stats := by
  cases step with
  | held => exact .hit _
  | loaded => exact .miss _

lemma OutputStep.asked [Digest δ] [BEq δ] [Generator γ] {m : SyntheticModule} {outcome : LoadOutcome γ} {out : GenerationOutput}
    (step : OutputStep c model m outcome out c') : Asked 1 c.output.stats c'.output.stats := by
  cases step with
  | held => exact .hit _
  | dispatched => exact .miss _

end Pass

/-- Whether every stage of a pass over a number of units was counted as often as it asks its cell. -/
structure PipelineStats.Asked (units : Nat) (before after : PipelineStats) : Prop where
  fragments : StageStats.Asked units before.fragments after.fragments
  globals : StageStats.Asked 1 before.globals after.globals
  module : StageStats.Asked 1 before.module after.module
  load : StageStats.Asked 1 before.load after.load
  dispatch : StageStats.Asked 1 before.dispatch after.dispatch

/-- A pass that comes to its end asks every cell once, and that of fragments once for each unit. -/
lemma Pass.Completed.asked [Digest δ] [BEq δ] [Generator γ] {h : Host β γ} {config : Config} {model : Model}
    {c c' : PipelineCells δ γ} {out : GenerationOutput} (completed : Completed h config model c out c') :
    c.stats.Asked model.program.units.length c'.stats := by
  obtain ⟨module, load, output⟩ := completed
  -- what a stage counted stays as it is until the end
  have after_load := output.agreeOn
  have after_module := (load.agreeOn.mono fun _ => Nat.ne_of_lt).trans (after_load.mono fun _ lt => (Nat.lt_succ_of_lt lt).ne)
  have after_globals := (module.agreeOn.mono fun _ => Nat.ne_of_lt).trans (after_module.mono fun _ => Nat.lt_succ_of_lt)
  refine ⟨?fragments, ?globals, ?module, ?load, ?dispatch⟩
  case fragments =>
    change StageStats.Asked _ c.fragments.stats c'.fragments.stats
    rw [← after_globals.fragments (by decide)]
    exact asked_collectFrom _ model.program.units 0 c.fragments
  case globals =>
    change StageStats.Asked 1 c.globals.stats c'.globals.stats
    rw [← after_globals.globals (by decide)]
    exact asked_globals
  case module =>
    change StageStats.Asked 1 (c.collected config model).module.stats c'.module.stats
    rw [← (after_module.module (by decide)).1]
    exact module.asked
  case load =>
    change StageStats.Asked 1 (c.collected config model).load.stats c'.load.stats
    rw [module.agreeOn.load (by decide), ← after_load.load (by decide)]
    exact load.asked
  case dispatch =>
    change StageStats.Asked 1 (c.collected config model).output.stats c'.output.stats
    rw [(module.agreeOn.output (by decide)).1, (load.agreeOn.output (by decide)).1]
    exact output.asked

/-! ### The frame -/

/-- A crate that cannot be loaded leaves everything as it is. -/
lemma Pass.runCrate_of_error [Digest δ] [BEq δ] [Generator γ] (h : Host β γ) (config : Config) {d : Disk} {root : String}
    {e : HostError} (unread : CrateDirectory.load d config root = .error e) (s : PassState δ γ β) :
    runCrate h config d root s = (.error (.error (.host e)), s) := by
  rw [runCrate, unread]
  rfl

namespace PassCall

variable [Digest δ] [BEq δ] [Generator γ]

/-- A call that does not know its markers leaves the cells as they are. -/
lemma unchanged_of_unresolved {h : Host β γ} {config : Config} {k : PassCall β} {c : PipelineCells δ γ} {marker : String}
    (unresolved : (k.run h config c).1 = .error (.error (.markerUnresolved marker))) : (k.run h config c).2 = c := by
  obtain ⟨s, -, given⟩ | ⟨e, missing, -⟩ | ⟨model, -, reason⟩ := run_stopsFor k.program k.host _ unresolved
  · cases given
  · obtain ⟨model, -, resolved, -⟩ | ⟨-, still | ⟨model, resolved, -⟩⟩ := k.run_steps h config c
    · rw [missing] at resolved
      cases resolved
    · exact still
    · rw [missing] at resolved
      cases resolved
  · cases reason with
    | inBuild _ broken => cases broken

/-- A pass that is given up has done what it reached and nothing else, on any cells and on any host. Where the `n`-th
check stops it, what belongs to the first `n - 1` stages is what the same pass leaves of it if it is never given up, and
what belongs to the others is as before; the count is that of the same pass on a host that counts. A pass that does not
know its markers changes nothing, nor does one over a crate that cannot be loaded. A pass that comes to its end has
asked every cell once, and that of fragments once for each unit. -/
theorem abandoned_frame (h : Host β γ) (config : Config) (k : PassCall β) (c : PipelineCells δ γ) :
    let (result, c', n) := k.counted h config c
    let full := (k.run h.steadfast config c).2
    k.run h config c = (result, c') ∧
      (match result with
        | .ok _ => c.stats.Asked k.program.units.length c'.stats
        | .error (.error .cancelled) =>
          1 ≤ n ∧ n ≤ 5 ∧ c'.AgreeOn (· < n) full ∧ c'.AgreeOn (n ≤ ·) c
        | .error (.error (.markerUnresolved _)) => c' = c
        | .error _ => True) ∧
      ∀ d root s, match CrateDirectory.load d config root with
        | .ok p => (runCrate h config d root : PassM δ γ β _) s = Pass.run h config p s
        | .error e => runCrate h config d root s = (.error (.error (.host e)), s) := by
  obtain ⟨n, same⟩ := Mirrors.run h config k.program c k.host 0
  obtain ⟨-, cut⟩ := tracks_run h config k.program c k.host
  have counted : k.counted h config c = ((k.run h config c).1, (k.run h config c).2, n) := by
    rw [PassCall.counted, same]
    rfl
  -- the count is that of the mirrored pass, so the frame of the one is that of the other
  rw [same] at cut
  rw [counted]
  refine ⟨rfl, ?ends, fun d root s => ?loading⟩
  case ends =>
    obtain ⟨model, out, resolved, ends, completed⟩ | ⟨⟨stop, ends⟩, -⟩ := k.run_steps h config c
    · have asked := completed.asked
      rw [Model.program_of_ofProgram resolved] at asked
      simp only [ends]
      exact asked
    · simp only [ends]
      split
      case h_1 other => cases other
      case h_2 given =>
        cases given
        exact cut ends
      case h_3 given =>
        cases given
        exact unchanged_of_unresolved ends
      case h_4 => trivial
  case loading =>
    cases loaded : CrateDirectory.load d config root with
    | ok p =>
      simp only
      rw [runCrate, loaded]
    | error e => exact runCrate_of_error h config loaded s

/-- A host that gives up at the check whose number is its state. -/
def countdownHost : Host Nat Memoryless where
  poll s := (s == 1, s - 1)
  compile r s := (willing.compile r, s)
  load m s := (willing.load m, s)

/-- A pass over a marked trait, given up by each of the checks, after a pass over the same trait with another name. -/
theorem abandoned_frame_everyCheck :
    let text (name : String) := "#[microgen_sdk::micro_generator]\npub trait " ++ name ++ " {}\n"
    let c : PipelineCells Transcript Memoryless := .after countdownHost .default [⟨built (text "A"), 0⟩]
    ∀ n ∈ [1, 2, 3, 4, 5], let k : PassCall Nat := ⟨built (text "B"), n⟩
      ∃ c', k.counted countdownHost .default c = (.error (.error .cancelled), c', n) ∧
        c'.AgreeOn (· < n) (k.run countdownHost.steadfast .default c).2 ∧ c'.AgreeOn (n ≤ ·) c := by
  intro text c n hn k
  have computed : ∀ n ∈ [1, 2, 3, 4, 5], let k : PassCall Nat := ⟨built (text "B"), n⟩
      (match (k.counted countdownHost .default c).1 with
        | .error (.error .cancelled) => true
        | _ => false) = true ∧ (k.counted countdownHost .default c).2.2 = n := by decide +kernel
  obtain ⟨given, count⟩ := computed n hn
  have frame := abandoned_frame countdownHost .default k c
  generalize k.counted countdownHost .default c = counted at given count frame ⊢
  obtain ⟨result, c', n'⟩ := counted
  obtain rfl : n' = n := count
  simp only at given frame
  split at given
  case h_1 => exact ⟨c', rfl, frame.2.1.2.2⟩
  case h_2 => cases given

end PassCall

end SourceGen
