import SourceGen.Proofs.Pipeline.Epochs
import SourceGen.Proofs.Pipeline.Repeat

/-!
# Whose output a pass returns

The cell of the output is asked for the summaries of the program and for the epoch of the module. What it answers
is the output of a program with these summaries, under the current module and what was loaded from it
(`PipelineCells.Answers`, which every call keeps). Summaries do not contain the name of the crate, and the module of a
unit only as its joined names. So the output of a pass is that of its own program if no other known program has its
texts, and otherwise that of whichever of them was put out first (`PipelineCells.output_of_sameTexts`).
-/

namespace SourceGen

open SourceGen.Pass

variable {δ γ β : Type}

namespace PipelineCells

variable [Digest δ] [Generator γ]

/-- Whether an output is that of a known program with given summaries, under a module and what was loaded from it. -/
def OutputFrom (known : List Program) (fingerprint layout : δ) (m : SyntheticModule) (outcome : LoadOutcome γ)
    (out : GenerationOutput) : Prop :=
  ∃ q ∈ known, ∃ model, Model.ofProgram q = .ok model ∧ q.fingerprint = fingerprint ∧ q.layout = layout ∧
    out = outputOf model m outcome

/-- How the output that cells remember hangs together with what they have loaded, and both with the current module. -/
structure Answers (known : List Program) (c : PipelineCells δ γ) : Prop where
  module : ∀ m, c.currentModule = some m → m.epoch.number ≤ c.epoch.number
  /-- Nothing is loaded in an epoch after that of the current module. -/
  load : ∀ e outcome, c.load.entry = some (e, outcome) → ∃ m, c.currentModule = some m ∧ e.number ≤ m.epoch.number
  /-- Nothing is put out in an epoch after that of what is loaded, and what is put out in the epoch of the current
  module is the output of a known program under it. -/
  output : ∀ key out, c.output.entry = some (key, out) → ∃ e outcome, c.load.entry = some (e, outcome) ∧
    key.2.2.number ≤ e.number ∧ ∀ m, c.currentModule = some m → m.epoch = key.2.2 →
      OutputFrom known key.1 key.2.1 m outcome out

variable {known : List Program} {c c' : PipelineCells δ γ} {m : SyntheticModule} {outcome : LoadOutcome γ}
  {out : GenerationOutput}

lemma answers_start : (start : PipelineCells δ γ).Answers known where
  module := nofun
  load := nofun
  output := nofun

namespace Answers

lemma congr (inv : c.Answers known) (current : c'.currentModule = c.currentModule)
    (load : c'.load.entry = c.load.entry) (output : c'.output.entry = c.output.entry)
    (epoch : c.epoch.number ≤ c'.epoch.number) : c'.Answers known where
  module m there := (inv.module m (current ▸ there)).trans epoch
  load e outcome entry := current ▸ inv.load e outcome (load ▸ entry)
  output key out entry := current ▸ load ▸ inv.output key out (output ▸ entry)

/-- A build that comes to its end makes all that was loaded or put out a matter of older epochs. -/
lemma built (inv : c.Answers known) {i : ModuleInput} (epoch : m.epoch = c.epoch.next) :
    (c.built i m).Answers known where
  module m' there := by
    cases there
    exact epoch ▸ Nat.le_refl _
  load e outcome entry := by
    obtain ⟨before, current, below⟩ := inv.load e outcome entry
    have older := below.trans (inv.module before current)
    exact ⟨m, rfl, epoch ▸ Nat.le_succ_of_le older⟩
  output key out entry := by
    obtain ⟨e, outcome, entry, below, -⟩ := inv.output key out entry
    obtain ⟨before, current, older⟩ := inv.load e outcome entry
    have older := (below.trans older).trans (inv.module before current)
    refine ⟨e, outcome, entry, below, fun m' there same => ?_⟩
    cases there
    rw [← same, epoch] at older
    exact absurd older (Nat.not_succ_le_self _)

/-- What is loaded anew was not loaded before, so nothing was put out under it. -/
lemma loaded (inv : c.Answers known) (current : c.currentModule = some m) (new : c.load.held? m.epoch = none) :
    (c.loaded m outcome).Answers known where
  module := inv.module
  load e outcome' entry := by
    cases entry
    exact ⟨m, current, Nat.le_refl _⟩
  output key out entry := by
    obtain ⟨e, before, entry, below, -⟩ := inv.output key out entry
    obtain ⟨m', current', older⟩ := inv.load e before entry
    rw [current] at current'
    cases current'
    refine ⟨m.epoch, outcome, rfl, below.trans older, fun m' there same => ?_⟩
    change c.currentModule = some m' at there
    rw [current] at there
    cases there
    -- the epoch of the entry would be that of the module, and the cell would have it
    have held : e = m.epoch := by
      obtain ⟨n⟩ := e
      exact congrArg Epoch.mk (Nat.le_antisymm older ((congrArg Epoch.number same).trans_le below))
    rw [Memo.held?, entry, held] at new
    simp at new

/-- What is put out is remembered for the summaries of its program. -/
lemma dispatched [BEq δ] (inv : c.Answers known) (current : c.currentModule = some m)
    (entry : c.load.entry = some (m.epoch, outcome)) {fingerprint layout : δ}
    (own : OutputFrom known fingerprint layout m outcome out) (n : Nat) :
    { c with
      output := c.output.miss.fill (fingerprint, layout, m.epoch) out
      instantiations := n }.Answers known where
  module := inv.module
  load := inv.load
  output key out' entry' := by
    cases entry'
    refine ⟨m.epoch, outcome, entry, Nat.le_refl _, fun m' there _ => ?_⟩
    change c.currentModule = some m' at there
    rw [current] at there
    cases there
    exact own

end Answers

end PipelineCells

/-! ### Calls -/

/-- The programs of calls in a row and of a further one are among the programs of them all. -/
lemma PassCall.mem_programs (past : List (PassCall β)) (k : PassCall β) :
    (∀ k' ∈ past, k'.program ∈ (past ++ [k]).map (·.program)) ∧ k.program ∈ (past ++ [k]).map (·.program) :=
  ⟨fun _ hk' => List.mem_map_of_mem (List.mem_append_left [k] hk'),
    List.mem_map_of_mem (List.mem_append_right past (List.mem_singleton_self k))⟩

namespace Pass

open PipelineCells

variable [Digest δ] [Generator γ] {h : Host β γ} {config : Config} {known : List Program} {model : Model}
  {m : SyntheticModule} {outcome : LoadOutcome γ} {out : GenerationOutput} {c c' : PipelineCells δ γ}

/-- The stage of the module answers the module that is then current. -/
lemma ModuleStep.answers {i : ModuleInput} (step : ModuleStep h c i m c') (inv : c.Answers known) :
    c'.Answers known ∧ c'.currentModule = some m := by
  cases step with
  | held held =>
    obtain ⟨cached, entry, -⟩ := Memo.entry_of_held? held
    exact ⟨inv.congr rfl rfl rfl (Nat.le_refl _), congrArg (Option.map Prod.snd) entry⟩
  | built new made => exact ⟨inv.built made.stamped.1, rfl⟩

/-- The stage of loading answers what is then loaded in the epoch of the current module. -/
lemma LoadStep.answers (step : LoadStep h c m outcome c') (inv : c.Answers known)
    (current : c.currentModule = some m) :
    c'.Answers known ∧ c'.currentModule = some m ∧ c'.load.entry = some (m.epoch, outcome) := by
  cases step with
  | held held =>
    obtain ⟨e, entry, same⟩ := Memo.entry_of_held? held
    obtain rfl := eq_of_beq same
    exact ⟨inv.congr rfl rfl rfl (Nat.le_refl _), current, entry⟩
  | loaded new => exact ⟨inv.loaded current new, current, rfl⟩

variable [BEq δ]

/-- The stage of the output answers for a known program with the same summaries. -/
lemma OutputStep.answers [LawfulBEq δ] (step : OutputStep c model m outcome out c') (inv : c.Answers known)
    (hk : model.program ∈ known) (resolved : Model.ofProgram model.program = .ok model)
    (current : c.currentModule = some m) (entry : c.load.entry = some (m.epoch, outcome)) :
    c'.Answers known ∧ OutputFrom known (model.program.fingerprint : δ) model.program.layout m outcome out := by
  cases step with
  | held held =>
    obtain ⟨key, there, same⟩ := Memo.entry_of_held? held
    obtain rfl := eq_of_beq same
    obtain ⟨e, outcome', entry', -, from_known⟩ := inv.output _ _ there
    rw [entry] at entry'
    cases entry'
    exact ⟨inv.congr rfl rfl rfl (Nat.le_refl _), from_known m current rfl⟩
  | dispatched new =>
    have own : OutputFrom known (model.program.fingerprint : δ) model.program.layout m outcome
        (outputOf model m outcome) := ⟨model.program, hk, model, resolved, rfl, rfl, rfl⟩
    exact ⟨inv.dispatched current entry own _, own⟩

variable {c₁ c₂ : PipelineCells δ γ}

lemma answers_loaded (inv : c.Answers known)
    (module : ModuleStep h (c.collected config model) (c.input config model) m c₁) (load : LoadStep h c₁ m outcome c₂) :
    c₂.Answers known ∧ c₂.currentModule = some m ∧ c₂.load.entry = some (m.epoch, outcome) := by
  have collected : (c.collected config model).Answers known := inv.congr rfl rfl rfl (Nat.le_refl _)
  obtain ⟨inv₁, current⟩ := module.answers collected
  exact load.answers inv₁ current

/-- A pass that comes to its end answers for a known program with the same summaries. -/
lemma Completed.answers [LawfulBEq δ] (completed : Completed h config model c out c') (inv : c.Answers known)
    (hk : model.program ∈ known) (resolved : Model.ofProgram model.program = .ok model) :
    c'.Answers known ∧ ∃ m outcome, c'.currentModule = some m ∧ c'.load.entry = some (m.epoch, outcome) ∧
      OutputFrom known (model.program.fingerprint : δ) model.program.layout m outcome out := by
  obtain @⟨m, outcome, _, c₁, c₂, _, module, load, output⟩ := completed
  obtain ⟨inv₂, current, entry⟩ := answers_loaded inv module load
  obtain ⟨inv₃, own⟩ := output.answers inv₂ hk resolved current entry
  refine ⟨inv₃, m, outcome, ?_, ?_, own⟩
  · cases output <;> exact current
  · cases output <;> exact entry

lemma Stopped.answers (stopped : Stopped h config model c c') (inv : c.Answers known) : c'.Answers known := by
  cases stopped with
  | afterFragments => exact inv.congr rfl rfl rfl (Nat.le_refl _)
  | afterGlobals => exact inv.congr rfl rfl rfl (Nat.le_refl _)
  | inBuild => exact inv.congr rfl rfl rfl (Nat.le_succ _)
  | afterModule module => exact (module.answers (inv.congr rfl rfl rfl (Nat.le_refl _))).1
  | afterLoad module load => exact (answers_loaded inv module load).1

end Pass

namespace PipelineCells

variable [Digest δ] [BEq δ] [LawfulBEq δ] [Generator γ] {h : Host β γ} {config : Config} {known : List Program}
  {c : PipelineCells δ γ}

lemma Answers.calls (inv : c.Answers known) {ks : List (PassCall β)} (sub : ∀ k ∈ ks, k.program ∈ known) :
    (ks.foldl (fun c k => (k.run h config c).2) c).Answers known := by
  induction ks generalizing c with
  | nil => exact inv
  | cons k ks ih =>
    have sub_rest : ∀ k' ∈ ks, k'.program ∈ known := fun k' hk' => sub k' (List.mem_cons_of_mem k hk')
    refine ih ?_ sub_rest
    obtain ⟨model, out, resolved, -, completed⟩ | ⟨-, same | ⟨model, -, stopped⟩⟩ := k.run_steps h config c
    · have program := Model.program_of_ofProgram resolved
      exact (completed.answers inv (program ▸ sub k List.mem_cons_self) (program ▸ resolved)).1
    · change (k.run h config c).2.Answers known
      exact same.symm ▸ inv
    · exact stopped.answers inv

/-! ### A pass after another -/

section Later

variable {model model' : Model} {out out' : GenerationOutput} {c' c'' : PipelineCells δ γ}

omit [Generator γ] in
/-- The stage of the output leaves a cell that has the output for what it was asked for. -/
lemma held?_of_outputStep [Generator γ] {m : SyntheticModule} {outcome : LoadOutcome γ}
    (step : OutputStep c model m outcome out c') :
    c'.output.held? (model.program.fingerprint, model.program.layout, m.epoch) = some out := by
  cases step with
  | held known => exact known
  | dispatched new => simp only [Memo.held?, Memo.fill, beq_self_eq_true, if_true]

/-- A pass after another one over a program with the same texts returns what that one returned, on any host. -/
lemma eq_of_completed {h' : Host β γ} (completed : Completed h config model c out c')
    (later : Completed h' config model' c' out' c'') (same : model.program.SameTexts model'.program)
    (distinct : (model.program.units.map unitKey).Nodup) : out' = out := by
  -- the later pass is handed the same input, so it is answered by the module and the output of the first
  have input : c'.input config model' = c.input config model := by
    have units : model.program.units.map (fun u => (unitKey u, (u.fingerprint : δ))) =
        model'.program.units.map fun u => (unitKey u, u.fingerprint) :=
      same.map_eq fun u v alike => by
        rw [unitKey, unitKey, alike.path, SourceUnit.fingerprint, SourceUnit.fingerprint, alike.parsed]
    exact input_of_completed completed units.symm same.references.symm same.summaries_eq.1.symm distinct
  obtain @⟨m, outcome, _, c₁, c₂, _, module, load, output⟩ := completed
  have module_held : c'.module.held? (c.input config model) = some m := by
    have kept := module.held?
    cases load <;> cases output <;> exact kept
  have output_held := held?_of_outputStep output
  obtain @⟨m', outcome', _, c₃, c₄, _, module', load', output'⟩ := later
  have before : c₄.output = (c'.collected config model').output := output_of_steps module' load'
  rw [input] at module'
  obtain ⟨rfl, -⟩ := module'.eq_of_held module_held
  obtain ⟨tokens, texts⟩ : (model.program.fingerprint : δ) = _ ∧ (model.program.layout : δ) = _ := same.summaries_eq
  rw [tokens, texts] at output_held
  change (c'.collected config model').output.held? _ = some out at output_held
  rw [← before] at output_held
  cases output' with
  | held known => exact Option.some.inj (known.symm.trans output_held)
  | dispatched new => exact absurd (output_held.symm.trans new) (Option.some_ne_none out)

end Later

omit [BEq δ] [LawfulBEq δ] [Digest δ] in
lemma outputOf_congr {model model' : Model} (index : NodeIndex.ofModel model = NodeIndex.ofModel model')
    (m : SyntheticModule) (outcome : LoadOutcome γ) : outputOf model m outcome = outputOf model' m outcome := by
  simp only [outputOf, index]

/-- Over any calls of a pipeline with programs that were parsed from their texts, on any host, however each of the calls
ends: a further call that comes to its end returns the output of a known program with its texts and references under
the current module and what was loaded from it. That is the output of its own program if known programs with its texts
have its nodes and its context; but a later program with its texts is then handed the same output, whatever its nodes
and its context are. -/
theorem output_of_sameTexts (inj : Digest.Injective δ) {past : List (PassCall β)} {k : PassCall β}
    (parsed : ∀ p ∈ (past ++ [k]).map (·.program), p.IsParsed) {out : GenerationOutput}
    (done : (k.run h config (after h config past : PipelineCells δ γ)).1 = .ok out) :
    let c' : PipelineCells δ γ := (k.run h config (after h config past)).2
    ∃ model m outcome, Model.ofProgram k.program = .ok model ∧ c'.currentModule = some m ∧
      c'.load.entry = some (m.epoch, outcome) ∧ (∃ s, (h.load m s).1 = outcome) ∧
      (∃ q ∈ (past ++ [k]).map (·.program), ∃ model', Model.ofProgram q = .ok model' ∧ q.SameTexts k.program ∧
        out = outputOf model' m outcome) ∧
      ((∀ q ∈ past.map (·.program), ∀ model', Model.ofProgram q = .ok model' → q.SameTexts k.program →
        NodeIndex.ofModel model' = NodeIndex.ofModel model) → out = outputOf model m outcome) ∧
      ((k.program.units.map unitKey).Nodup → ∀ (h' : Host β γ) (k' : PassCall β) (out' : GenerationOutput),
        k.program.SameTexts k'.program → (k'.run h' config c').1 = .ok out' → out' = out) := by
  intro c'
  obtain ⟨sub, hk⟩ := PassCall.mem_programs past k
  have inv : (after h config past : PipelineCells δ γ).Answers ((past ++ [k]).map (·.program)) := answers_start.calls sub
  have chronicle : (after h config past : PipelineCells δ γ).Chronicle h _ := chronicle_start.calls past
  obtain ⟨model, out', resolved, ended, completed⟩ | ⟨⟨e, stop⟩, -⟩ := k.run_steps h config (after h config past : PipelineCells δ γ)
  · rw [done] at ended
    cases ended
    have program := Model.program_of_ofProgram resolved
    obtain ⟨-, m, outcome, current, entry, q, hq, model', resolved', tokens, texts, own⟩ :=
      completed.answers inv (program.symm ▸ hk) (program.symm ▸ resolved)
    -- the current module and what is loaded are also those of the chronicle
    obtain ⟨-, m', outcome', current', entry', answer, -⟩ := completed.chronicle chronicle
    rw [current] at current'
    cases current'
    rw [entry] at entry'
    cases entry'
    rw [program] at tokens texts
    have same : q.SameTexts k.program := Program.sameTexts_of_summaries inj (parsed q hq) (parsed _ hk) tokens texts
    refine ⟨model, m, outcome, resolved, current, entry, answer, ⟨q, hq, model', resolved', same, own⟩, ?_, ?_⟩
    · intro alike
      rw [List.map_append] at hq
      cases List.mem_append.mp hq with
      | inl before => exact own.trans (outputOf_congr (alike q before model' resolved' same) m outcome)
      | inr self =>
        obtain rfl := List.mem_singleton.mp self
        rw [resolved] at resolved'
        cases resolved'
        exact own
    · intro distinct h' k' out' same' ended
      obtain ⟨later, out'', resolved'', ended', completed'⟩ | ⟨⟨e, stop⟩, -⟩ := k'.run_steps h' config c'
      · rw [ended] at ended'
        cases ended'
        rw [← program] at same' distinct
        rw [← Model.program_of_ofProgram resolved''] at same'
        exact eq_of_completed completed completed' same' distinct
      · rw [ended] at stop
        cases stop
  · rw [done] at stop
    cases stop

end PipelineCells

namespace PassCall

/-- A generator that puts the name of the crate that it is told about into a source. -/
structure CrateTeller where

instance : Generator CrateTeller where
  prepare g _ := .ok g
  accept g _ n := (.ok (n.kind == .trait), g)
  produce _ c _ := .offer "crate" c.crateName fun _ => .done

/-- A host whose compiler always leaves an image and whose loader serves that generator; its state is whether it gives
up. -/
def tellingHost : Host Bool CrateTeller where
  poll s := (s, s)
  compile _ s := (.finished (.ok ⟨some [0], []⟩), s)
  load m s := (Loading.serve [⟨"G", .generator ⟨⟩⟩] m, s)

/-- A crate of one unit with a marked trait. -/
def crateCalled (name : String) : ProgramBuilder :=
  let text := "use microgen_sdk::micro_generator;\n#[micro_generator]\npub trait G {}\n"
  (ProgramBuilder.new name "/sdk").unit "src/lib.rs" text

def called (name : String) : PassCall Bool := ⟨(crateCalled name).build.toOption.getD ⟨name, [], []⟩, false⟩

lemma isParsed_called (name : String) : (called name).program.IsParsed := by
  unfold called
  cases built : (crateCalled name).build with
  | ok p => exact fun u hu => ((Program.eq_of_build built).2.2 u hu).1
  | error e => exact fun _ hu => absurd hu List.not_mem_nil

end PassCall

namespace PipelineCells

/-- A crate and the same one under another name: the second call is about the current module, and its output is that
of one of the two crates. -/
theorem output_of_sameTexts_renamedCrate :
    let k := PassCall.called "beta"
    let c : PipelineCells Transcript PassCall.CrateTeller := after PassCall.tellingHost .default [PassCall.called "alpha"]
    ∃ out, (k.run PassCall.tellingHost .default c).1 = .ok out ∧
      ∃ (m : SyntheticModule) (outcome : LoadOutcome PassCall.CrateTeller),
        (k.run PassCall.tellingHost .default c).2.currentModule = some m ∧
        ∃ q ∈ [(PassCall.called "alpha").program, k.program], ∃ model', Model.ofProgram q = .ok model' ∧
          q.SameTexts k.program ∧ out = outputOf model' m outcome := by
  intro k c
  have ends : (k.run PassCall.tellingHost .default c).1.isOk = true := by decide +kernel
  cases done : (k.run PassCall.tellingHost .default c).1 with
  | ok out =>
    have parsed : ∀ p ∈ ([PassCall.called "alpha"] ++ [k]).map (·.program), p.IsParsed := by
      intro p hp
      obtain ⟨k', hk', rfl⟩ := List.mem_map.mp hp
      obtain rfl | last := List.mem_cons.mp hk'
      · exact PassCall.isParsed_called "alpha"
      · exact List.mem_singleton.mp last ▸ PassCall.isParsed_called "beta"
    obtain ⟨model, m, outcome, -, current, -, -, own, -, -⟩ := output_of_sameTexts Transcript.injective parsed done
    exact ⟨out, rfl, m, outcome, current, own⟩
  | error e =>
    rw [done] at ends
    cases ends

/-- A crate and the same one under another name: the second call returns the output of the first crate, which is not
what a first call with the second one returns. -/
theorem output_ne_renamedCrate :
    let k := PassCall.called "beta"
    let c : PipelineCells Transcript PassCall.CrateTeller := after PassCall.tellingHost .default [PassCall.called "alpha"]
    ((k.run PassCall.tellingHost .default c).1.toOption.map (·.sources.map (·.text)) = some ["alpha"]) ∧
      ((k.run PassCall.tellingHost .default (start : PipelineCells Transcript _)).1.toOption.map
        (·.sources.map (·.text)) = some ["beta"]) ∧
      (k.run PassCall.tellingHost .default c).2.stats.dispatch = ⟨1, 1⟩ := by
  decide +kernel

end PipelineCells

end SourceGen
