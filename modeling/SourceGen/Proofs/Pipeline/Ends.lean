import SourceGen.Proofs.Assembly.Modules
import SourceGen.Proofs.Pipeline.Fragments
import SourceGen.Proofs.Pipeline.Hosts

/-!
# How a pass ends

A pass that has no output was given up, does not know its markers, or was broken off in the build of its module:
the compiler crashed, or there is no text of the crate. `Ends` lists these reasons, and every stop of a pass has one
of them (`PassCall.ends_of_error`). There is no text of a crate if a module of it cannot be declared under the name
that its file or directory has, or if syntax that was kept as tokens goes into it (`Assembly.exists_fault_iff`).
-/

namespace SourceGen

open SourceGen.Pass

variable {δ γ β : Type}

/-- A program that has no model does not reference a crate that declares the markers. -/
lemma Model.error_of_ofProgram {p : Program} {e : PassError} (h : Model.ofProgram p = .error e) :
    ∃ marker, e = .markerUnresolved marker := by
  unfold Model.ofProgram at h
  cases table : MarkerTable.ofProgram p with
  | error stop =>
    rw [table] at h
    cases h
    simp only [MarkerTable.ofProgram] at table
    split at table
    case isTrue =>
      cases table
      exact ⟨_, rfl⟩
    case isFalse => cases table
  | ok markers =>
    rw [table] at h
    cases h

namespace Fragment

/-- The fragments of a unit stand in its module or in one below it. -/
lemma modulePath_of_mem_ofUnit {m : Model} {index : Nat} {u : SourceUnit} {f : Fragment} (hf : f ∈ ofUnit m index u) :
    u.modulePath <+: f.modulePath := by
  obtain ⟨_, siblings, i, taken, place⟩ := exists_of_mem_belowAll _ _ _ hf
  obtain ⟨_, _, _, _, _, -, -, rfl⟩ := exists_of_ofItem? taken
  obtain rfl | ⟨path, items, innerAttrs, inside, rfl⟩ := place
  · exact List.prefix_rfl
  · exact inside

end Fragment

/-! ### Why a pass stops -/

namespace Pass

/-- Why a build is broken off. -/
inductive BreaksOff (h : Host β γ) (e : Epoch) (i : ModuleInput) : PassStop → Prop
  | unassembled {f : AssemblyFault} (bare : i.fragments.isEmpty = false)
      (fault : assemble i.fragments i.globals = .error f) : BreaksOff h e i (.unassembled f)
  | crashed {crate : AssembledCrate} {s : β} (bare : i.fragments.isEmpty = false)
      (assembled : assemble i.fragments i.globals = .ok crate)
      (answer : (h.compile (.ofCrate e crate i.references) s).1 = .crashed) : BreaksOff h e i .crashed

/-- Why a pass over the program of a model stops. -/
inductive Ends [Digest δ] [BEq δ] (h : Host β γ) (config : Config) (model : Model) (c : PipelineCells δ γ) :
    PassStop → Prop
  | cancelled {s : β} (gives : (h.poll s).1 = true) : Ends h config model c (.error .cancelled)
  | inBuild {stop : PassStop} (new : (c.collected config model).module.held? (c.input config model) = none)
      (broken : BreaksOff h c.epoch.next (c.input config model) stop) : Ends h config model c stop

/-- Whether a step from given cells on stops for certain reasons only. -/
def StopsFor {α : Type} (x : PassM δ γ β α) (c : PipelineCells δ γ) (why : PassStop → Prop) : Prop :=
  ∀ host stop, (x ⟨c, host⟩).1 = .error stop → why stop

variable {α α' : Type} {h : Host β γ} {c : PipelineCells δ γ} {why : PassStop → Prop}

/-- Steps in a row stop for the reasons of each. -/
lemma StopsFor.bind {x : PassM δ γ β α} {f : α → PassM δ γ β α'} {good : α → PipelineCells δ γ → Prop}
    {stopped : PipelineCells δ γ → Prop} (first : StopsFor x c why) (leads : Leads x c good stopped)
    (next : ∀ a c', good a c' → StopsFor (f a) c' why) : StopsFor (x >>= f) c why := by
  intro host stop ends
  have first := first host
  have leads := leads host
  rw [bind_apply] at ends
  split at leads
  case h_1 a s eq =>
    rw [eq] at ends
    exact next a s.cells leads s.host stop ends
  case h_2 e s eq =>
    rw [eq] at ends first
    cases ends
    exact first _ rfl

lemma stopsFor_of_leads {x : PassM δ γ β α} {good : α → PipelineCells δ γ → Prop}
    (leads : Leads x c good fun _ => False) : StopsFor x c why := by
  intro host stop ends
  have leads := leads host
  split at leads
  case h_1 a s eq =>
    rw [eq] at ends
    cases ends
  case h_2 => exact leads.elim

lemma StopsFor.after {x : PassM δ γ β α} {f : α → PassM δ γ β α'} {good : α → PipelineCells δ γ → Prop}
    (leads : Leads x c good fun _ => False) (next : ∀ a c', good a c' → StopsFor (f a) c' why) :
    StopsFor (x >>= f) c why :=
  .bind (stopsFor_of_leads leads) leads next

lemma StopsFor.check {f : Unit → PassM δ γ β α'} (gives : ∀ s, (h.poll s).1 = true → why (.error .cancelled))
    (next : StopsFor (f ()) c why) : StopsFor (Pass.check h >>= f) c why := by
  have leads : Leads (Pass.check h : PassM δ γ β Unit) c (fun _ c' => c = c') fun _ => True := leads_check h trivial
  refine .bind ?_ leads ?_
  · intro host stop ends
    have asked : (ask h.poll : PassM δ γ β Bool) ⟨c, host⟩ = (.ok (h.poll host).1, ⟨c, (h.poll host).2⟩) := rfl
    rw [Pass.check, bind_apply, asked] at ends
    cases given : (h.poll host).1 with
    | false =>
      rw [given] at ends
      cases ends
    | true =>
      rw [given] at ends
      cases ends
      exact gives host given
  · rintro _ _ rfl
    exact next

lemma stopsFor_throw {stop : PassStop} (reason : why stop) :
    StopsFor (throw stop : PassM δ γ β α) c why := by
  intro host stop' ends
  cases ends
  exact reason

lemma stopsFor_pure (a : α) : StopsFor (pure a : PassM δ γ β α) c why := nofun

lemma buildModule_stopsFor (e : Epoch) (i : ModuleInput) :
    StopsFor (buildModule h e i : PassM δ γ β _) c (BreaksOff h e i) := by
  unfold buildModule
  split
  case isTrue => exact stopsFor_pure _
  case isFalse bare =>
    have bare : i.fragments.isEmpty = false := Bool.not_eq_true _ ▸ bare
    split
    case h_1 f fault => exact stopsFor_throw (.unassembled bare fault)
    case h_2 crate assembled =>
      have asked : Leads (ask (h.compile (.ofCrate e crate i.references)) : PassM δ γ β _) c
          (fun answer _ => ∃ s, (h.compile (.ofCrate e crate i.references) s).1 = answer) fun _ => False :=
        leads_ask fun s => ⟨s, rfl⟩
      refine .after asked ?_
      rintro answer c' ⟨s, answers⟩
      cases answer with
      | finished result => exact stopsFor_pure _
      | crashed => exact stopsFor_throw (.crashed bare assembled answers)

/-- The stage of the module stops if it builds a module and the build is broken off. -/
lemma moduleStage_stopsFor (i : ModuleInput) :
    StopsFor (moduleStage h i : PassM δ γ β _) c
      (fun stop => c.module.held? i = none ∧ BreaksOff h c.epoch.next i stop) := by
  have look : Leads (cells : PassM δ γ β _) c (fun a c' => a = c ∧ c' = c) fun _ => False := leads_cells ⟨rfl, rfl⟩
  refine .after look ?_
  rintro _ _ ⟨rfl, rfl⟩
  split
  case h_1 => exact nofun
  case h_2 new =>
    have began (f : PipelineCells δ γ → PipelineCells δ γ) (c : PipelineCells δ γ) :
        Leads (change f : PassM δ γ β Unit) c (fun _ _ => True) fun _ => False := leads_change trivial
    refine .after (began _ _) fun _ c' _ => ?_
    refine .bind (fun host stop ends => ⟨new, buildModule_stopsFor _ i host stop ends⟩) (buildModule_steps _ i) ?_
    exact fun _ _ _ => nofun

variable [Digest δ] [BEq δ] [Generator γ] {config : Config} {model : Model}

lemma ofModel_stopsFor : StopsFor (ofModel h config model : PassM δ γ β _) c (Ends h config model c) := by
  have gives (s : β) : (h.poll s).1 = true → Ends h config model c (.error .cancelled) := .cancelled
  refine .after (fragmentStage_steps model) ?_
  rintro _ _ ⟨rfl, rfl⟩
  refine .check gives (.after (globalStage_steps model) ?_)
  rintro _ _ ⟨rfl, rfl⟩
  refine .check gives (.bind ?_ (moduleStage_steps (c.input config model)) ?_)
  · intro host stop ends
    obtain ⟨new, broken⟩ := moduleStage_stopsFor _ host stop ends
    exact .inBuild new broken
  · intro m c₁ _
    refine .check gives (.after (loadStage_steps m) ?_)
    intro outcome c₂ _
    exact .check gives (stopsFor_of_leads (outputStage_steps model m outcome))

/-- A pass stops because it is given up, because it does not know its markers, or for the reasons of a pass over
the program of its model. -/
lemma run_stopsFor (p : Program) : StopsFor (run h config p : PassM δ γ β _) c fun stop =>
    (∃ s, (h.poll s).1 = true ∧ stop = .error .cancelled) ∨
      (∃ e, Model.ofProgram p = .error e ∧ stop = .error e) ∨
      ∃ model, Model.ofProgram p = .ok model ∧ Ends h config model c stop := by
  rw [run_eq]
  refine .check (fun s gives => .inl ⟨s, gives, rfl⟩) ?_
  cases resolved : Model.ofProgram p with
  | error e => exact stopsFor_throw (.inr (.inl ⟨e, rfl, rfl⟩))
  | ok model => exact fun host stop ends => .inr (.inr ⟨model, rfl, ofModel_stopsFor host stop ends⟩)

end Pass

/-! ### Passes that cannot write their crate -/

/-- Whether a pass over the program of a model has to build a module whose crate has no text: a fragment stands in a
module that cannot be declared, or the file of the crate has no layout. -/
structure PipelineCells.Unwritable [Digest δ] [BEq δ] (c : PipelineCells δ γ) (config : Config) (model : Model) :
    Prop where
  new : (c.collected config model).module.held? (c.input config model) = none
  bare : (c.input config model).fragments.isEmpty = false
  fault : (∃ f ∈ (c.input config model).fragments, ∃ step ∈ f.modulePath, Assembly.isModuleName step = false) ∨
    (Assembly.file (.ofFragments (c.input config model).fragments) (c.input config model).globals).formatted? = none

namespace PipelineCells

variable [Digest δ] [BEq δ] [LawfulBEq δ] {config : Config} {model : Model}

/-- The fragments of a first pass over units with paths of their own are those of the program. -/
lemma fragments_start (distinct : (model.program.units.map unitKey).Nodup) :
    ((start : PipelineCells δ γ).input config model).fragments = Fragment.ofModel model := by
  refine ((collectFrom_distinct model _ _ distinct 0).1).trans ?_
  rw [Fragment.ofModel, List.flatMap_def]
  rfl

/-- A marked type in a file whose path does not name modules cannot be written. -/
lemma unwritable_of_undeclarable (distinct : (model.program.units.map unitKey).Nodup) {e : SourceUnit × Nat}
    (he : e ∈ model.program.units.zipIdx) (marked : Fragment.ofUnit model e.2 e.1 ≠ []) {step : String}
    (there : step ∈ e.1.modulePath) (undeclarable : Assembly.isModuleName step = false) :
    (start : PipelineCells δ γ).Unwritable config model := by
  obtain ⟨f, hf⟩ := List.exists_mem_of_ne_nil _ marked
  have hf' : f ∈ ((start : PipelineCells δ γ).input config model).fragments := by
    rw [fragments_start distinct]
    exact List.mem_flatMap.mpr ⟨e, he, hf⟩
  refine ⟨rfl, List.isEmpty_eq_false_iff_exists_mem.mpr ⟨f, hf'⟩, .inl ⟨f, hf', step, ?_, undeclarable⟩⟩
  exact (Fragment.modulePath_of_mem_ofUnit hf).subset there

end PipelineCells

namespace PassCall

variable [Digest δ] [BEq δ] [Generator γ] {h : Host β γ} {config : Config} {k : PassCall β} {c : PipelineCells δ γ}
  {model : Model}

/-- Why a call has no output, if the compiler does not crash. -/
lemma reason_of_error (sound : ∀ r s, (h.compile r s).1 ≠ .crashed) {stop : PassStop}
    (stopped : (k.run h config c).1 = .error stop) :
    (stop = .error .cancelled ∧ ∃ s, (h.poll s).1 = true) ∨
      (∃ marker, stop = .error (.markerUnresolved marker) ∧
        Model.ofProgram k.program = .error (.markerUnresolved marker)) ∨
      ∃ f model, stop = .unassembled f ∧ Model.ofProgram k.program = .ok model ∧ c.Unwritable config model := by
  obtain ⟨s, gives, rfl⟩ | ⟨e, unresolved, rfl⟩ | ⟨model, resolved, reason⟩ := run_stopsFor k.program k.host stop stopped
  · exact .inl ⟨rfl, s, gives⟩
  · obtain ⟨marker, rfl⟩ := Model.error_of_ofProgram unresolved
    exact .inr (.inl ⟨marker, rfl, unresolved⟩)
  · cases reason with
    | cancelled gives => exact .inl ⟨rfl, _, gives⟩
    | inBuild new broken =>
      cases broken with
      | @unassembled f bare fault =>
        exact .inr (.inr ⟨f, model, rfl, resolved, new, bare, Assembly.exists_fault_iff.mp ⟨f, fault⟩⟩)
      | crashed _ _ answer => exact absurd answer (sound _ _)

/-- A module whose crate has no text is not built. -/
lemma not_completed_of_unwritable (unwritable : c.Unwritable config model) {out : GenerationOutput}
    {c' : PipelineCells δ γ} : ¬ Completed h config model c out c' := by
  rintro ⟨module, -, -⟩
  obtain ⟨new, bare, fault⟩ := unwritable
  obtain ⟨f, fault⟩ := Assembly.exists_fault_iff.mpr fault
  -- the module is not remembered, it has fragments, and its crate is refused
  cases module with
  | held known =>
    rw [new] at known
    cases known
  | built _ made =>
    cases made with
    | empty none =>
      rw [bare] at none
      cases none
    | compiled _ assembled _ =>
      rw [fault] at assembled
      cases assembled

/-- A pass that has no output was given up, does not know its markers, or has to build a module whose crate has no
text, as long as the compiler does not crash. On a host that does not give up, it always stops in the last case; and
that is the case of a first pass over a program with a marked type in a file whose path does not name modules. -/
theorem stops_iff_unwritable [LawfulBEq δ] (sound : ∀ r s, (h.compile r s).1 ≠ .crashed) (config : Config)
    (k : PassCall β) (c : PipelineCells δ γ) :
    (∀ stop, (k.run h config c).1 = .error stop → stop = .error .cancelled ∨
        (∃ marker, stop = .error (.markerUnresolved marker) ∧
          Model.ofProgram k.program = .error (.markerUnresolved marker)) ∨
        ∃ f model, stop = .unassembled f ∧ Model.ofProgram k.program = .ok model ∧ c.Unwritable config model) ∧
      ((∀ s, (h.poll s).1 = false) → ((∃ f, (k.run h config c).1 = .error (.unassembled f)) ↔
        ∃ model, Model.ofProgram k.program = .ok model ∧ c.Unwritable config model)) ∧
      ∀ model, Model.ofProgram k.program = .ok model → (k.program.units.map unitKey).Nodup →
        ∀ e ∈ k.program.units.zipIdx, Fragment.ofUnit model e.2 e.1 ≠ [] →
          (∃ step ∈ e.1.modulePath, Assembly.isModuleName step = false) →
            (PipelineCells.start : PipelineCells δ γ).Unwritable config model := by
  refine ⟨?stops, fun asks => ⟨?only, ?always⟩, ?first⟩
  case stops => exact fun stop stopped => (reason_of_error sound stopped).imp And.left id
  case only =>
    rintro ⟨f, stopped⟩
    obtain ⟨given, -⟩ | ⟨marker, unresolved, -⟩ | ⟨f', model, -, found⟩ := reason_of_error sound stopped
    · cases given
    · cases unresolved
    · exact ⟨model, found⟩
  case always =>
    rintro ⟨model, resolved, unwritable⟩
    obtain ⟨model', out, resolved', -, completed⟩ | ⟨⟨stop, stopped⟩, -⟩ := k.run_steps h config c
    · rw [resolved] at resolved'
      cases resolved'
      exact absurd completed (not_completed_of_unwritable unwritable)
    · obtain ⟨-, s, gives⟩ | ⟨marker, -, unresolved⟩ | ⟨f, model', rfl, -⟩ := reason_of_error sound stopped
      · rw [asks s] at gives
        cases gives
      · rw [resolved] at unresolved
        cases unresolved
      · exact ⟨f, stopped⟩
  case first =>
    rintro model resolved distinct e he marked ⟨step, there, undeclarable⟩
    rw [← Model.program_of_ofProgram resolved] at distinct he
    exact PipelineCells.unwritable_of_undeclarable distinct he marked there undeclarable

def markedIn (path : String) : Program :=
  let text := "use microgen_sdk::micro_generator;\n#[micro_generator]\npub trait G {}\n"
  ((ProgramBuilder.new "host" "/sdk").unit path text).build.toOption.getD ⟨"host", [], []⟩

/-- A file with a hyphen in its name is no module, so the first pass over a program with a marked trait in it has no
output. -/
theorem stops_iff_unwritable_hyphenatedFile :
    let k : PassCall Bool := ⟨markedIn "src/my-gen.rs", false⟩
    let c : PipelineCells Transcript Memoryless := .start
    (k.program.units.map (·.modulePath)) = [["my-gen"]] ∧
      (∃ model, Model.ofProgram k.program = .ok model ∧ c.Unwritable .default model) ∧
      ∃ f, (k.run willingHost.steadfast .default c).1 = .error (.unassembled f) := by
  intro k c
  have marked : (Model.ofProgram k.program).toOption.any (fun model => k.program.units.zipIdx.any fun e =>
      !(Fragment.ofUnit model e.2 e.1).isEmpty && e.1.modulePath.any (!Assembly.isModuleName ·)) = true := by
    decide +kernel
  have placed : (k.program.units.map (·.modulePath)) = [["my-gen"]] ∧ (k.program.units.map unitKey).Nodup := by
    decide +kernel
  obtain ⟨-, stops, first⟩ := stops_iff_unwritable (h := willingHost.steadfast) (fun _ _ => nofun) .default k c
  cases resolved : Model.ofProgram k.program with
  | error e =>
    rw [resolved] at marked
    cases marked
  | ok model =>
    rw [resolved] at marked
    obtain ⟨e, he, marked⟩ := List.any_eq_true.mp marked
    simp only [Bool.and_eq_true, Bool.not_eq_true', List.any_eq_true] at marked
    obtain ⟨marked, undeclarable⟩ := marked
    have unwritable := first model resolved placed.2 e he (List.isEmpty_eq_false_iff.mp marked) undeclarable
    exact ⟨placed.1, ⟨model, rfl, unwritable⟩, (stops fun _ => rfl).mpr ⟨model, resolved, unwritable⟩⟩

-- a method without a body is kept as tokens, so a crate with it has no layout, whatever its modules are called
example :
    let p := built "use microgen_sdk::micro_generator;\n#[micro_generator]\npub struct G;\nimpl G { fn f(); }\n"
    ((Model.ofProgram p).toOption.map fun m => (assemble (Fragment.ofModel m) (.ofProgram p)).isOk) = some false := by
  decide +kernel

end PassCall

end SourceGen
