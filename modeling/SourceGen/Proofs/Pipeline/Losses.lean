import SourceGen.Host.Machine
import SourceGen.Proofs.Pipeline.Ends
import SourceGen.Proofs.Pipeline.Outputs

/-!
# Generators that are lost

A host that builds with cargo and loads with a linker can fail on its way from fragments to generators: the project
cannot be written, the build cannot be started or fails, the library is missing, cannot be read or opened, speaks another
version or hands out no table. A module that is built from fragments has an image or an error to report
(`Pass.Builds.speaks`), and a module that has one either hands out its table or leads to an output without sources and
with an error (`Pass.obtained_or_reports`). What is left is a pass that is handed no fragments: its output is empty
(`PipelineCells.reports_iff_fragments`).
-/

namespace SourceGen

open SourceGen.Pass

variable {δ γ β : Type}

/-! ### Hosts that build with cargo -/

/-- Whether a host builds with cargo on a machine, and loads with a linker, which may be others at any time. Besides, the
files of a project may be impossible to write, and so may be the file of an image. -/
structure Host.BuildsWithCargo (h : Host β γ) (machine : β → BuildMachine) (settings : β → Config) (scratch : β → String)
    (link : β → Linker γ) : Prop where
  compile : ∀ r s, (h.compile r s).1 = .finished (Cargo.compile (machine s) (settings s) (scratch s) r) ∨
    ∃ path cause, (h.compile r s).1 = .finished (.error (.scratch path cause))
  load : ∀ m s, (h.load m s).1 = Loading.loadImage (link s) m ∨
    m.image.isSome = true ∧ ∃ cause,
      (h.load m s).1 = ⟨none, [.moduleLoadFailure m.crateName (LoadError.stage cause).chain]⟩

lemma MachineHost.buildsWithCargo :
    (asHost : Host (MachineHost γ) γ).BuildsWithCargo MachineHost.machine MachineHost.config MachineHost.scratch
      MachineHost.link :=
  ⟨fun _ _ => .inl rfl, fun _ _ => .inl rfl⟩

namespace Cargo

variable {machine : BuildMachine} {config : Config} {scratch : String} {r : CompileRequest} {o : CompileOutput}

/-- A build that failed has an error to report. -/
lemma exists_error_failureMessages (messages : List CompilerMessage) (stderr : List UInt8) :
    ∃ message ∈ failureMessages messages stderr, message.level = .error := by
  unfold failureMessages
  split
  case isTrue known => simpa using known
  case isFalse => exact ⟨ofStderr stderr, List.mem_append_right _ (List.mem_singleton_self _), rfl⟩

/-- A finished run leaves an image or an error message, if it is not refused. -/
lemma image_or_error_of_settle {crateName : String} {output : ProcessOutput}
    (settled : settle machine crateName output = .ok o) :
    o.image.isSome = true ∨ ∃ message ∈ o.messages, message.level = .error := by
  unfold settle at settled
  simp only at settled
  split at settled
  case isTrue =>
    cases read : readArtifact machine crateName _ with
    | ok image =>
      rw [read] at settled
      cases settled
      exact .inl rfl
    | error e =>
      rw [read] at settled
      cases settled
  case isFalse =>
    cases settled
    exact .inr (exists_error_failureMessages _ _)

lemma image_or_error_of_compile (compiled : compile machine config scratch r = .ok o) :
    o.image.isSome = true ∨ ∃ message ∈ o.messages, message.level = .error := by
  unfold compile at compiled
  cases written : generate config scratch r with
  | error e =>
    rw [written] at compiled
    cases compiled
  | ok project =>
    rw [written] at compiled
    cases ran : machine.run (call config scratch project.1) with
    | error e =>
      simp only [bind, Except.bind, ran] at compiled
      cases compiled
    | ok output =>
      simp only [bind, Except.bind, ran] at compiled
      exact image_or_error_of_settle compiled

end Cargo

/-! ### Modules -/

/-- Whether a module has an image or an error to report. -/
def SyntheticModule.Speaks (m : SyntheticModule) : Prop :=
  m.image.isSome = true ∨ ∃ d ∈ m.diagnostics, d.isError = true

namespace Pass

variable {h : Host β γ} {machine : β → BuildMachine} {settings : β → Config} {scratch : β → String}
  {link : β → Linker γ} {e : Epoch} {i : ModuleInput} {m : SyntheticModule}

/-- A module that is built from fragments has an image or an error to report. -/
lemma Builds.speaks (cargo : h.BuildsWithCargo machine settings scratch link) (made : Builds h e i m)
    (some_fragments : i.fragments.isEmpty = false) : m.Speaks := by
  cases made with
  | empty none =>
    rw [some_fragments] at none
    cases none
  | @compiled crate s result _ _ answer =>
    cases result with
    | error failure => exact .inr ⟨_, List.mem_singleton_self _, rfl⟩
    | ok o =>
      have spoken : o.image.isSome = true ∨ ∃ message ∈ o.messages, message.level = .error := by
        obtain compiled | ⟨path, cause, refused⟩ := cargo.compile (.ofCrate e crate i.references) s
        · rw [answer] at compiled
          exact Cargo.image_or_error_of_compile (Compilation.finished.inj compiled).symm
        · rw [answer] at refused
          cases refused
      refine spoken.imp id ?_
      rintro ⟨message, there, grave⟩
      refine ⟨.ofCompiler message, List.mem_map_of_mem there, ?_⟩
      rw [Diagnostic.isError, Diagnostic.ofCompiler, grave]
      rfl

lemma Builds.eq_empty (made : Builds h e i m) (no_fragments : i.fragments.isEmpty = true) : m = .empty e := by
  cases made with
  | empty => rfl
  | compiled some_fragments =>
    rw [no_fragments] at some_fragments
    cases some_fragments

end Pass

/-! ### Tables -/

namespace Dispatch

variable [Generator γ]

lemma runNodes_nil (c : Context) (pass : PassSink) (nodes : List NodeView) :
    runNodes (γ := γ) c pass [] nodes = (pass, [], []) := by
  induction nodes generalizing pass with
  | nil => rfl
  | cons n ns ih =>
    rw [runNodes]
    simp only [runNode, ih, List.append_nil]

/-- Without generators, a dispatch calls nobody and puts out nothing. -/
lemma runTraced_nil (c : Context) (e : Epoch) (nodes : List NodeView) :
    runTraced (γ := γ) c e [] nodes = (⟨[], []⟩, []) := by
  rw [runTraced, prepareAll]
  simp only [runNodes_nil, List.append_nil]
  rfl

end Dispatch

namespace Pass

variable [Generator γ] {h : Host β γ} {machine : β → BuildMachine} {settings : β → Config} {scratch : β → String}
  {link : β → Linker γ} {m : SyntheticModule} {outcome : LoadOutcome γ}

/-- The calls of generators when the output of a program is made under a module and what was loaded from it. -/
def callsOf (model : Model) (m : SyntheticModule) (outcome : LoadOutcome γ) : List GeneratorCall :=
  match outcome.source with
  | none => []
  | some source =>
    let index := NodeIndex.ofModel model
    (Dispatch.runTraced index.context m.epoch source.instantiate.instances index.nodes).2

/-- Whether a table of types was handed out by the library that was loaded from the image of a module. -/
def TableObtained (h : Host β γ) (link : β → Linker γ) (m : SyntheticModule) (outcome : LoadOutcome γ) : Prop :=
  ∃ s image library table, (h.load m s).1 = outcome ∧ m.image = some image ∧ link s image = .ok library ∧
    library.discover = .ok (some table) ∧ outcome.source = some ⟨m.epoch, some table⟩

/-- Whether the output under a module has no sources and reports an error, and no generator is called for it. -/
def Reports (model : Model) (m : SyntheticModule) (outcome : LoadOutcome γ) : Prop :=
  (outputOf model m outcome).sources = [] ∧ callsOf model m outcome = [] ∧
    ∃ d ∈ (outputOf model m outcome).diagnostics, d.isError = true

/-- A module of which nothing was loaded reports what the module or the loader reports. -/
lemma reports_of_unloaded (model : Model) {reports : List Diagnostic} (outcome_eq : outcome = ⟨none, reports⟩)
    (error : ∃ d ∈ m.diagnostics ++ reports, d.isError = true) : Reports model m outcome := by
  subst outcome_eq
  exact ⟨rfl, rfl, error⟩

lemma reports_of_noTable (model : Model) {e : Epoch} (outcome_eq : outcome = ⟨some ⟨e, none⟩, []⟩) :
    Reports model m outcome := by
  subst outcome_eq
  let index := NodeIndex.ofModel model
  have dispatched := Dispatch.runTraced_nil (γ := γ) index.context m.epoch index.nodes
  refine ⟨?_, ?_, .moduleLoadFailure e.text LoadError.emptyDiscovery.chain, ?_, rfl⟩
  · change (Dispatch.runTraced index.context m.epoch ([] : List (PluginInstance γ)) index.nodes).1.sources = []
    rw [dispatched]
  · change (Dispatch.runTraced index.context m.epoch ([] : List (PluginInstance γ)) index.nodes).2 = []
    rw [dispatched]
  · exact List.mem_append_left _ (List.mem_append_right _ (List.mem_singleton_self _))

/-- A module that has an image or an error to report hands out its table, or leads to an error without any source,
whatever the program. -/
lemma obtained_or_reports (cargo : h.BuildsWithCargo machine settings scratch link) (speaks : m.Speaks) {s : β}
    (answer : (h.load m s).1 = outcome) : TableObtained h link m outcome ∨ ∀ model, Reports model m outcome := by
  obtain loaded | ⟨-, cause, refused⟩ := cargo.load m s
  · rw [answer] at loaded
    unfold Loading.loadImage at loaded
    split at loaded
    case h_1 no_image =>
      obtain image | ⟨d, there, error⟩ := speaks
      · rw [no_image] at image
        cases image
      · exact .inr fun model => reports_of_unloaded model loaded ⟨d, List.mem_append_left _ there, error⟩
    case h_2 image some_image =>
      split at loaded
      case h_1 source opened =>
        obtain ⟨epoch, library, linked, found⟩ := Loading.library_of_openImage opened
        obtain ⟨e, table⟩ := source
        obtain rfl : e = m.epoch := epoch
        cases table with
        | none => exact .inr fun model => reports_of_noTable model loaded
        | some table => exact .inl ⟨s, image, library, table, answer, some_image, linked, found, loaded ▸ rfl⟩
      case h_2 e _ =>
        refine .inr fun model => reports_of_unloaded model loaded ⟨.moduleLoadFailure m.crateName e.chain, ?_, rfl⟩
        exact List.mem_append_right _ (List.mem_singleton_self _)
  · rw [answer] at refused
    let failure := LoadError.stage cause
    refine .inr fun model => reports_of_unloaded model refused ⟨.moduleLoadFailure m.crateName failure.chain, ?_, rfl⟩
    exact List.mem_append_right _ (List.mem_singleton_self _)

/-- An empty module leads to an empty output, and no table is obtained from it. -/
lemma silent_of_empty (cargo : h.BuildsWithCargo machine settings scratch link) {e : Epoch} {s : β}
    (answer : (h.load (.empty e) s).1 = outcome) (model : Model) :
    outputOf model (.empty e) outcome = ⟨[], []⟩ ∧ ¬ TableObtained h link (.empty e) outcome := by
  obtain loaded | ⟨image, -⟩ := cargo.load (.empty e) s
  · rw [answer] at loaded
    subst loaded
    exact ⟨rfl, fun ⟨_, _, _, _, _, image, _⟩ => nomatch image⟩
  · cases image

end Pass

/-! ### Calls -/

/-- Rows that compare as equal are empty together. -/
lemma isEmpty_eq_of_beq {α : Type} [BEq α] {as bs : List α} (same : (as == bs) = true) : as.isEmpty = bs.isEmpty := by
  cases as with
  | nil =>
    cases bs with
    | nil => rfl
    | cons b bs => cases same
  | cons a as =>
    cases bs with
    | nil => cases same
    | cons b bs => rfl

/-- Whether the module that cells remember was built for the input that it is remembered under. -/
def PipelineCells.BuiltFrom (h : Host β γ) (c : PipelineCells δ γ) : Prop :=
  c.module.Holds fun i m => ∃ e, Builds h e i m

namespace Pass

variable {h : Host β γ} {config : Config} {model : Model} {c c' : PipelineCells δ γ}

/-- Whether a module was built with fragments exactly if an input has some. -/
def BuiltLike (h : Host β γ) (i : ModuleInput) (m : SyntheticModule) : Prop :=
  ∃ e j, Builds h e j m ∧ j.fragments.isEmpty = i.fragments.isEmpty

section Tables

variable [Generator γ] {machine : β → BuildMachine} {settings : β → Config} {scratch : β → String}
  {link : β → Linker γ} {i : ModuleInput} {m : SyntheticModule} {outcome : LoadOutcome γ} {s : β}

/-- A module that was built with fragments hands out its table, or leads to an error without any source. -/
lemma BuiltLike.heard (built : BuiltLike h i m) (cargo : h.BuildsWithCargo machine settings scratch link)
    (answer : (h.load m s).1 = outcome) (some_fragments : i.fragments ≠ []) :
    TableObtained h link m outcome ∨ ∀ model, Reports model m outcome := by
  obtain ⟨e, j, made, alike⟩ := built
  have speaks := made.speaks cargo (alike.trans (List.isEmpty_eq_false_iff.mpr some_fragments))
  exact obtained_or_reports cargo speaks answer

lemma BuiltLike.silent (built : BuiltLike h i m) (cargo : h.BuildsWithCargo machine settings scratch link)
    (answer : (h.load m s).1 = outcome) (none : i.fragments = []) (model : Model) :
    outputOf model m outcome = ⟨[], []⟩ ∧ ¬ TableObtained h link m outcome := by
  obtain ⟨e, j, made, alike⟩ := built
  obtain rfl := made.eq_empty (alike.trans (List.isEmpty_iff.mpr none))
  exact silent_of_empty cargo answer model

end Tables

/-- The stage of the module answers a module that was built for such an input. -/
lemma ModuleStep.builtFrom {i : ModuleInput} {m : SyntheticModule} (step : ModuleStep h c i m c')
    (inv : c.BuiltFrom h) : c'.BuiltFrom h ∧ BuiltLike h i m := by
  cases step with
  | held known =>
    -- the cell compares inputs, so the module may have been built for another one
    obtain ⟨j, entry, same⟩ := Memo.entry_of_held? known
    obtain ⟨e, made⟩ := inv j m entry
    have parts : (j.fragments == i.fragments && j.globals == i.globals &&
      Reference.sameList j.references i.references) = true := same
    rw [Bool.and_eq_true, Bool.and_eq_true] at parts
    exact ⟨inv, e, j, made, isEmpty_eq_of_beq parts.1.1⟩
  | built new made =>
    refine ⟨?_, _, i, made, rfl⟩
    intro j m' entry
    cases entry
    exact ⟨_, made⟩

lemma LoadStep.builtFrom {m : SyntheticModule} {outcome : LoadOutcome γ} (step : LoadStep h c m outcome c')
    (inv : c.BuiltFrom h) : c'.BuiltFrom h := by
  cases step <;> exact inv

variable [Digest δ] [BEq δ]

lemma Stopped.builtFrom (stopped : Stopped h config model c c') (inv : c.BuiltFrom h) : c'.BuiltFrom h := by
  cases stopped with
  | afterFragments => exact inv
  | afterGlobals => exact inv
  | inBuild => exact inv
  | afterModule module => exact (module.builtFrom inv).1
  | afterLoad module load => exact load.builtFrom (module.builtFrom inv).1

variable [Generator γ]

/-- A pass that comes to its end was about a module that was built for its input, and keeps it so. -/
lemma Completed.builtFrom {out : GenerationOutput} (completed : Completed h config model c out c')
    (inv : c.BuiltFrom h) :
    c'.BuiltFrom h ∧ ∃ m, c'.currentModule = some m ∧ BuiltLike h (c.input config model) m := by
  obtain @⟨m, outcome, _, c₁, c₂, _, module, load, output⟩ := completed
  obtain ⟨inv₁, built⟩ := module.builtFrom inv
  have inv₂ := load.builtFrom inv₁
  have current : c₁.currentModule = some m := by
    cases module with
    | held known =>
      obtain ⟨j, entry, -⟩ := Memo.entry_of_held? known
      exact congrArg (Option.map Prod.snd) entry
    | built => rfl
  have current₂ : c₂.currentModule = some m := by cases load <;> exact current
  cases output <;> exact ⟨inv₂, m, current₂, built⟩

end Pass

namespace PipelineCells

variable [Digest δ] [BEq δ] [Generator γ] {h : Host β γ} {config : Config}

lemma builtFrom_after (ks : List (PassCall β)) : (after h config ks : PipelineCells δ γ).BuiltFrom h := by
  induction ks using List.reverseRecOn with
  | nil => exact nofun
  | append_singleton ks k ih =>
    rw [after, List.foldl_append]
    obtain ⟨model, out, -, -, completed⟩ | ⟨-, same | ⟨model, -, stopped⟩⟩ :=
      k.run_steps h config (after h config ks : PipelineCells δ γ)
    · exact (completed.builtFrom ih).1
    · change (k.run h config (after h config ks)).2.BuiltFrom h
      rw [same]
      exact ih
    · exact stopped.builtFrom ih

variable [LawfulBEq δ] {machine : β → BuildMachine} {settings : β → Config} {scratch : β → String} {link : β → Linker γ}

/-- A call that comes to its end, after any calls, is about a module that was built for its input and loaded, and its
output is that of a program under it. -/
lemma current_of_ok {past : List (PassCall β)} {k : PassCall β} {out : GenerationOutput}
    (done : (k.run h config (after h config past : PipelineCells δ γ)).1 = .ok out) :
    let c : PipelineCells δ γ := after h config past
    ∃ model m outcome, Model.ofProgram k.program = .ok model ∧ (k.run h config c).2.currentModule = some m ∧
      (k.run h config c).2.load.entry = some (m.epoch, outcome) ∧ (∃ s, (h.load m s).1 = outcome) ∧
      BuiltLike h (c.input config model) m ∧ ∃ model', out = outputOf model' m outcome := by
  intro c
  obtain ⟨sub, hk⟩ := PassCall.mem_programs past k
  obtain ⟨model, out', resolved, ended, completed⟩ | ⟨⟨e, stop⟩, -⟩ := k.run_steps h config c
  · rw [done] at ended
    cases ended
    have program := Model.program_of_ofProgram resolved
    have answers : c.Answers ((past ++ [k]).map (·.program)) := answers_start.calls sub
    have chronicle : c.Chronicle h _ := chronicle_start.calls past
    -- three invariants speak of the current module and of what is loaded; it is the same one
    obtain ⟨-, m, outcome, current, entry, q, hq, model', -, -, -, own⟩ :=
      completed.answers answers (program.symm ▸ hk) (program.symm ▸ resolved)
    obtain ⟨-, m', outcome', current', entry', answer, -⟩ := completed.chronicle chronicle
    rw [current] at current'
    cases current'
    rw [entry] at entry'
    cases entry'
    obtain ⟨-, m', current', built⟩ := completed.builtFrom (builtFrom_after past)
    rw [current] at current'
    cases current'
    exact ⟨model, m, outcome, resolved, current, entry, answer, built, model', own⟩
  · rw [done] at stop
    cases stop

/-- A pass over the units of a program before it, under the same references once these are completed, is handed the
fragments of that program. -/
lemma fragments_of_sameUnits {s : β} (asks : (h.poll s).1 = false) {q : Program}
    (distinct : (q.units.map unitKey).Nodup) {before model : Model} (resolved : Model.ofProgram q = .ok before)
    (units : model.program.units = q.units) (references : referenceSet config model.program = referenceSet config q) :
    ((after h config [⟨q, s⟩] : PipelineCells δ γ).input config model).fragments = Fragment.ofModel before := by
  obtain rfl := Model.program_of_ofProgram resolved
  have collected := (collectFrom_distinct model (referencesFingerprint (referenceSet config model.program))
    (after h config [⟨before.program, s⟩] : PipelineCells δ γ).fragments (units ▸ distinct) 0).1
  refine collected.trans ?_
  rw [Fragment.ofModel, List.flatMap_def, units]
  refine congrArg List.flatten (List.map_congr_left fun e he => ?_)
  rw [handed, references, held?_after_singleton asks distinct resolved he, Option.getD_some]

/-- A pass that is handed no fragments comes to its end with an empty output, on a host that does not give up. -/
lemma run_of_bare (cargo : h.BuildsWithCargo machine settings scratch link) (steadfast : ∀ s, (h.poll s).1 = false)
    (sound : ∀ r s, (h.compile r s).1 ≠ .crashed) {past : List (PassCall β)} {k : PassCall β} {model : Model}
    (resolved : Model.ofProgram k.program = .ok model)
    (bare : ((after h config past : PipelineCells δ γ).input config model).fragments = []) :
    (k.run h config (after h config past : PipelineCells δ γ)).1 = .ok ⟨[], []⟩ := by
  cases done : (k.run h config (after h config past : PipelineCells δ γ)).1 with
  | ok out =>
    obtain ⟨model', m, outcome, resolved', -, -, ⟨s, answer⟩, built, model'', rfl⟩ := current_of_ok done
    rw [resolved] at resolved'
    cases resolved'
    rw [(built.silent cargo answer bare model'').1]
  | error stop =>
    obtain ⟨-, s, gives⟩ | ⟨marker, -, unresolved⟩ | ⟨f, model', -, resolved', unwritable⟩ :=
      PassCall.reason_of_error sound done
    · rw [steadfast s] at gives
      cases gives
    · rw [resolved] at unresolved
      cases unresolved
    · rw [resolved] at resolved'
      cases resolved'
      have some_fragments := unwritable.bare
      rw [bare] at some_fragments
      cases some_fragments

/-- Over any calls of a pipeline whose host builds with cargo and loads with a linker, however each of the calls and
each build ends: a further call that comes to its end obtained a table from the library of the current module, or its
output has no sources and reports an error, and no generator was called for it, exactly if it was handed fragments.
Otherwise its output is empty. A call is handed fragments exactly if its program has some, if the key of the cell of
fragments tells enough, or if it is a first call with units that have paths of their own. -/
theorem reports_iff_fragments (inj : Digest.Injective δ) (cargo : h.BuildsWithCargo machine settings scratch link)
    {past : List (PassCall β)} {k : PassCall β} {out : GenerationOutput}
    (done : (k.run h config (after h config past : PipelineCells δ γ)).1 = .ok out) :
    let c : PipelineCells δ γ := after h config past
    ∃ model m outcome, Model.ofProgram k.program = .ok model ∧ (k.run h config c).2.currentModule = some m ∧
      (k.run h config c).2.load.entry = some (m.epoch, outcome) ∧ (∃ s, (h.load m s).1 = outcome) ∧
      ((c.input config model).fragments ≠ [] ↔ TableObtained h link m outcome ∨
        out.sources = [] ∧ (∀ model', callsOf model' m outcome = []) ∧ ∃ d ∈ out.diagnostics, d.isError = true) ∧
      ((c.input config model).fragments = [] → out = ⟨[], []⟩) ∧
      (Program.KeyTells config ((past ++ [k]).map (·.program)) ∨
          past = [] ∧ (k.program.units.map unitKey).Nodup →
        ((c.input config model).fragments ≠ [] ↔ Fragment.ofModel model ≠ [])) := by
  intro c
  obtain ⟨model, m, outcome, resolved, current, entry, ⟨s, answer⟩, built, model', rfl⟩ := current_of_ok done
  refine ⟨model, m, outcome, resolved, current, entry, ⟨s, answer⟩, ⟨?heard, ?handed⟩, ?bare, ?own⟩
  case heard =>
    intro some_fragments
    refine (built.heard cargo answer some_fragments).imp id fun reports => ?_
    exact ⟨(reports model').1, fun q => (reports q).2.1, (reports model').2.2⟩
  case handed =>
    rintro heard none
    obtain ⟨empty, no_table⟩ := built.silent cargo answer none model'
    obtain obtained | ⟨-, -, d, there, -⟩ := heard
    · exact no_table obtained
    · rw [empty] at there
      cases there
  case bare => exact fun none => (built.silent cargo answer none model').1
  case own =>
    rintro (tells | ⟨rfl, distinct⟩)
    · obtain ⟨sub, hk⟩ := PassCall.mem_programs past k
      have same := isEmpty_eq_of_beq (input_beq_ofModel (h := h) (γ := γ) inj tells sub hk resolved)
      rw [← List.isEmpty_eq_false_iff, ← List.isEmpty_eq_false_iff, same]
    · rw [← Model.program_of_ofProgram resolved] at distinct
      have first : (c.input config model).fragments = Fragment.ofModel model := fragments_start distinct
      rw [first]

end PipelineCells

namespace PassCall

/-- A host whose build program fails, and whose linker opens nothing. -/
def failingHost : MachineHost Memoryless :=
  ⟨.default, "/tmp/scratch", [], "cargo", ⟨[], "no space left".toUTF8.toList, false⟩, fun _ => .error "", false⟩

/-- A call on that host with a program of one unit with a marked trait, and with given references. -/
def referring (references : List Reference) : PassCall (MachineHost Memoryless) :=
  let text := "use microgen_sdk::micro_generator;\n#[micro_generator]\npub trait G {}\n"
  ⟨{ built text with references }, failingHost⟩

end PassCall

namespace PipelineCells

open MachineHost

/-- The build of a first call fails: the output has no sources, and an error says so. -/
theorem reports_iff_fragments_failedBuild :
    let k := PassCall.referring [⟨"microgen_sdk", .path "/sdk"⟩]
    let c : PipelineCells Transcript Memoryless := after asHost .default []
    (k.run asHost .default c).2.load.entry.map (·.2.source.isSome) = some false ∧
      ∃ out, (k.run asHost .default c).1 = .ok out ∧ out.sources = [] ∧ ∃ d ∈ out.diagnostics, d.isError = true := by
  intro k c
  have computed : (k.run asHost .default c).1.isOk = true ∧
      (k.run asHost .default c).2.load.entry.map (·.2.source.isSome) = some false ∧
      (k.program.units.map unitKey).Nodup ∧
      (Model.ofProgram k.program).toOption.map (fun m => (Fragment.ofModel m).isEmpty) = some false := by
    decide +kernel
  obtain ⟨ends, unloaded, distinct, marked⟩ := computed
  refine ⟨unloaded, ?_⟩
  cases done : (k.run asHost .default c).1 with
  | ok out =>
    obtain ⟨model, m, outcome, resolved, -, entry, -, heard, -, own⟩ :=
      reports_iff_fragments Transcript.injective buildsWithCargo done
    rw [resolved] at marked
    have marked := List.isEmpty_eq_false_iff.mp (Option.some.inj marked)
    obtain ⟨s, image, library, table, -, -, -, -, obtained⟩ | ⟨sources, -, error⟩ :=
      heard.mp ((own (.inr ⟨rfl, distinct⟩)).mpr marked)
    · change (k.run asHost .default c).2.load.entry = _ at entry
      rw [entry, Option.map_some, obtained] at unloaded
      cases unloaded
    · exact ⟨out, rfl, sources, error⟩
  | error e =>
    rw [done] at ends
    cases ends

/-- A program that comes to refer to the crate of its markers: the second call is handed the fragments from before the
reference, so its output is empty, although a first call with the program reports that the build fails. -/
theorem reports_ne_laterReference :
    let h : Host (MachineHost Memoryless) Memoryless := Host.steadfast asHost
    let macros : Reference := ⟨"microgen_macros", .path "/m"⟩
    let k := PassCall.referring [macros, ⟨"microgen_sdk", .path "crates/microgen_sdk"⟩]
    let c : PipelineCells Transcript Memoryless := after h .default [PassCall.referring [macros]]
    (∃ model, Model.ofProgram k.program = .ok model ∧ Fragment.ofModel model ≠ []) ∧
      (k.run h .default c).1 = .ok ⟨[], []⟩ ∧
      (k.run h .default (start : PipelineCells Transcript Memoryless)).1.toOption.map (·.diagnostics.map (·.isError)) =
        some [true] := by
  intro h macros k c
  have computed : ((Model.ofProgram k.program).toOption.map fun m => (Fragment.ofModel m).isEmpty) = some false ∧
      ((Model.ofProgram (PassCall.referring [macros]).program).toOption.map fun m => (Fragment.ofModel m).isEmpty) =
        some true ∧
      ((PassCall.referring [macros]).program.units.map unitKey).Nodup ∧
      (k.run h .default (start : PipelineCells Transcript Memoryless)).1.toOption.map (·.diagnostics.map (·.isError)) =
        some [true] := by
    decide +kernel
  obtain ⟨marked, unmarked, distinct, reported⟩ := computed
  cases resolved : Model.ofProgram k.program with
  | error e =>
    rw [resolved] at marked
    cases marked
  | ok model =>
    cases before : Model.ofProgram (PassCall.referring [macros]).program with
    | error e =>
      rw [before] at unmarked
      cases unmarked
    | ok first =>
      rw [resolved] at marked
      rw [before] at unmarked
      have program := Model.program_of_ofProgram resolved
      -- the second program brings what the first one is completed by
      have references : referenceSet .default k.program = referenceSet .default (PassCall.referring [macros]).program := by
        have sorted : [macros, ⟨"microgen_sdk", .path "crates/microgen_sdk"⟩].Pairwise
            (fun a b => !(b.name < a.name)) := by decide +kernel
        exact (List.mergeSort_of_pairwise sorted).symm
      have handed : (c.input .default model).fragments = Fragment.ofModel first :=
        fragments_of_sameUnits rfl distinct before (program ▸ rfl) (program ▸ references)
      have bare := handed.trans (List.isEmpty_iff.mp (Option.some.inj unmarked))
      have cargo : h.BuildsWithCargo machine config scratch link := ⟨buildsWithCargo.compile, buildsWithCargo.load⟩
      have ends := run_of_bare cargo (fun _ => rfl) (fun _ _ => nofun) resolved bare
      exact ⟨⟨model, rfl, List.isEmpty_eq_false_iff.mp (Option.some.inj marked)⟩, ends, reported⟩

end PipelineCells

end SourceGen
