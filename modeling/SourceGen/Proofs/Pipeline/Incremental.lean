import Mathlib.Data.List.Induction
import SourceGen.Proofs.Dispatch.Units
import SourceGen.Proofs.Pipeline.Stages

/-!
# Calls in a row against passes without memory

A pipeline is called with programs of one crate, one after the other, and any call may be given up at any
of its checks. A call that comes to its end is a pass without memory over the input that the cells hand
out, and that input is made of fragments and global imports of programs of the history. So it is a pass
without memory over the program itself exactly if the input of the cells is written like the input of the
program (`PassCall.run_eq_pass_iff`). Cells are asked by tokens, and tokens do not determine a tree: an empty
`where` clause has none, but items that differ in it are different when repetitions are left out.
-/

namespace SourceGen

open SourceGen.Pass

variable {δ γ β : Type}

/-- Whether fragments are those of a unit as it stands in some known program: in a program with the same
references, under the same path, and with the same tokens. -/
def Program.Knows (known : List Program) (p : Program) (u : SourceUnit) (fs : List Fragment) : Prop :=
  ∃ q ∈ known, q.references = p.references ∧ ∃ m, Model.ofProgram q = .ok m ∧
    ∃ v ∈ q.units, unitKey v = unitKey u ∧ v.parsed.file.text = u.parsed.file.text ∧
      ∃ index, fs = Fragment.ofUnit m index v

/-- Whether known programs with the same tokens have the same trees: units under one path, and global
imports. -/
structure Program.ReadAlike (δ : Type) [Digest δ] (known : List Program) : Prop where
  trees : ∀ p ∈ known, ∀ q ∈ known, ∀ u ∈ p.units, ∀ v ∈ q.units, unitKey u = unitKey v →
    u.parsed.file.text = v.parsed.file.text → u.parsed.file.printed = v.parsed.file.printed
  globals : ∀ p ∈ known, ∀ q ∈ known, (p.fingerprint : δ) = q.fingerprint →
    GlobalImports.ofProgram p = .ofProgram q

namespace Pass

/-! ### A whole pass -/

section Run

variable [Digest δ] [BEq δ] [LawfulBEq δ] [Generator γ] {b : Backend γ} {h : Host β γ} {config : Config}
  {known : List Program} {c : PipelineCells δ γ} {p : Program}

/-- A pass that comes to its end is one without memory over the input that the cells hand out. -/
lemma leads_run (follows : h.Follows b) (remembers : c.Remembers b config known) (hp : p ∈ known)
    (told : ∀ q ∈ known, (q.fingerprint : δ) = p.fingerprint → (q.layout : δ) = p.layout → q = p) :
    Leads (run h config p : PassM δ γ β _) c
      (fun out c' => c'.Remembers b config known ∧ ∃ model m, Model.ofProgram p = .ok model ∧
        c'.currentModule = some m ∧ b.passFrom m.epoch model (c.input config model) = .ok (m, out))
      (·.Remembers b config known) := by
  refine (leads_check h remembers).andThen ?_
  rintro _ _ rfl
  cases hm : Model.ofProgram p with
  | error e => exact .bind (leads_throw remembers)
  | ok model =>
    have named := input_wellNamed remembers.fragments hp hm
    refine .bind (leads_pure ((leads_fragmentStage remembers hp hm).andThen ?_))
    rintro _ c₁ ⟨rfl, globals, remembers₁⟩
    refine (leads_check h remembers₁).andThen ?_
    rintro _ _ rfl
    refine (leads_globalStage remembers₁ hp).andThen ?_
    rintro _ c₂ ⟨rfl, remembers₂⟩
    -- what the two first stages hand out makes up the input of the third
    have input : ModuleInput.mk (c.input config model).fragments
        (c₁.globals.getOrCompute p.fingerprint fun _ => .ofProgram p).1 (referenceSet config p) =
          c.input config model := by
      obtain rfl := Model.program_of_ofProgram hm
      rw [globals]
      rfl
    rw [input]
    refine (leads_check h remembers₂).andThen ?_
    rintro _ _ rfl
    refine (leads_moduleStage follows remembers₂ named).andThen ?_
    rintro m c₃ ⟨remembers₃, current₃, built⟩
    refine (leads_check h remembers₃).andThen ?_
    rintro _ _ rfl
    refine (leads_loadStage follows remembers₃ current₃).andThen ?_
    rintro _ c₄ ⟨remembers₄, current₄, rfl⟩
    refine (leads_check h remembers₄).andThen ?_
    rintro _ _ rfl
    refine (leads_outputStage remembers₄ hp hm current₄ told).mono ?_ fun _ => id
    rintro _ c₅ ⟨remembers₅, current₅, rfl⟩
    refine ⟨remembers₅, model, m, rfl, current₅, ?_⟩
    rw [Backend.passFrom, built]
    rfl

/-- A call leaves cells that remember known programs, and comes to an end as a pass without memory over
the input that the cells hand out. -/
lemma run_remembers (follows : h.Follows b) (remembers : c.Remembers b config known) {k : PassCall β}
    (hk : k.program ∈ known)
    (told : ∀ q ∈ known, (q.fingerprint : δ) = k.program.fingerprint → (q.layout : δ) = k.program.layout →
      q = k.program) :
    (k.run h config c).2.Remembers b config known ∧ ∀ out, (k.run h config c).1 = .ok out →
      ∃ model m, Model.ofProgram k.program = .ok model ∧ (k.run h config c).2.currentModule = some m ∧
        b.passFrom m.epoch model (c.input config model) = .ok (m, out) := by
  have leads := leads_run follows remembers hk told k.host
  unfold PassCall.run
  split at leads
  case h_1 out s eq =>
    rw [eq]
    refine ⟨leads.1, fun out' same => ?_⟩
    cases same
    exact leads.2
  case h_2 e s eq =>
    rw [eq]
    exact ⟨leads, fun out' same => by cases same⟩

end Run

/-! ### Programs of one crate -/

section OneCrate

variable [Digest δ] {config : Config} {known : List Program} {p : Program}

lemma told_of_oneCrate (inj : Digest.Injective δ) (crate : Program.OneCrate known) (hp : p ∈ known) :
    ∀ q ∈ known, (q.fingerprint : δ) = p.fingerprint → (q.layout : δ) = p.layout → q = p :=
  fun q hq => Program.eq_of_summaries inj (crate.name q hq p hp) (crate.parsed q hq) (crate.parsed p hp)
    (crate.places q hq p hp)

/-- Cells that only ever saw programs of one crate remember known programs. -/
lemma remembers_after [BEq δ] [LawfulBEq δ] [Generator γ] {b : Backend γ} {h : Host β γ}
    (inj : Digest.Injective δ) (follows : h.Follows b) (crate : Program.OneCrate known)
    {ks : List (PassCall β)} (sub : ∀ k ∈ ks, k.program ∈ known) :
    (PipelineCells.after h config ks : PipelineCells δ γ).Remembers b config known := by
  -- the invariant is kept from the first call to the last, so calls are added at the end
  induction ks using List.reverseRecOn with
  | nil => exact PipelineCells.remembers_start
  | append_singleton ks k ih =>
    have remembers := ih fun k hk => sub k (List.mem_append_left _ hk)
    have hk := sub k (List.mem_append_right _ List.mem_cons_self)
    rw [PipelineCells.after, List.foldl_append]
    exact (run_remembers follows remembers hk (told_of_oneCrate inj crate hk)).1

lemma referenceSet_of_oneCrate (crate : Program.OneCrate known) (hp : p ∈ known) :
    referenceSet config p = p.references :=
  if_pos (crate.markers p hp)

/-- Fragments under the summaries of a unit are those of the unit in a known program. -/
lemma knows_of_takenFrom (inj : Digest.Injective δ) (crate : Program.OneCrate known) (hp : p ∈ known)
    {u : SourceUnit} {fs : List Fragment}
    (h : TakenFrom config known (unitKey u)
      ((u.fingerprint, referencesFingerprint (referenceSet config p)) : δ × δ) fs) :
    Program.Knows known p u fs := by
  obtain ⟨q, hq, m, hm, v, hv, index, key, summaries, rfl⟩ := h
  rw [referenceSet_of_oneCrate crate hp, referenceSet_of_oneCrate crate hq] at summaries
  obtain ⟨tokens, lines⟩ := Prod.mk.inj summaries
  have references : q.references = p.references := Program.references_eq_of_lines inj (inj.combine lines)
  exact ⟨q, hq, references, m, hm, v, hv, key, inj.ofText tokens, index, rfl⟩

/-- Known fragments of a unit add the same to a crate as its own, if known programs read alike. -/
lemma placeless_of_knows (crate : Program.OneCrate known) (alike : Program.ReadAlike δ known)
    (hp : p ∈ known) {m : Model} (hm : Model.ofProgram p = .ok m) {u : SourceUnit} (hu : u ∈ p.units)
    {fs : List Fragment} (h : Program.Knows known p u fs) (index : Nat) :
    fs.map Fragment.placeless = (Fragment.ofUnit m index u).map Fragment.placeless := by
  obtain ⟨q, hq, references, m', hm', v, hv, key, tokens, index', rfl⟩ := h
  obtain ⟨markers, crates⟩ := Model.congr_of_ofProgram references hm hm'
  have place : u.modulePath = v.modulePath := crate.places p hp q hq u hu v hv key.symm
  have tree := alike.trees p hp q hq u hu v hv key.symm tokens.symm
  exact (Fragment.ofUnit_placeless markers crates place tree index index').symm

variable [BEq δ] [LawfulBEq δ] [Generator γ] {b : Backend γ} {c : PipelineCells δ γ} {m : Model}

/-- The global imports that cells hand out are those of a known program with the same summary. -/
lemma input_collectedFrom (remembers : c.Remembers b config known) (hp : p ∈ known)
    (hm : Model.ofProgram p = .ok m) :
    CollectedFrom known (p.fingerprint : δ) (c.input config m).globals := by
  obtain rfl := Model.program_of_ofProgram hm
  have new : CollectedFrom known (m.program.fingerprint : δ) (.ofProgram m.program) :=
    ⟨m.program, hp, rfl, rfl⟩
  exact (Memo.getOrCompute_holds remembers.globals (fun _ => .ofProgram m.program) new).1

/-- The fragments that cells hand out are known fragments, one unit after the other. -/
lemma input_knows (inj : Digest.Injective δ) (crate : Program.OneCrate known)
    (remembers : c.Remembers b config known) (hp : p ∈ known) (hm : Model.ofProgram p = .ok m) :
    ∃ parts, (c.input config m).fragments = parts.flatten ∧
      List.Forall₂ (Program.Knows known p) p.units parts := by
  obtain ⟨parts, eq, each⟩ := input_takenFrom remembers.fragments hp hm
  exact ⟨parts, eq, each.imp fun _ _ taken => knows_of_takenFrom inj crate hp taken⟩

/-- The input that cells hand out has the crate of the program, if known programs read alike. -/
lemma input_crate_of_readAlike (inj : Digest.Injective δ) (crate : Program.OneCrate known)
    (remembers : c.Remembers b config known) (hp : p ∈ known) (hm : Model.ofProgram p = .ok m)
    (alike : Program.ReadAlike δ known) :
    (c.input config m).crate = (ModuleInput.ofModel config m).crate := by
  obtain ⟨parts, eq, each⟩ := input_knows inj crate remembers hp hm
  obtain ⟨q, hq, same, globals⟩ := input_collectedFrom remembers hp hm
  have globals : (c.input config m).globals = GlobalImports.ofProgram m.program := by
    rw [globals, Model.program_of_ofProgram hm]
    exact alike.globals q hq p hp same
  have places : (c.input config m).fragments.map Fragment.placeless =
      (ModuleInput.ofModel config m).fragments.map Fragment.placeless := by
    have own (u : SourceUnit) (hu : u ∈ p.units) (fs : List Fragment) (h : Program.Knows known p u fs) :=
      placeless_of_knows crate alike hp hm hu h
    rw [eq, Fragment.map_placeless_flatten each own 0]
    obtain rfl := Model.program_of_ofProgram hm
    rfl
  exact ModuleInput.crate_congr places globals

omit [LawfulBEq δ] in
/-- A pass over the input that cells hand out is one over the program exactly if both have one crate. -/
lemma passFrom_input_iff {h : Host β γ} (follows : h.Follows b) (hm : Model.ofProgram p = .ok m)
    {built : SyntheticModule} {out : GenerationOutput}
    (pass : b.passFrom built.epoch m (c.input config m) = .ok (built, out)) :
    b.pass config built.epoch p = .ok (built, out) ↔
      (c.input config m).crate = (ModuleInput.ofModel config m).crate := by
  have whole : b.pass config built.epoch p = b.passFrom built.epoch m (.ofModel config m) := by
    rw [Backend.pass, hm]
  rw [whole]
  constructor
  · intro pass'
    have crate := (Backend.crate_of_build (Backend.build_of_passFrom pass)).2
    have crate' := (Backend.crate_of_build (Backend.build_of_passFrom pass')).2
    rw [crate, crate']
  · intro crate
    have built_alike := Backend.build_congr (e := built.epoch) follows crate (Reference.sameList_refl _)
    rw [← pass, Backend.passFrom, Backend.passFrom, built_alike]

end OneCrate

end Pass

/-! ### Calls in a row -/

namespace PassCall

section Calls

variable [Digest δ] [BEq δ] [LawfulBEq δ] [Generator γ] {b : Backend γ} {h : Host β γ} {config : Config}

/-- A call that comes to its end, after any calls with programs of one crate, leaves a module and an
output that are those of a pass without memory over the input that the cells hand out. The fragments and
the global imports of that input are those of known programs with the same references and tokens. The call
is a pass without memory over its program exactly if the input has the crate of the program; that is so
whenever known programs with the same tokens have the same trees. -/
theorem run_eq_pass_iff (inj : Digest.Injective δ) (follows : h.Follows b) {past : List (PassCall β)}
    {k : PassCall β} (crate : Program.OneCrate ((past ++ [k]).map (·.program))) {out : GenerationOutput}
    (done : (k.run h config (PipelineCells.after h config past : PipelineCells δ γ)).1 = .ok out) :
    ∃ model m, Model.ofProgram k.program = .ok model ∧
      (PipelineCells.after h config (past ++ [k]) : PipelineCells δ γ).currentModule = some m ∧
      let known := (past ++ [k]).map (·.program)
      let input := (PipelineCells.after h config past : PipelineCells δ γ).input config model
      b.passFrom m.epoch model input = .ok (m, out) ∧
      (∃ parts, input.fragments = parts.flatten ∧
        List.Forall₂ (Program.Knows known k.program) k.program.units parts) ∧
      CollectedFrom known (k.program.fingerprint : δ) input.globals ∧
      (b.pass config m.epoch k.program = .ok (m, out) ↔
        input.crate = (ModuleInput.ofModel config model).crate) ∧
      (Program.ReadAlike δ known → b.pass config m.epoch k.program = .ok (m, out)) := by
  have sub : ∀ c ∈ past ++ [k], c.program ∈ (past ++ [k]).map (·.program) :=
    fun c hc => List.mem_map_of_mem hc
  have hk := sub k (List.mem_append_right _ List.mem_cons_self)
  have remembers : (PipelineCells.after h config past : PipelineCells δ γ).Remembers b config _ :=
    Pass.remembers_after inj follows crate fun c hc => sub c (List.mem_append_left _ hc)
  obtain ⟨model, m, hm, current, pass⟩ :=
    (Pass.run_remembers follows remembers hk (Pass.told_of_oneCrate inj crate hk)).2 out done
  have after : (PipelineCells.after h config (past ++ [k]) : PipelineCells δ γ) =
      (k.run h config (PipelineCells.after h config past)).2 := by
    rw [PipelineCells.after, List.foldl_append]
    rfl
  have exactly := Pass.passFrom_input_iff follows hm pass
  refine ⟨model, m, hm, after ▸ current, pass, Pass.input_knows inj crate remembers hk hm,
    Pass.input_collectedFrom remembers hk hm, exactly, fun alike => exactly.mpr ?_⟩
  exact Pass.input_crate_of_readAlike inj crate remembers hk hm alike

end Calls

/-- A program of one unit with a given text, before it is built. -/
def ofText (text : String) : ProgramBuilder := (ProgramBuilder.new "host" "/sdk").unit "src/lib.rs" text

/-- The program of one unit with a given text, without the unit if the text cannot be parsed. -/
def built (text : String) : Program := (ofText text).build.toOption.getD ⟨"host", [], []⟩

/-- Programs of one unit are programs of one crate, if their texts can be parsed. -/
lemma oneCrate_built {texts : List String} (parsed : ∀ text ∈ texts, (ofText text).build.isOk = true) :
    Program.OneCrate (texts.map built) := by
  refine Program.oneCrate_of_build "host" fun p hp => ?_
  obtain ⟨text, ht, rfl⟩ := List.mem_map.mp hp
  have placed : (ofText text).Placed := ProgramBuilder.placed_new.unit "src/lib.rs" text
  refine ⟨ofText text, rfl, placed, .inl rfl, ?_⟩
  cases eq : (ofText text).build with
  | ok p =>
    rw [built, eq]
    rfl
  | error e =>
    have ok := parsed text ht
    rw [eq] at ok
    cases ok

/-- Tokens do not determine a tree: an empty `where` clause has none. -/
lemma not_readAlike_emptyWhere :
    ¬ Program.ReadAlike Transcript [built "impl A {}", built "impl A where {}"] := by
  intro alike
  have tokens : ∀ u ∈ (built "impl A {}").units, ∀ v ∈ (built "impl A where {}").units,
      unitKey u = unitKey v ∧ u.parsed.file.text = v.parsed.file.text := by decide +kernel
  have differ : ∃ u ∈ (built "impl A {}").units, ∃ v ∈ (built "impl A where {}").units,
      (u.parsed.file.printed.items == v.parsed.file.printed.items) = false := by decide +kernel
  obtain ⟨u, hu, v, hv, differ⟩ := differ
  obtain ⟨key, text⟩ := tokens u hu v hv
  have second := List.mem_cons_of_mem (built "impl A {}") (List.mem_singleton_self (built "impl A where {}"))
  have tree := alike.trees _ List.mem_cons_self _ second u hu v hv key text
  rw [tree, beq_self_eq_true] at differ
  cases differ

/-- A compiler that always leaves an image, and a loader that always serves no generators. -/
def willing : Backend Memoryless where
  compile _ := .finished (.ok ⟨some [0], []⟩)
  load := Loading.serve []

/-- A host that answers so; its state is whether it gives up. -/
def willingHost : Host Bool Memoryless where
  poll s := (s, s)
  compile r s := (willing.compile r, s)
  load m s := (willing.load m, s)

/-- A program, another one whose call is given up, and the first one with a line break at its end: the last call
answers all but the output from memory. -/
theorem run_eq_pass_iff_blankLine :
    let past : List (PassCall Bool) := [⟨built "pub struct A;", false⟩, ⟨built "", true⟩]
    let k : PassCall Bool := ⟨built "pub struct A;\n", false⟩
    let after : List (PassCall Bool) → PipelineCells Transcript Memoryless := .after willingHost .default
    let cells := after past
    (k.run willingHost .default cells).2.stats = ⟨⟨1, 1⟩, ⟨1, 1⟩, ⟨1, 1⟩, ⟨1, 1⟩, ⟨0, 2⟩⟩ ∧
      ∃ out, (k.run willingHost .default cells).1 = .ok out ∧
        ∃ model m, Model.ofProgram k.program = .ok model ∧ (after (past ++ [k])).currentModule = some m ∧
        let known := (past ++ [k]).map (·.program)
        let input := cells.input .default model
        willing.passFrom m.epoch model input = .ok (m, out) ∧
        (∃ parts, input.fragments = parts.flatten ∧
          List.Forall₂ (Program.Knows known k.program) k.program.units parts) ∧
        CollectedFrom known (k.program.fingerprint : Transcript) input.globals ∧
        (willing.pass .default m.epoch k.program = .ok (m, out) ↔
          input.crate = (ModuleInput.ofModel .default model).crate) ∧
        (Program.ReadAlike Transcript known → willing.pass .default m.epoch k.program = .ok (m, out)) := by
  intro past k after cells
  refine ⟨by decide +kernel, ?_⟩
  cases done : (k.run willingHost .default cells).1 with
  | ok out =>
    have follows : willingHost.Follows willing := ⟨fun _ _ => rfl, fun _ _ => rfl, fun _ _ _ _ _ => rfl⟩
    have crate : Program.OneCrate ((past ++ [k]).map (·.program)) :=
      oneCrate_built (by decide +kernel : ∀ text ∈ ["pub struct A;", "", "pub struct A;\n"], _)
    exact ⟨out, rfl, run_eq_pass_iff Transcript.injective follows crate done⟩
  | error e =>
    have ends : (k.run willingHost .default cells).1.isOk = true := by decide +kernel
    rw [done] at ends
    cases ends

end PassCall

end SourceGen
