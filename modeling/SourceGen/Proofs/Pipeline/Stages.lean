import Mathlib.Data.List.Forall2
import SourceGen.Pipeline.Scratch
import SourceGen.Proofs.Assembly.Crate
import SourceGen.Proofs.Memo
import SourceGen.Proofs.Program.Fingerprint

/-!
# What the cells of a pipeline remember

Every cell remembers what its stage computes (`PipelineCells.Remembers`): fragments and global imports
come from programs of the history, the module is what the compiler makes of the input next to it, and the
load and the output belong to the module if they carry its epoch. One lemma for each stage says what the
stage answers on such cells, and that the cells it leaves are such cells again, whether the answer was
remembered or computed and whether the stage came to its end or was stopped.
-/

namespace SourceGen

open SourceGen.Pass

variable {δ γ β : Type}

/-! ### Steps of a pass -/

namespace Pass

variable {α α' : Type} {c : PipelineCells δ γ} {good : α → PipelineCells δ γ → Prop}
  {stopped : PipelineCells δ γ → Prop}

/-- Where a step leads from given cells on, whatever the state of the host: to a value and cells that are
`good`, or to a stop with cells that are `stopped`. -/
def Leads (x : PassM δ γ β α) (c : PipelineCells δ γ) (good : α → PipelineCells δ γ → Prop)
    (stopped : PipelineCells δ γ → Prop) : Prop :=
  ∀ host, match x ⟨c, host⟩ with
    | (.ok a, s) => good a s.cells
    | (.error _, s) => stopped s.cells

lemma bind_apply (x : PassM δ γ β α) (f : α → PassM δ γ β α') (s : PassState δ γ β) :
    (x >>= f) s = (ExceptT.bindCont f (x s).1 : StateM (PassState δ γ β) _) (x s).2 := rfl

lemma Leads.bind {x : PassM δ γ β α} {f : α → PassM δ γ β α'} {good : α' → PipelineCells δ γ → Prop}
    (h : Leads x c (fun a c' => Leads (f a) c' good stopped) stopped) :
    Leads (x >>= f) c good stopped := by
  intro host
  have first := h host
  rw [bind_apply]
  split at first
  case h_1 a s eq =>
    rw [eq]
    exact first s.host
  case h_2 e s eq =>
    rw [eq]
    exact first

/-- A step that leads somewhere leads to all that follows from it. -/
lemma Leads.mono {x : PassM δ γ β α} {good' : α → PipelineCells δ γ → Prop}
    {stopped' : PipelineCells δ γ → Prop} (h : Leads x c good stopped)
    (good_of : ∀ a c', good a c' → good' a c') (stopped_of : ∀ c', stopped c' → stopped' c') :
    Leads x c good' stopped' := by
  intro host
  have first := h host
  split at first
  case h_1 a s eq => exact good_of a s.cells first
  case h_2 e s eq => exact stopped_of s.cells first

/-- A step goes on from wherever the one before it leads. -/
lemma Leads.andThen {x : PassM δ γ β α} {f : α → PassM δ γ β α'} {good' : α' → PipelineCells δ γ → Prop}
    (h : Leads x c good stopped) (next : ∀ a c', good a c' → Leads (f a) c' good' stopped) :
    Leads (x >>= f) c good' stopped :=
  .bind (h.mono next fun _ => id)

lemma leads_pure {a : α} (h : good a c) : Leads (pure a : PassM δ γ β α) c good stopped := fun _ => h

lemma leads_throw {e : PassStop} (h : stopped c) : Leads (throw e : PassM δ γ β α) c good stopped :=
  fun _ => h

lemma leads_cells {good : PipelineCells δ γ → PipelineCells δ γ → Prop} (h : good c c) :
    Leads (cells : PassM δ γ β _) c good stopped := fun _ => h

lemma leads_change {f : PipelineCells δ γ → PipelineCells δ γ} {good : Unit → PipelineCells δ γ → Prop}
    (h : good () (f c)) : Leads (change f : PassM δ γ β Unit) c good stopped := fun _ => h

lemma leads_ask {f : β → α × β} (h : ∀ host, good (f host).1 c) :
    Leads (ask f : PassM δ γ β α) c good stopped := fun host => h host

/-- A check leaves the cells alone, whether the host gives up or not. -/
lemma leads_check (h : Host β γ) (stops : stopped c) :
    Leads (check h : PassM δ γ β Unit) c (fun _ c' => c = c') stopped := by
  refine .bind (leads_ask fun host => ?_)
  split
  · exact leads_throw stops
  · exact leads_pure rfl

end Pass

/-! ### Building -/

namespace Reference

lemma sameList_refl (rs : List Reference) : sameList rs rs = true := by
  induction rs with
  | nil => rfl
  | cons r rs ih =>
    have same : Reference.same r r = true := by
      obtain ⟨name, source⟩ := r
      cases source <;> simp [Reference.same, sameSource]
    rw [sameList, same, ih]
    rfl

end Reference

namespace SyntheticModule

/-- The crate that a module was compiled from; the text of an empty module is empty. -/
def crate? (m : SyntheticModule) : Option AssembledCrate :=
  if m.source = "" then none else some ⟨m.source, m.probes⟩

end SyntheticModule

namespace ModuleInput

/-- Whether the fragments of an input are named after their declarations. -/
def WellNamed (i : ModuleInput) : Prop := ∀ f ∈ i.fragments, f.WellNamed

/-- The crate of an input depends on its global imports, and on its fragments up to their places. -/
lemma crate_congr {i j : ModuleInput}
    (places : i.fragments.map Fragment.placeless = j.fragments.map Fragment.placeless)
    (globals : i.globals = j.globals) : i.crate = j.crate := by
  have empty : i.fragments.isEmpty = j.fragments.isEmpty := by
    rw [← List.isEmpty_map (f := Fragment.placeless), places, List.isEmpty_map]
  rw [crate, crate, empty, globals, assemble_placeless places]

/-- Inputs that compare as equal have one crate. -/
lemma crate_eq_of_beq {i j : ModuleInput} (hi : i.WellNamed) (hj : j.WellNamed) (eq : (i == j) = true) :
    i.crate = j.crate ∧ Reference.sameList i.references j.references = true := by
  have parts : (i.fragments == j.fragments && i.globals == j.globals &&
      Reference.sameList i.references j.references) = true := eq
  rw [Bool.and_eq_true, Bool.and_eq_true] at parts
  obtain ⟨⟨fragments, globals⟩, references⟩ := parts
  have places := Fragment.map_placeless_eq_of_beq hi hj fragments
  have globals : i.globals = j.globals := by
    have imports : (i.globals.imports == j.globals.imports) = true := globals
    exact congrArg GlobalImports.mk (eq_of_beq imports)
  exact ⟨crate_congr places globals, references⟩

/-- The crate of an input has a text. -/
lemma source_ne_empty_of_crate {i : ModuleInput} {crate : AssembledCrate} (h : i.crate = .ok (some crate)) :
    crate.source ≠ "" := by
  rw [ModuleInput.crate] at h
  split at h
  · cases h
  · cases made : assemble i.fragments i.globals with
    | error f =>
      rw [made] at h
      cases h
    | ok crate' =>
      rw [made] at h
      cases h
      exact assemble_source_ne_empty made

end ModuleInput

namespace Backend

variable {b : Backend γ} {e : Epoch} {i j : ModuleInput} {m : SyntheticModule}

/-- A module belongs to the epoch that it is built in, and tells the crate that it was compiled from. -/
lemma crate_of_build (h : b.build e i = .ok m) : m.epoch = e ∧ i.crate = .ok m.crate? := by
  unfold build at h
  split at h
  case h_1 => cases h
  case h_2 crate =>
    cases h
    exact ⟨rfl, crate⟩
  case h_3 made crate =>
    have text := ModuleInput.source_ne_empty_of_crate crate
    split at h
    case h_1 result _ =>
      cases h
      cases result with
      | ok o =>
        refine ⟨rfl, crate.trans ?_⟩
        simp [SyntheticModule.ofCompilation, SyntheticModule.crate?, text]
      | error f =>
        refine ⟨rfl, crate.trans ?_⟩
        simp [SyntheticModule.ofCompilation, SyntheticModule.crate?, text]
    case h_2 => cases h

lemma build_of_passFrom [Generator γ] {model : Model} {out : GenerationOutput}
    (h : b.passFrom e model i = .ok (m, out)) : b.build e i = .ok m := by
  unfold passFrom at h
  cases built : b.build e i with
  | error f =>
    rw [built] at h
    cases h
  | ok m' =>
    rw [built] at h
    cases h
    rfl

/-- What is built from an input depends on its crate and on its references, up to the equality of these. -/
lemma build_congr {h : Host β γ} (follows : h.Follows b) (crate : i.crate = j.crate)
    (references : Reference.sameList i.references j.references = true) : b.build e i = b.build e j := by
  unfold build
  rw [crate]
  split
  case h_1 => rfl
  case h_2 => rfl
  case h_3 made _ =>
    have answer : b.compile (.ofCrate e made i.references) = b.compile (.ofCrate e made j.references) :=
      follows.same e.crateName made.source i.references j.references references
    rw [answer]

end Backend

/-! ### The invariant -/

section Remembers

variable [Digest δ]

/-- Whether fragments are those of a unit of a known program, and were taken under the key of that unit
and the summaries of its tokens and of the references of the program. -/
def TakenFrom (config : Config) (known : List Program) (key : List PathPart) (summary : δ × δ)
    (fs : List Fragment) : Prop :=
  ∃ p ∈ known, ∃ m, Model.ofProgram p = .ok m ∧ ∃ u ∈ p.units, ∃ index, unitKey u = key ∧
    (u.fingerprint, referencesFingerprint (referenceSet config p)) = summary ∧ fs = Fragment.ofUnit m index u

/-- Whether global imports are those of a known program, and were collected under its summary. -/
def CollectedFrom (known : List Program) (summary : δ) (g : GlobalImports) : Prop :=
  ∃ p ∈ known, p.fingerprint = summary ∧ g = .ofProgram p

namespace PipelineCells

/-- What cells remember that only ever saw known programs. -/
structure Remembers [Generator γ] (b : Backend γ) (config : Config) (known : List Program)
    (c : PipelineCells δ γ) : Prop where
  fragments : c.fragments.Holds (TakenFrom config known)
  globals : c.globals.Holds (CollectedFrom known)
  /-- The module is the one that is built from the input next to it. -/
  module : c.module.Holds fun i m =>
    b.build m.epoch i = .ok m ∧ i.WellNamed ∧ m.epoch.number ≤ c.epoch.number
  /-- What was loaded in the epoch of the module was loaded from it. -/
  load : c.load.Holds fun e loaded => e.number ≤ c.epoch.number ∧
    ∀ m, c.currentModule = some m → m.epoch = e → loaded = b.load m
  /-- What was put out in the epoch of the module is the output of a known program under it. -/
  output : c.output.Holds fun key o => key.2.2.number ≤ c.epoch.number ∧
    ∀ m, c.currentModule = some m → m.epoch = key.2.2 →
      ∃ p ∈ known, ∃ model, Model.ofProgram p = .ok model ∧ p.fingerprint = key.1 ∧ p.layout = key.2.1 ∧
        o = outputOf model m (b.load m)

variable [Generator γ] {b : Backend γ} {config : Config} {known : List Program} {c : PipelineCells δ γ}

omit [Digest δ] [Generator γ] in
/-- The module that was built last stands next to its input. -/
lemma entry_of_currentModule {m : SyntheticModule} (h : c.currentModule = some m) :
    ∃ i, c.module.entry = some (i, m) := by
  obtain ⟨⟨i, _⟩, entry, rfl⟩ := Option.map_eq_some_iff.mp h
  exact ⟨i, entry⟩

lemma remembers_start : (start : PipelineCells δ γ).Remembers b config known where
  fragments := fun _ _ _ there => absurd there List.not_mem_nil
  globals := fun _ _ entry => by cases entry
  module := fun _ _ entry => by cases entry
  load := fun _ _ entry => by cases entry
  output := fun _ _ entry => by cases entry

/-- An epoch that begins makes nothing out of date, whatever is counted. -/
lemma Remembers.began (h : c.Remembers b config known) :
    { c with module := c.module.miss, epoch := c.epoch.next }.Remembers b config known where
  fragments := h.fragments
  globals := h.globals
  module := fun i m entry =>
    have ⟨built, named, below⟩ := h.module i m entry
    ⟨built, named, Nat.le_succ_of_le below⟩
  load := fun e loaded entry =>
    have ⟨below, rest⟩ := h.load e loaded entry
    ⟨Nat.le_succ_of_le below, rest⟩
  output := fun key o entry =>
    have ⟨below, rest⟩ := h.output key o entry
    ⟨Nat.le_succ_of_le below, rest⟩

/-- A module of a new epoch makes all that was loaded or put out before a matter of older epochs. -/
lemma Remembers.built (h : c.Remembers b config known) {i : ModuleInput} {m : SyntheticModule}
    (named : i.WellNamed) (built : b.build c.epoch.next i = .ok m) :
    { c with module := c.module.miss.fill i m, epoch := c.epoch.next }.Remembers b config known where
  fragments := h.fragments
  globals := h.globals
  module := fun i' m' entry => by
    have epoch := (Backend.crate_of_build built).1
    cases entry
    exact ⟨epoch ▸ built, named, epoch ▸ Nat.le_refl _⟩
  load := fun e loaded entry => by
    have below := (h.load e loaded entry).1
    refine ⟨Nat.le_succ_of_le below, fun m' current same => ?_⟩
    cases current
    rw [← same, (Backend.crate_of_build built).1] at below
    exact absurd below (Nat.not_succ_le_self _)
  output := fun key o entry => by
    have below := (h.output key o entry).1
    refine ⟨Nat.le_succ_of_le below, fun m' current same => ?_⟩
    cases current
    rw [← same, (Backend.crate_of_build built).1] at below
    exact absurd below (Nat.not_succ_le_self _)

end PipelineCells

end Remembers

/-! ### The stages -/

/-- The markers of a program are a matter of its references. -/
lemma MarkerTable.ofProgram_congr {p q : Program} (references : q.references = p.references) :
    ofProgram q = ofProgram p := by
  obtain ⟨_, _, _⟩ := p
  obtain ⟨_, _, _⟩ := q
  cases references
  rfl

namespace Model

/-- A model is made of the program, its markers and the names of the other crates. -/
lemma eq_of_ofProgram {p : Program} {m : Model} (h : Model.ofProgram p = .ok m) :
    ∃ markers, MarkerTable.ofProgram p = .ok markers ∧
      m = ⟨p, markers, builtinCrates ++ p.references.map (·.name)⟩ := by
  unfold ofProgram at h
  cases table : MarkerTable.ofProgram p with
  | error e =>
    rw [table] at h
    cases h
  | ok markers =>
    rw [table] at h
    cases h
    exact ⟨markers, rfl, rfl⟩

lemma program_of_ofProgram {p : Program} {m : Model} (h : Model.ofProgram p = .ok m) : m.program = p := by
  obtain ⟨_, -, rfl⟩ := eq_of_ofProgram h
  rfl

/-- Models of programs with the same references agree on markers and on other crates. -/
lemma congr_of_ofProgram {p q : Program} {m m' : Model} (references : q.references = p.references)
    (hm : Model.ofProgram p = .ok m) (hm' : Model.ofProgram q = .ok m') :
    m.markers = m'.markers ∧ m.externCrates = m'.externCrates := by
  obtain ⟨markers, table, rfl⟩ := eq_of_ofProgram hm
  obtain ⟨markers', table', rfl⟩ := eq_of_ofProgram hm'
  rw [MarkerTable.ofProgram_congr references, table] at table'
  cases table'
  exact ⟨rfl, by rw [references]⟩

/-- A program has a model if one with the same references has one. -/
lemma exists_of_references {p q : Program} {m : Model} (references : q.references = p.references)
    (hm : Model.ofProgram p = .ok m) : ∃ m', Model.ofProgram q = .ok m' := by
  obtain ⟨markers, table, -⟩ := eq_of_ofProgram hm
  rw [ofProgram, MarkerTable.ofProgram_congr references, table]
  exact ⟨_, rfl⟩

end Model

namespace Pass

section Collecting

variable [Digest δ] [BEq δ] [LawfulBEq δ] {config : Config} {known : List Program} {p : Program}
  {model : Model}

/-- Fragments that are collected unit by unit are those of known units, and so are those that the cell
goes on to remember. -/
lemma collectFrom_holds {memo : KeyedMemo (List PathPart) (δ × δ) (List Fragment)}
    (holds : memo.Holds (TakenFrom config known)) (hp : p ∈ known) (hm : Model.ofProgram p = .ok model)
    {us : List SourceUnit} (sub : ∀ u ∈ us, u ∈ p.units) (index : Nat) :
    let references : δ := referencesFingerprint (referenceSet config p)
    let collected := collectFrom model references index memo us
    (∃ parts, collected.1 = parts.flatten ∧
      List.Forall₂ (fun u fs => TakenFrom config known (unitKey u) (u.fingerprint, references) fs) us parts) ∧
      collected.2.Holds (TakenFrom config known) := by
  intro references
  induction us generalizing index memo with
  | nil => exact ⟨⟨[], rfl, .nil⟩, holds⟩
  | cons u us ih =>
    have new : TakenFrom config known (unitKey u) (u.fingerprint, references)
        (Fragment.ofUnit model index u) :=
      ⟨p, hp, model, hm, u, sub u List.mem_cons_self, index, rfl, rfl, rfl⟩
    obtain ⟨found, holds⟩ :=
      KeyedMemo.getOrCompute_holds holds (fun _ => Fragment.ofUnit model index u) new
    have sub_rest : ∀ v ∈ us, v ∈ p.units := fun v hv => sub v (List.mem_cons_of_mem u hv)
    obtain ⟨⟨parts, eq, each⟩, holds⟩ := ih holds sub_rest (index + 1)
    refine ⟨⟨_ :: parts, ?_, .cons found each⟩, holds⟩
    rw [List.flatten_cons, ← eq]
    rfl

variable {c : PipelineCells δ γ}

/-- The fragments of a pass are those of known units, one unit after the other. -/
lemma input_takenFrom (holds : c.fragments.Holds (TakenFrom config known)) (hp : p ∈ known)
    (hm : Model.ofProgram p = .ok model) :
    ∃ parts, (c.input config model).fragments = parts.flatten ∧
      List.Forall₂ (fun u fs => TakenFrom config known (unitKey u)
        ((u.fingerprint, referencesFingerprint (referenceSet config p)) : δ × δ) fs) p.units parts := by
  have collected := (collectFrom_holds holds hp hm (fun _ hu => hu) 0).1
  obtain rfl := Model.program_of_ofProgram hm
  exact collected

lemma input_wellNamed (holds : c.fragments.Holds (TakenFrom config known)) (hp : p ∈ known)
    (hm : Model.ofProgram p = .ok model) : (c.input config model).WellNamed := by
  obtain ⟨parts, eq, each⟩ := input_takenFrom holds hp hm
  rw [ModuleInput.WellNamed, eq]
  generalize p.units = us at each
  clear eq
  induction each with
  | nil => exact fun f hf => absurd hf List.not_mem_nil
  | cons taken _ ih =>
    obtain ⟨p', hp', m', hm', u', hu', index, -, -, rfl⟩ := taken
    intro f hf
    exact (List.mem_append.mp hf).elim Fragment.wellNamed_of_mem_ofUnit (ih f)

end Collecting

variable [Digest δ] [Generator γ] {b : Backend γ} {h : Host β γ} {config : Config} {known : List Program}
  {c : PipelineCells δ γ} {p : Program} {model : Model}

lemma leads_fragmentStage [BEq δ] [LawfulBEq δ] (remembers : c.Remembers b config known) (hp : p ∈ known)
    (hm : Model.ofProgram p = .ok model) :
    Leads (fragmentStage model (referenceSet config p) : PassM δ γ β _) c
      (fun fs c' => fs = (c.input config model).fragments ∧ c'.globals = c.globals ∧
        c'.Remembers b config known)
      (·.Remembers b config known) := by
  have holds := (collectFrom_holds remembers.fragments hp hm (fun _ hu => hu) 0).2
  obtain rfl := Model.program_of_ofProgram hm
  intro host
  exact ⟨rfl, rfl, { remembers with fragments := KeyedMemo.retain_holds holds _ }⟩

lemma leads_globalStage [BEq δ] [LawfulBEq δ] (remembers : c.Remembers b config known) (hp : p ∈ known) :
    Leads (globalStage p : PassM δ γ β _) c
      (fun g c' => g = (c.globals.getOrCompute p.fingerprint fun _ => .ofProgram p).1 ∧
        c'.Remembers b config known)
      (·.Remembers b config known) := by
  have holds := Memo.getOrCompute_holds remembers.globals (fun _ => .ofProgram p) ⟨p, hp, rfl, rfl⟩
  intro host
  exact ⟨rfl, { remembers with globals := holds.2 }⟩

omit [Digest δ] [Generator γ] in
/-- A build on a host that answers like a backend leaves the cells alone. -/
lemma leads_buildModule (follows : h.Follows b) (e : Epoch) (i : ModuleInput) :
    Leads (buildModule h e i : PassM δ γ β _) c (fun m c' => c' = c ∧ b.build e i = .ok m) (· = c) := by
  unfold buildModule Backend.build ModuleInput.crate
  split
  case isTrue => exact leads_pure ⟨rfl, rfl⟩
  case isFalse =>
    split
    case h_1 f assembled => exact leads_throw rfl
    case h_2 crate assembled =>
      refine .bind (leads_ask fun host => ?_)
      rw [follows.compile, assembled]
      split
      case h_1 result finished => exact leads_pure ⟨rfl, by simp only [Except.map, finished]⟩
      case h_2 crashed => exact leads_throw rfl

lemma leads_moduleStage (follows : h.Follows b) (remembers : c.Remembers b config known) {i : ModuleInput}
    (named : i.WellNamed) :
    Leads (moduleStage h i : PassM δ γ β _) c
      (fun m c' => c'.Remembers b config known ∧ c'.currentModule = some m ∧ b.build m.epoch i = .ok m)
      (·.Remembers b config known) := by
  refine .bind (leads_cells ?_)
  split
  case h_1 m held =>
    obtain ⟨cached, entry, same⟩ := Memo.entry_of_held? held
    obtain ⟨built, cachedNamed, below⟩ := remembers.module cached m entry
    obtain ⟨crate, references⟩ := ModuleInput.crate_eq_of_beq cachedNamed named same
    refine .bind (leads_change (leads_pure ⟨{ remembers with }, ?_, ?_⟩))
    · exact congrArg (Option.map (·.2)) entry
    · rw [← Backend.build_congr follows crate references]
      exact built
  case h_2 =>
    refine .bind (leads_change (.bind ((leads_buildModule follows c.epoch.next i).mono ?_ ?_)))
    · rintro m _ ⟨rfl, built⟩
      refine .bind (leads_change (leads_pure ⟨remembers.built named built, rfl, ?_⟩))
      rw [(Backend.crate_of_build built).1]
      exact built
    · rintro _ rfl
      exact remembers.began

lemma leads_loadStage (follows : h.Follows b) (remembers : c.Remembers b config known) {m : SyntheticModule}
    (current : c.currentModule = some m) :
    Leads (loadStage h m : PassM δ γ β _) c
      (fun loaded c' => c'.Remembers b config known ∧ c'.currentModule = some m ∧ loaded = b.load m)
      (·.Remembers b config known) := by
  refine .bind (leads_cells ?_)
  split
  case h_1 loaded held =>
    obtain ⟨e, entry, same⟩ := Memo.entry_of_held? held
    obtain rfl : e = m.epoch := eq_of_beq same
    refine .bind (leads_change (leads_pure ⟨{ remembers with }, current, ?_⟩))
    exact (remembers.load m.epoch loaded entry).2 m current rfl
  case h_2 =>
    refine .bind (leads_change (.bind (leads_ask fun host => .bind (leads_change (leads_pure ?_)))))
    refine ⟨{ remembers with load := ?_ }, current, follows.load m host⟩
    intro e loaded entry
    cases entry
    obtain ⟨i, entry⟩ := PipelineCells.entry_of_currentModule current
    refine ⟨(remembers.module i m entry).2.2, fun m' current' _ => ?_⟩
    change c.currentModule = some m' at current'
    rw [current] at current'
    cases current'
    exact follows.load m host

lemma leads_outputStage [BEq δ] [LawfulBEq δ] (remembers : c.Remembers b config known) (hp : p ∈ known)
    (hm : Model.ofProgram p = .ok model) {m : SyntheticModule} (current : c.currentModule = some m)
    (told : ∀ q ∈ known, (q.fingerprint : δ) = p.fingerprint → (q.layout : δ) = p.layout → q = p) :
    Leads (outputStage model m (b.load m) : PassM δ γ β _) c
      (fun o c' => c'.Remembers b config known ∧ c'.currentModule = some m ∧
        o = outputOf model m (b.load m))
      (·.Remembers b config known) := by
  obtain rfl := Model.program_of_ofProgram hm
  refine .bind (leads_cells ?_)
  cases held : c.output.held? (model.program.fingerprint, model.program.layout, m.epoch) with
  | some o =>
    simp only [held]
    obtain ⟨key, entry, same⟩ := Memo.entry_of_held? held
    obtain rfl := eq_of_beq same
    obtain ⟨q, hq, model', hm', tokens, texts, rfl⟩ := (remembers.output _ o entry).2 m current rfl
    -- the remembered output is that of a known program with the same summaries, which is this program
    obtain rfl := told q hq tokens texts
    rw [hm] at hm'
    cases hm'
    exact .bind (leads_change (leads_pure ⟨{ remembers with }, current, rfl⟩))
  | none =>
    simp only [held]
    refine .bind (leads_change (leads_pure ⟨{ remembers with output := ?_ }, current, rfl⟩))
    intro key o entry
    cases entry
    obtain ⟨i, entry⟩ := PipelineCells.entry_of_currentModule current
    refine ⟨(remembers.module i m entry).2.2, fun m' current' _ => ?_⟩
    change c.currentModule = some m' at current'
    rw [current] at current'
    cases current'
    exact ⟨model.program, hp, model, hm, rfl, rfl, rfl⟩

end Pass

end SourceGen
