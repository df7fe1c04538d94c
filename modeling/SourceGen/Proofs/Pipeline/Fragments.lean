import SourceGen.Proofs.Pipeline.Incremental
import SourceGen.Proofs.Pipeline.Steps

/-!
# Whose fragments the cells hand out

The cell of fragments is asked by the path of a unit, by its tokens and by the references of the module. Collecting
looks at more: at the module that the unit defines, at the tree, and at the references of the program itself. So the
cell is right over all calls exactly if whatever it cannot tell apart has the same fragments
(`PipelineCells.fragments_faithful`). It cannot tell a unit from the same text that defines another module
(`PipelineCells.fragments_ne_movedUnit`).
-/

namespace SourceGen

open SourceGen.Pass

variable {δ γ β : Type}

/-! ### Equality of fragments -/

namespace Fragment

/-- Fragments that add the same to a crate compare as equal. -/
lemma beq_of_placeless {f g : Fragment} (eq : f.placeless = g.placeless) : (f == g) = true := by
  have self : ∀ f : Fragment, Fragment.beq f f = true := fun f => by
    simp only [Fragment.beq, beq_self_eq_true, Bool.and_self]
  have parts : Fragment.beq f.placeless g.placeless = true := eq ▸ self f.placeless
  exact parts

lemma beq_of_map_placeless {fs gs : List Fragment} (eq : fs.map placeless = gs.map placeless) :
    (fs == gs) = true := by
  induction fs generalizing gs with
  | nil =>
    cases gs with
    | nil => rfl
    | cons g gs => cases eq
  | cons f fs ih =>
    cases gs with
    | nil => cases eq
    | cons g gs =>
      obtain ⟨first, rest⟩ := List.cons.inj eq
      rw [List.cons_beq_cons, beq_of_placeless first, ih rest, Bool.and_self]

/-- Fragments of units compare as equal exactly if they add the same to a crate. -/
lemma ofUnit_beq_iff {m m' : Model} {index index' : Nat} {u u' : SourceUnit} :
    (ofUnit m index u == ofUnit m' index' u') = true ↔
      (ofUnit m index u).map placeless = (ofUnit m' index' u').map placeless :=
  ⟨map_placeless_eq_of_beq (fun _ => wellNamed_of_mem_ofUnit) (fun _ => wellNamed_of_mem_ofUnit),
    beq_of_map_placeless⟩

lemma ofUnit_index (m : Model) (u : SourceUnit) (index index' : Nat) :
    (ofUnit m index u).map placeless = (ofUnit m index' u).map placeless :=
  ofUnit_placeless rfl rfl rfl rfl index index'

end Fragment

/-! ### What the cell is asked by -/

namespace Program

/-- Whether units of programs are one to the cell of fragments. -/
def SameKey (config : Config) (p : Program) (u : SourceUnit) (q : Program) (v : SourceUnit) : Prop :=
  unitKey u = unitKey v ∧ u.parsed.file.text = v.parsed.file.text ∧ referenceSet config p = referenceSet config q

/-- Whether units of known programs that are one to the cell of fragments have the same fragments. -/
def KeyTells (config : Config) (known : List Program) : Prop :=
  ∀ p ∈ known, ∀ m, Model.ofProgram p = .ok m → ∀ q ∈ known, ∀ m', Model.ofProgram q = .ok m' →
    ∀ u ∈ p.units, ∀ v ∈ q.units, SameKey config p u q v →
      (Fragment.ofUnit m 0 u == Fragment.ofUnit m' 0 v) = true

/-- The key tells enough if it tells the module of a unit, its tree and the references of its program. -/
lemma keyTells_of_agree {config : Config} {known : List Program}
    (agree : ∀ p ∈ known, ∀ q ∈ known, ∀ u ∈ p.units, ∀ v ∈ q.units, SameKey config p u q v →
      u.modulePath = v.modulePath ∧ u.parsed.file.printed = v.parsed.file.printed ∧
        q.references = p.references) : KeyTells config known := by
  intro p hp m hm q hq m' hm' u hu v hv same
  obtain ⟨place, tree, references⟩ := agree p hp q hq u hu v hv same
  obtain ⟨markers, crates⟩ := Model.congr_of_ofProgram references hm hm'
  exact Fragment.ofUnit_beq_iff.mpr (Fragment.ofUnit_placeless markers crates place tree 0 0)

end Program

namespace Pass

variable [Digest δ] {config : Config} {known : List Program} {p : Program} {m : Model}

/-- Fragments that were taken under the key and the summaries of a unit are those of a unit that is one to the
cell. -/
lemma exists_of_takenFrom (inj : Digest.Injective δ) {u : SourceUnit} {fs : List Fragment}
    (h : TakenFrom config known (unitKey u)
      ((u.fingerprint, referencesFingerprint (referenceSet config p)) : δ × δ) fs) :
    ∃ q ∈ known, ∃ m', Model.ofProgram q = .ok m' ∧ ∃ v ∈ q.units, Program.SameKey config p u q v ∧
      ∃ index, fs = Fragment.ofUnit m' index v := by
  obtain ⟨q, hq, m', hm', v, hv, index, key, summaries, rfl⟩ := h
  obtain ⟨tokens, lines⟩ := Prod.mk.inj summaries
  have references := Program.references_eq_of_lines inj (inj.combine lines)
  exact ⟨q, hq, m', hm', v, hv, ⟨key.symm, (inj.ofText tokens).symm, references.symm⟩, index, rfl⟩

/-- If the key tells enough, what was taken under the key of a unit adds the same to a crate as its own fragments. -/
lemma placeless_of_keyTells (inj : Digest.Injective δ) (tells : Program.KeyTells config known)
    (hp : p ∈ known) (hm : Model.ofProgram p = .ok m) {u : SourceUnit} (hu : u ∈ p.units)
    {fs : List Fragment}
    (taken : TakenFrom config known (unitKey u)
      ((u.fingerprint, referencesFingerprint (referenceSet config p)) : δ × δ) fs) (index : Nat) :
    fs.map Fragment.placeless = (Fragment.ofUnit m index u).map Fragment.placeless := by
  obtain ⟨q, hq, m', hm', v, hv, same, index', rfl⟩ := exists_of_takenFrom inj taken
  have alike := Fragment.ofUnit_beq_iff.mp (tells p hp m hm q hq m' hm' u hu v hv same)
  rw [Fragment.ofUnit_index m' v index' 0, ← alike, Fragment.ofUnit_index m u 0 index]

/-! ### A cell without repeated paths -/

variable [BEq δ] [LawfulBEq δ] {memo : KeyedMemo (List PathPart) (δ × δ) (List Fragment)}

/-- What a cell hands out for a unit at a given position: what it remembers, or else the fragments of the unit. -/
def handed (m : Model) (references : δ) (memo : KeyedMemo (List PathPart) (δ × δ) (List Fragment))
    (u : SourceUnit) (index : Nat) : List Fragment :=
  (memo.held? (unitKey u) (u.fingerprint, references)).getD (Fragment.ofUnit m index u)

/-- Units with paths of their own do not disturb each other: each is handed out what the cell has for it, and that is
what the cell then remembers. -/
lemma collectFrom_distinct (m : Model) (references : δ)
    (memo : KeyedMemo (List PathPart) (δ × δ) (List Fragment)) {us : List SourceUnit}
    (distinct : (us.map unitKey).Nodup) (index : Nat) :
    let collected := collectFrom m references index memo us
    collected.1 = ((us.zipIdx index).map fun e => handed m references memo e.1 e.2).flatten ∧
      (∀ e ∈ us.zipIdx index, collected.2.held? (unitKey e.1) (e.1.fingerprint, references) =
        some (handed m references memo e.1 e.2)) ∧
      ∀ key, key ∉ us.map unitKey → ∀ input, collected.2.held? key input = memo.held? key input := by
  intro collected
  induction us generalizing index memo with
  | nil => exact ⟨rfl, fun _ he => absurd he List.not_mem_nil, fun _ _ _ => rfl⟩
  | cons u us ih =>
    obtain ⟨fresh, distinct⟩ := List.nodup_cons.mp distinct
    obtain ⟨rest, remembered, untouched⟩ := ih
      (memo.getOrCompute (unitKey u) (u.fingerprint, references) fun _ => Fragment.ofUnit m index u).2 distinct (index + 1)
    -- the answer for the first unit is remembered under its own key, so the others are not disturbed
    have others (e : SourceUnit × Nat) (he : e ∈ us.zipIdx (index + 1)) :
        handed m references
            (memo.getOrCompute (unitKey u) (u.fingerprint, references) fun _ => Fragment.ofUnit m index u).2 e.1 e.2 =
          handed m references memo e.1 e.2 := by
      have ne : unitKey e.1 ≠ unitKey u := by
        intro same
        exact fresh (same ▸ List.mem_map_of_mem (List.fst_mem_of_mem_zipIdx he))
      rw [handed, KeyedMemo.held?_getOrCompute_of_ne memo ne, handed]
    have first := KeyedMemo.getOrCompute_fst memo (unitKey u) (u.fingerprint, references)
      fun _ => Fragment.ofUnit m index u
    refine ⟨?_, ?_, ?_⟩
    · rw [List.zipIdx_cons, List.map_cons, List.flatten_cons, ← List.map_congr_left others, ← rest]
      exact congrArg (· ++ _) first
    · intro e he
      rw [List.zipIdx_cons] at he
      cases List.mem_cons.mp he with
      | inl eq =>
        subst eq
        refine (untouched (unitKey u) fresh _).trans ?_
        rw [KeyedMemo.held?_getOrCompute_self, first]
        rfl
      | inr he => exact (remembered e he).trans (congrArg some (others e he))
    · intro key absent input
      rw [List.map_cons, List.mem_cons, not_or] at absent
      exact (untouched key absent.2 input).trans (KeyedMemo.held?_getOrCompute_of_ne memo absent.1 _ _ _)

end Pass

/-! ### What a pass hands out -/

namespace PipelineCells

variable [Digest δ] [BEq δ] {config : Config} {known : List Program} {h : Host β γ}

/-- However a pass ends that has begun, it has collected the fragments. -/
lemma fragments_of_steps [Generator γ] {c c' : PipelineCells δ γ} {m : Model}
    (steps : (∃ out, Completed h config m c out c') ∨ Stopped h config m c c') :
    c'.fragments = (c.withFragments config m).fragments := by
  have module_kept {built : SyntheticModule} {c₁ : PipelineCells δ γ}
      (module : ModuleStep h (c.collected config m) (c.input config m) built c₁) :
      c₁.fragments = (c.withFragments config m).fragments := by
    cases module <;> rfl
  have load_kept {built : SyntheticModule} {outcome : LoadOutcome γ} {c₁ c₂ : PipelineCells δ γ}
      (load : LoadStep h c₁ built outcome c₂) : c₂.fragments = c₁.fragments := by
    cases load <;> rfl
  cases steps with
  | inl completed =>
    obtain ⟨out, module, load, output⟩ := completed
    refine Eq.trans ?_ ((load_kept load).trans (module_kept module))
    cases output <;> rfl
  | inr stopped =>
    cases stopped with
    | afterFragments => rfl
    | afterGlobals => rfl
    | inBuild => rfl
    | afterModule module => exact module_kept module
    | afterLoad module load => exact (load_kept load).trans (module_kept module)

variable [LawfulBEq δ] [Generator γ]

lemma takenFrom_run {c : PipelineCells δ γ} (holds : c.fragments.Holds (TakenFrom config known))
    {k : PassCall β} (hk : k.program ∈ known) :
    (k.run h config c).2.fragments.Holds (TakenFrom config known) := by
  have begun {model : Model} (hm : Model.ofProgram k.program = .ok model)
      (steps : (∃ out, Completed h config model c out (k.run h config c).2) ∨
        Stopped h config model c (k.run h config c).2) :
      (k.run h config c).2.fragments.Holds (TakenFrom config known) := by
    rw [fragments_of_steps steps]
    have collected := (collectFrom_holds holds hk hm (fun _ hu => hu) 0).2
    rw [← Model.program_of_ofProgram hm] at collected
    exact KeyedMemo.retain_holds collected _
  obtain ⟨model, out, hm, -, completed⟩ | ⟨-, same | ⟨model, hm, stopped⟩⟩ := k.run_steps h config c
  · exact begun hm (.inl ⟨out, completed⟩)
  · rw [same]
    exact holds
  · exact begun hm (.inr stopped)

/-- Over any calls with known programs, on any host, the cell of fragments holds fragments of known units. -/
lemma takenFrom_after {ks : List (PassCall β)} (sub : ∀ k ∈ ks, k.program ∈ known) :
    (after h config ks : PipelineCells δ γ).fragments.Holds (TakenFrom config known) := by
  induction ks using List.reverseRecOn with
  | nil => exact fun _ _ _ there => absurd there List.not_mem_nil
  | append_singleton ks k ih =>
    have holds := ih fun k hk => sub k (List.mem_append_left _ hk)
    rw [after, List.foldl_append]
    exact takenFrom_run holds (sub k (List.mem_append_right _ List.mem_cons_self))

/-- If the key tells enough, the cells hand out the fragments of a program, whatever its paths. -/
lemma input_beq_ofModel (inj : Digest.Injective δ) (tells : Program.KeyTells config known)
    {ks : List (PassCall β)} (sub : ∀ k ∈ ks, k.program ∈ known) {p : Program} (hp : p ∈ known) {m : Model}
    (hm : Model.ofProgram p = .ok m) :
    (((after h config ks : PipelineCells δ γ).input config m).fragments == Fragment.ofModel m) = true := by
  obtain ⟨parts, eq, each⟩ := input_takenFrom (takenFrom_after (δ := δ) (γ := γ) (h := h) sub) hp hm
  have own (u : SourceUnit) (hu : u ∈ p.units) (fs : List Fragment) (taken : TakenFrom config known (unitKey u)
      ((u.fingerprint, referencesFingerprint (referenceSet config p)) : δ × δ) fs) :=
    placeless_of_keyTells inj tells hp hm hu taken
  rw [eq]
  refine Fragment.beq_of_map_placeless ((Fragment.map_placeless_flatten each own 0).trans ?_)
  rw [← Model.program_of_ofProgram hm]
  rfl

/-! ### Units with paths of their own -/

/-- Whether, over all calls with known programs, the cells have for each unit of a known program its own fragments. -/
def OwnFragments (δ : Type) [Digest δ] [BEq δ] (h : Host β γ) (config : Config) (known : List Program) : Prop :=
  ∀ ks : List (PassCall β), (∀ k ∈ ks, k.program ∈ known) → ∀ p ∈ known, ∀ m, Model.ofProgram p = .ok m →
    ∀ e ∈ p.units.zipIdx, (handed m (referencesFingerprint (referenceSet config p))
      (after h config ks : PipelineCells δ γ).fragments e.1 e.2 == Fragment.ofUnit m e.2 e.1) = true

lemma ownFragments_of_keyTells (inj : Digest.Injective δ) (tells : Program.KeyTells config known) :
    OwnFragments δ h config known := by
  intro ks sub p hp m hm e he
  rw [handed]
  cases held : (after h config ks : PipelineCells δ γ).fragments.held? (unitKey e.1)
      (e.1.fingerprint, referencesFingerprint (referenceSet config p)) with
  | none => exact Fragment.beq_of_map_placeless rfl
  | some fs =>
    have taken := (takenFrom_after sub).of_held? held
    have hu : e.1 ∈ p.units := List.fst_mem_of_mem_zipIdx he
    exact Fragment.beq_of_map_placeless (placeless_of_keyTells inj tells hp hm hu taken e.2)

/-- After a pass over a program whose units have paths of their own, the cell of fragments remembers them all. -/
lemma held?_after_singleton {s : β} (asks : (h.poll s).1 = false) {q : Program}
    (distinct : (q.units.map unitKey).Nodup) {m : Model} (hm : Model.ofProgram q = .ok m) {e : SourceUnit × Nat}
    (he : e ∈ q.units.zipIdx) :
    (after h config [⟨q, s⟩] : PipelineCells δ γ).fragments.held? (unitKey e.1)
      (e.1.fingerprint, referencesFingerprint (referenceSet config q)) = some (Fragment.ofUnit m e.2 e.1) := by
  have steps : (∃ out, Completed h config m start out ((PassCall.mk q s).run h config start).2) ∨
      Stopped h config m (start : PipelineCells δ γ) ((PassCall.mk q s).run h config start).2 :=
    PassCall.steps_of_poll asks hm
  change ((PassCall.mk q s).run h config start).2.fragments.held? _ _ = _
  obtain rfl := Model.program_of_ofProgram hm
  rw [fragments_of_steps steps]
  refine (KeyedMemo.held?_retain _ (List.mem_map_of_mem (List.fst_mem_of_mem_zipIdx he)) _).trans ?_
  exact (collectFrom_distinct m _ _ distinct 0).2.1 e he

/-- If every unit is handed out its own fragments, the key tells enough. -/
lemma keyTells_of_ownFragments (distinct : ∀ p ∈ known, (p.units.map unitKey).Nodup) {s : β}
    (asks : (h.poll s).1 = false) (own : OwnFragments δ h config known) : Program.KeyTells config known := by
  intro p hp m hm q hq m' hm' u hu v hv same
  obtain ⟨key, tokens, references⟩ := same
  obtain ⟨i, hi⟩ := List.mem_iff_getElem?.mp hu
  obtain ⟨j, hj⟩ := List.mem_iff_getElem?.mp hv
  have hu : (u, i) ∈ p.units.zipIdx := List.mk_mem_zipIdx_iff_getElem?.mpr hi
  have hv : (v, j) ∈ q.units.zipIdx := List.mk_mem_zipIdx_iff_getElem?.mpr hj
  -- a pass over the one program, and then one over the other
  have sub : ∀ k ∈ [PassCall.mk q s], k.program ∈ known := fun k hk => List.mem_singleton.mp hk ▸ hq
  have answer := own [⟨q, s⟩] sub p hp m hm (u, i) hu
  have summary : (u.fingerprint : δ) = v.fingerprint := congrArg Digest.ofText tokens
  rw [handed, key, summary, references, held?_after_singleton asks (distinct q hq) hm' hv, Option.getD_some] at answer
  have alike := Fragment.ofUnit_beq_iff.mp answer
  rw [Fragment.ofUnit_beq_iff, Fragment.ofUnit_index m u 0 i, ← alike]
  exact Fragment.ofUnit_index m' v j 0

/-- The cell of fragments is right over all calls with known programs if whatever it cannot tell apart has the same
fragments: then every pass is handed the fragments of its own units under its own model. Where units of a
program have paths of their own, a pass is handed what the cell has for each of its units, and the cell is right
for every unit of every pass only then. -/
theorem fragments_faithful (inj : Digest.Injective δ) (h : Host β γ) (config : Config) (known : List Program) :
    (Program.KeyTells config known → ∀ ks : List (PassCall β), (∀ k ∈ ks, k.program ∈ known) →
      ∀ p ∈ known, ∀ m, Model.ofProgram p = .ok m →
        (((after h config ks : PipelineCells δ γ).input config m).fragments == Fragment.ofModel m) = true) ∧
      ((∀ p ∈ known, (p.units.map unitKey).Nodup) →
        (∀ ks : List (PassCall β), ∀ p ∈ known, ∀ m, Model.ofProgram p = .ok m →
          let c : PipelineCells δ γ := after h config ks
          (c.input config m).fragments = (p.units.zipIdx.map fun e =>
            handed m (referencesFingerprint (referenceSet config p)) c.fragments e.1 e.2).flatten) ∧
        ∀ s, (h.poll s).1 = false → (OwnFragments δ h config known ↔ Program.KeyTells config known)) := by
  refine ⟨fun tells ks sub p hp m hm => input_beq_ofModel inj tells sub hp hm, fun distinct => ⟨?_, ?_⟩⟩
  · intro ks p hp m hm c
    obtain rfl := Model.program_of_ofProgram hm
    exact (collectFrom_distinct m _ _ (distinct _ hp) 0).1
  · exact fun s asks => ⟨keyTells_of_ownFragments distinct asks, ownFragments_of_keyTells inj⟩

/-- A marked trait and the same one with other white space: the second pass is handed the fragments of its own unit. -/
theorem fragments_faithful_reformatted :
    let text := "use microgen_sdk::micro_generator;\n#[micro_generator]\npub trait G {}\n"
    let known := [PassCall.built text, PassCall.built ("\n" ++ text)]
    let c : PipelineCells Transcript Memoryless :=
      after PassCall.willingHost .default [⟨PassCall.built text, false⟩]
    Digest.Injective Transcript ∧ Program.KeyTells .default known ∧
      c.fragments.entries.map (·.2.2.length) = [1] ∧
      ∀ m, Model.ofProgram (PassCall.built ("\n" ++ text)) = .ok m →
        ((c.input .default m).fragments == Fragment.ofModel m) = true := by
  intro text known c
  have computed : (∀ p ∈ known, ∀ q ∈ known, ∀ u ∈ p.units, ∀ v ∈ q.units, u.modulePath = v.modulePath ∧
      (u.parsed.file.printed.attrs == v.parsed.file.printed.attrs) = true ∧
      (u.parsed.file.printed.items == v.parsed.file.printed.items) = true ∧ q.references = p.references) ∧
      c.fragments.entries.map (·.2.2.length) = [1] := by decide +kernel
  obtain ⟨agree, one⟩ := computed
  have tells : Program.KeyTells .default known := by
    refine Program.keyTells_of_agree fun p hp q hq u hu v hv _ => ?_
    obtain ⟨place, attrs, items, references⟩ := agree p hp q hq u hu v hv
    exact ⟨place, SourceFile.eq_of_beq attrs items, references⟩
  have sub : ∀ k ∈ [PassCall.mk (PassCall.built text) false], k.program ∈ known :=
    fun k hk => List.mem_singleton.mp hk ▸ List.mem_cons_self
  exact ⟨Transcript.injective, tells, one, (fragments_faithful Transcript.injective PassCall.willingHost .default known).1
    tells _ sub _ (List.mem_cons_of_mem _ List.mem_cons_self)⟩

/-- A program of one unit that defines a given module. -/
def PassCall.inModule (module : String) : Program :=
  let text := "use microgen_sdk::micro_generator;\n#[micro_generator]\npub trait G {}\n"
  ((ProgramBuilder.new "host" "/sdk").unitAt "src/x.rs" [module] text).build.toOption.getD ⟨"host", [], []⟩

/-- A unit that moves from one module to another under its path: the second pass is handed the fragments of the
first. -/
theorem fragments_ne_movedUnit :
    let c : PipelineCells Transcript Memoryless :=
      after PassCall.willingHost .default [⟨PassCall.inModule "a", false⟩]
    ((Model.ofProgram (PassCall.inModule "b")).toOption.map fun m =>
      ((c.input .default m).fragments.map (·.modulePath), (Fragment.ofModel m).map (·.modulePath))) =
        some ([["a"]], [["b"]]) := by
  decide +kernel

end PipelineCells

end SourceGen
