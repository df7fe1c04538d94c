import SourceGen.Load.Library
import SourceGen.Proofs.Assembly.Surroundings

/-!
# How often a type is offered

A crate offers a path as often as a candidate of that path is declared and marked, in one module or in several of one
path (`Assembly.offered_perm_candidates`), so declarations of which only one is compiled in the end are all offered
(`Assembly.not_offered_once_alternatives`). A pass makes a generator for each offer.
-/

namespace SourceGen

open SourceGen.Text

/-- The name of the type that an item declares, if a type like this can be a generator. -/
def Item.candidateName? (i : Item) : Option String :=
  match i.nominal? with
  | some (kind, name, generic) => if !generic && kind != .trait then some name else none
  | none => none

/-- The paths of the marked types that a module declares itself and that can be generators. -/
def SourceModule.candidates (M : SourceModule) (m : Model) : List String :=
  (M.items.filter (m.isMarked M.path M.items)).filterMap fun i => i.printed.candidateName?.map (qualify M.path)

/-- Whether a type is a generator and its constructor succeeds. -/
def ProbedType.Constructs {γ : Type} (t : ProbedType γ) : Prop :=
  t.isGenerator = true ∧ ∃ c g, t.construct = some c ∧ c.result = .ok g

/-! ### Declarations -/

namespace Fragment

variable {m : Model} {unit : Nat} {unitPath : String}

lemma candidate_of_ofItem? {s : Scope} {siblings : List Item} {i : Item} {f : Fragment}
    (taken : ofItem? m unit unitPath s siblings i = some f) :
    ((some f).filter (·.isCandidate)).map (·.path) = i.candidateName?.map (qualify s.modulePath) := by
  obtain ⟨kind, name, generic, _, _, declares, -, rfl⟩ := exists_of_ofItem? taken
  rw [Item.candidateName?, declares, Option.filter_some]
  change Option.map _ (if (!generic && kind != .trait) = true then some _ else none) =
    (if (!generic && kind != .trait) = true then some name else none).map (qualify s.modulePath)
  split <;> rfl

lemma candidates_fragments (M : SourceModule) :
    ((M.fragments m unit unitPath).filter (·.isCandidate)).map (·.path) = M.candidates m := by
  rw [SourceModule.fragments, SourceModule.candidates, List.filter_filterMap, List.map_filterMap, List.filterMap_filter]
  refine List.filterMap_congr fun i _ => ?_
  have marked : (ofItem? m unit unitPath (.ofItems M.path (M.items.map Item.printed) M.carried)
      (M.items.map Item.printed) i.printed).isSome = true ↔ m.isMarked M.path M.items i = true := isSome_ofItem?_iff
  split
  case isTrue isMarked =>
    obtain ⟨f, taken⟩ := Option.isSome_iff_exists.mp (marked.mpr isMarked)
    rw [taken]
    exact candidate_of_ofItem? taken
  case isFalse unmarked =>
    rw [← marked, Option.not_isSome_iff_eq_none] at unmarked
    rw [unmarked]
    rfl

/-- The candidates among the fragments are those of the modules. -/
lemma candidates_ofModel (m : Model) :
    (((ofModel m).filter (·.isCandidate)).map (·.path)).Perm (m.program.modules.flatMap (·.candidates m)) := by
  have ofUnits : m.program.modules.flatMap (·.candidates m) =
      m.program.units.zipIdx.flatMap fun u => u.1.modules.flatMap (·.candidates m) := by
    rw [Program.modules, List.flatMap_assoc]
    conv_lhs => rw [← List.zipIdx_map_fst 0 m.program.units, List.flatMap_map]
  rw [ofModel, List.filter_flatMap, List.map_flatMap, ofUnits]
  refine List.Perm.flatMap_left _ fun ⟨u, index⟩ _ => ?_
  refine (((ofUnit_perm m index u).filter _).map _).trans (.of_eq ?_)
  rw [List.filter_flatMap, List.map_flatMap]
  exact List.flatMap_congr fun M _ => candidates_fragments M

end Fragment

/-! ### Generators -/

variable {γ : Type}

/-- Whether a candidate is a generator. -/
def Candidate.isMade (c : Candidate γ) : Bool :=
  match c.shape with
  | .generator _ => true
  | _ => false

lemma Instantiation.map_typeName_ofTable (e : Epoch) (table : List (Candidate γ)) :
    (ofTable e table).instances.map (·.typeName) = (table.filter (·.isMade)).map (·.typeName) := by
  induction table with
  | nil => rfl
  | cons c table ih =>
    change (add e c (ofTable e table)).instances.map _ = _
    obtain ⟨name, shape⟩ := c
    cases shape with
    | generator g => exact congrArg (name :: ·) ih
    | _ => exact ih

lemma ProbedType.isMade_describe {t : ProbedType γ} : t.describe.isMade = true ↔ t.Constructs := by
  obtain ⟨name, isGenerator, construct⟩ := t
  constructor
  · intro made
    cases isGenerator with
    | false => cases made
    | true =>
      cases construct with
      | none => cases made
      | some c =>
        cases result : c.result with
        | error =>
          simp only [describe, Candidate.isMade, result] at made
          cases made
        | ok g => exact ⟨rfl, c, g, rfl, result⟩
  · rintro ⟨rfl, c, g, rfl, result⟩
    simp only [describe, Candidate.isMade, result]

/-- Of each name, a pass makes as many generators as types of that name are offered, if all of these can be made. -/
lemma count_instances (e : Epoch) (types : List (ProbedType γ)) (name : String) :
    let made := (PluginSource.mk e (some (types.map (·.describe)))).instantiate.instances.map (·.typeName)
    made.count name ≤ (types.map (·.typeName)).count name ∧
      ((∀ t ∈ types, t.typeName = name → t.Constructs) → made.count name = (types.map (·.typeName)).count name) := by
  intro made
  have eq : made = (types.filter fun t => t.describe.isMade).map (·.typeName) := by
    change (Instantiation.ofTable e _).instances.map _ = _
    rw [Instantiation.map_typeName_ofTable, List.filter_map, List.map_map]
    rfl
  rw [eq]
  refine ⟨(List.filter_sublist.map _).count_le name, fun all => ?_⟩
  rw [List.count_eq_countP, List.count_eq_countP, List.countP_map, List.countP_map, List.countP_filter]
  refine List.countP_congr fun t ht => ?_
  rw [Function.comp_apply, Bool.and_eq_true, beq_iff_eq, ProbedType.isMade_describe]
  exact and_iff_left_of_imp (all t ht)

namespace Assembly

open ModuleTree

lemma offered_crateOf (m : Model) : offered (crateOf m).items = (ofFragments (Fragment.ofModel m)).labels :=
  offered_file (collected_ofModel m) fun _ hi =>
    Item.isImport_of_isGlobalImport (GlobalImports.mem_ofProgram.mp hi).1

lemma probes_of_assemble {fs : List Fragment} {g : GlobalImports} {c : AssembledCrate} (built : assemble fs g = .ok c) :
    c.probes = (ofFragments fs).labels := by
  unfold assemble at built
  dsimp only at built
  split at built
  case h_1 => cases built
  case h_2 =>
    split at built
    case h_1 =>
      cases built
      rfl
    case h_2 => cases built

/-- What a crate advertises is what it offers, and this is each path as often as a marked candidate of that path is
declared. So a path is offered once if no module declares it twice and no two modules of one path declare it; and of a
type that is offered more often, a pass makes as many generators. -/
theorem offered_perm_candidates (m : Model) :
    let items := (crateOf m).items
    let declared := m.program.modules.flatMap (·.candidates m)
    (∀ c, assemble (Fragment.ofModel m) (.ofProgram m.program) = .ok c → c.probes = offered items) ∧
      (offered items).Perm declared ∧
      ((offered items).Nodup ↔ (∀ M ∈ m.program.modules, (M.candidates m).Nodup) ∧
        m.program.modules.Pairwise fun M N => (M.candidates m).Disjoint (N.candidates m)) ∧
      ∀ (γ : Type) (e : Epoch) (types : List (ProbedType γ)), types.map (·.typeName) = offered items →
        let made := (PluginSource.mk e (some (types.map (·.describe)))).instantiate.instances.map (·.typeName)
        ∀ path, made.count path ≤ declared.count path ∧
          ((∀ t ∈ types, t.typeName = path → t.Constructs) → made.count path = declared.count path) := by
  intro items declared
  have labels : offered items = (ofFragments (Fragment.ofModel m)).labels := offered_crateOf m
  have perm : (offered items).Perm declared := labels ▸ (labels_ofFragments _).trans (Fragment.candidates_ofModel m)
  refine ⟨fun c built => (probes_of_assemble built).trans labels.symm, perm, ?_, ?_⟩
  · rw [perm.nodup_iff]
    exact List.nodup_flatMap
  · intro γ e types offers made path
    rw [← perm.count_eq, ← offers]
    exact count_instances e types path

/-- Two declarations of one type for different targets. Only one of them is compiled, and both are offered. -/
theorem not_offered_once_alternatives :
    let text := "#[cfg(unix)]\n#[microgen_sdk::micro_generator]\npub struct G;\n" ++
      "#[cfg(windows)]\n#[microgen_sdk::micro_generator]\npub struct G;\n"
    ∃ m u, Model.ofText? text = some m ∧ m.program.units = [u] ∧ offered (crateOf m).items = ["G", "G"] ∧
      ∀ c, assemble (Fragment.ofModel m) (.ofProgram m.program) = .ok c → c.probes = ["G", "G"] := by
  intro text
  obtain ⟨m, u, built, units, twice⟩ : ∃ m u, Model.ofText? text = some m ∧ m.program.units = [u] ∧
      (offered (crateOf m).items == ["G", "G"]) = true :=
    Model.exists_of_ofText? (by decide +kernel)
  rw [beq_iff_eq] at twice
  refine ⟨m, u, built, units, twice, fun c assembled => ?_⟩
  rw [probes_of_assemble assembled, ← offered_crateOf, twice]

end Assembly

end SourceGen
