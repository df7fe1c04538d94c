import Mathlib.Data.List.Basic
import SourceGen.Program.Path
import SourceGen.Proofs.Text.Split

/-!
# The modules of files

A file `a/b.rs` defines the module `a::b`, unless it is called `mod.rs`, or `lib.rs` or `main.rs` at the top: these
define the module of their directory (`SourcePath.moduleOf_sourceFile`). So two files define one module in two cases
only, which `SourcePath.moduleOfRelative_eq_iff` names: `a/b.rs` and `a/b/mod.rs`, and the three names at the top.
-/

namespace SourceGen

open SourceGen.Text

namespace SourcePath

variable {S T : List String}

/-- A name that is a component of its own wherever it stands in a path. -/
structure IsComponent (s : String) : Prop where
  nonempty : s ≠ ""
  notHere : s ≠ "."
  notUp : s ≠ ".."
  noSeparator : '/' ∉ s.toList

/-- The relative path of the given components. -/
def relative (names : List String) : String := "/".intercalate names

/-- The file beside the directory of a module: `.rs` is put behind the last name. -/
def sourceFile : List String → List String
  | [] => []
  | [s] => [s ++ ".rs"]
  | s :: t :: rest => s :: sourceFile (t :: rest)

/-- Whether the file beside a directory belongs to the module around it. -/
def IsSpecial (S : List String) : Prop := S.getLast? = some "mod" ∨ S = ["lib"] ∨ S = ["main"]

instance : DecidablePred IsSpecial := fun S =>
  inferInstanceAs (Decidable (S.getLast? = some "mod" ∨ S = ["lib"] ∨ S = ["main"]))

/-- Whether the file is one of those at the top that define the root of the crate. -/
def IsTop (S : List String) : Prop := S = ["lib"] ∨ S = ["main"] ∨ S = ["mod"]

/-! ### Components -/

lemma IsComponent.part? {s : String} (h : IsComponent s) : part? s = some (.name s) := by
  simp [SourcePath.part?, h.nonempty, h.notHere, h.notUp]

lemma IsComponent.append {s : String} (h : IsComponent s) : IsComponent (s ++ ".rs") := by
  -- all of them are longer than a name of dots alone
  have long (dots : String) (short : dots.length ≤ 2) : s ++ ".rs" ≠ dots := by
    intro eq
    have length := congrArg String.length eq
    rw [String.length_append] at length
    change s.length + 3 = dots.length at length
    omega
  refine ⟨long _ (by decide), long _ (by decide), long _ (by decide), ?_⟩
  rw [String.toList_append, List.mem_append, not_or]
  exact ⟨h.noSeparator, by decide⟩

/-- The components of a path are those that it was made of. -/
lemma parts_relative (some_there : S ≠ []) (components : ∀ s ∈ S, IsComponent s) :
    parts (relative S) = S.map .name := by
  have segments : splitText '/' (relative S) = S :=
    splitText_intercalate some_there fun s hs => (components s hs).noSeparator
  have all : S.filterMap SourcePath.part? = S.map .name :=
    List.filterMap_eq_map_iff_forall_eq_some.mpr fun s hs => (components s hs).part?
  obtain ⟨s, rest, rfl⟩ := List.exists_cons_of_ne_nil some_there
  obtain ⟨nonempty, notHere, -, -⟩ := components s List.mem_cons_self
  rw [parts, segments]
  split
  case h_1 eq => exact absurd (List.cons.inj eq).1 nonempty
  case h_2 eq => exact absurd (List.cons.inj eq).1 notHere
  case h_3 => exact all

lemma names_map_name (S : List String) : names (S.map .name) = S := by
  rw [names, List.filterMap_map]
  exact List.filterMap_some

/-! ### Files -/

lemma exists_eq_concat (some_there : S ≠ []) : ∃ directories s, S = directories ++ [s] :=
  ⟨S.dropLast, S.getLast some_there, (List.dropLast_concat_getLast some_there).symm⟩

lemma sourceFile_concat (directories : List String) (s : String) :
    sourceFile (directories ++ [s]) = directories ++ [s ++ ".rs"] := by
  induction directories with
  | nil => rfl
  | cons d directories ih =>
    cases directories with
    | nil => rfl
    | cons d' directories =>
      rw [List.cons_append, List.cons_append, sourceFile, ← List.cons_append, ih]
      rfl

/-- Files of one name belong beside one directory. -/
lemma sourceFile_inj (hS : S ≠ []) (hT : T ≠ []) : sourceFile S = sourceFile T ↔ S = T := by
  obtain ⟨directories, s, rfl⟩ := exists_eq_concat hS
  obtain ⟨directories', t, rfl⟩ := exists_eq_concat hT
  rw [sourceFile_concat, sourceFile_concat, List.append_singleton_inj, List.append_singleton_inj,
    String.append_left_inj]

lemma isComponent_of_mem_sourceFile (some_there : S ≠ []) (components : ∀ s ∈ S, IsComponent s) :
    ∀ s ∈ sourceFile S, IsComponent s := by
  obtain ⟨directories, t, rfl⟩ := exists_eq_concat some_there
  obtain ⟨directories_components, last⟩ := List.forall_mem_append.mp components
  rw [sourceFile_concat, List.forall_mem_append]
  exact ⟨directories_components, List.forall_mem_singleton.mpr (List.forall_mem_singleton.mp last).append⟩

lemma isSpecial_concat (directories : List String) (s : String) :
    IsSpecial (directories ++ [s]) ↔ s = "mod" ∨ directories = [] ∧ (s = "lib" ∨ s = "main") := by
  simp [IsSpecial, List.append_eq_singleton_iff, and_or_left]

/-- The module of the file beside a directory is that of the directory, but for the special names. -/
lemma moduleOf_sourceFile (some_there : S ≠ []) :
    moduleOf (sourceFile S) = if IsSpecial S then S.dropLast else S := by
  obtain ⟨directories, s, rfl⟩ := exists_eq_concat some_there
  rw [sourceFile_concat, moduleOf, List.getLast?_concat]
  simp only [withoutEnd_append, List.dropLast_concat, isSpecial_concat]
  have special : (s ≠ "mod" && !(directories.isEmpty && (s = "lib" || s = "main"))) =
      !decide (s = "mod" ∨ directories = [] ∧ (s = "lib" ∨ s = "main")) := by
    cases directories <;> simp
  rw [special]
  by_cases isSpecial : s = "mod" ∨ directories = [] ∧ (s = "lib" ∨ s = "main")
  · rw [if_pos isSpecial, decide_eq_true isSpecial]
    rfl
  · rw [if_neg isSpecial, decide_eq_false isSpecial]
    rfl

/-- A file in a directory defines the module of the directory if it is called `mod.rs`. -/
lemma moduleOf_modFile (S : List String) : moduleOf (S ++ ["mod.rs"]) = S := by
  have file : sourceFile (S ++ ["mod"]) = S ++ ["mod.rs"] := sourceFile_concat S "mod"
  have special : IsSpecial (S ++ ["mod"]) := (isSpecial_concat S "mod").mpr (.inl rfl)
  rw [← file, moduleOf_sourceFile (List.append_ne_nil_of_right_ne_nil S (List.cons_ne_nil _ _)), if_pos special,
    List.dropLast_concat]

/-- The files of special names that define one module. -/
lemma dropLast_eq_iff (some_there : S ≠ []) (some_there' : T ≠ []) (hS : IsSpecial S) (hT : IsSpecial T) :
    S.dropLast = T.dropLast ↔ S = T ∨ IsTop S ∧ IsTop T := by
  obtain ⟨directories, s, rfl⟩ := exists_eq_concat some_there
  obtain ⟨directories', t, rfl⟩ := exists_eq_concat some_there'
  rw [isSpecial_concat] at hS hT
  rw [List.dropLast_concat, List.dropLast_concat, List.append_singleton_inj]
  simp only [IsTop, List.append_eq_singleton_iff]
  grind

/-- Whether one file is beside the directory of a module and the other one is in it. -/
def AreTwins (S T : List String) : Prop := ¬ IsSpecial S ∧ sourceFile T = S ++ ["mod.rs"]

lemma areTwins_iff (hT : T ≠ []) : AreTwins S T ↔ ¬ IsSpecial S ∧ T = S ++ ["mod"] := by
  have file : S ++ ["mod.rs"] = sourceFile (S ++ ["mod"]) := (sourceFile_concat S "mod").symm
  rw [AreTwins, file, sourceFile_inj hT (List.append_ne_nil_of_right_ne_nil S (List.cons_ne_nil _ _))]

/-- Below a directory that is there, only `mod.rs` defines the module of the directory. -/
lemma dropLast_eq_iff_areTwins (hS : S ≠ []) (hT : T ≠ []) (plain : ¬ IsSpecial S) (special : IsSpecial T) :
    S = T.dropLast ↔ AreTwins S T := by
  obtain ⟨directories, t, rfl⟩ := exists_eq_concat hT
  rw [areTwins_iff hT, List.dropLast_concat, List.append_singleton_inj]
  constructor
  · rintro rfl
    obtain isMod | ⟨empty, -⟩ := (isSpecial_concat S t).mp special
    · exact ⟨plain, rfl, isMod⟩
    · exact absurd empty hS
  · exact fun twins => twins.2.1.symm

/-- Two files define one module exactly if they are the same, or twins, or both at the top. -/
lemma moduleOf_eq_iff (hS : S ≠ []) (hT : T ≠ []) :
    moduleOf (sourceFile S) = moduleOf (sourceFile T) ↔
      S = T ∨ AreTwins S T ∨ AreTwins T S ∨ IsTop S ∧ IsTop T := by
  have top {S : List String} (h : IsTop S) : IsSpecial S := by
    obtain rfl | rfl | rfl := h <;> decide
  rw [moduleOf_sourceFile hS, moduleOf_sourceFile hT]
  by_cases left : IsSpecial S <;> by_cases right : IsSpecial T
  · have none : ¬ AreTwins S T ∧ ¬ AreTwins T S := ⟨fun h => h.1 left, fun h => h.1 right⟩
    rw [if_pos left, if_pos right, dropLast_eq_iff hS hT left right]
    simp only [none.1, none.2, false_or]
  · have ne : S ≠ T := fun eq => right (eq ▸ left)
    have none : ¬ AreTwins S T := fun h => h.1 left
    rw [if_pos left, if_neg right, eq_comm, dropLast_eq_iff_areTwins hT hS right left]
    simp only [ne, none, mt top right, false_or, and_false, or_false]
  · have ne : S ≠ T := fun eq => left (eq ▸ right)
    have none : ¬ AreTwins T S := fun h => h.1 right
    rw [if_neg left, if_pos right, dropLast_eq_iff_areTwins hS hT left right]
    simp only [ne, none, mt top left, false_or, false_and, or_false]
  · have none : ¬ AreTwins S T ∧ ¬ AreTwins T S := by
      constructor
      · intro h
        obtain ⟨-, rfl⟩ := (areTwins_iff hT).mp h
        exact right ((isSpecial_concat S "mod").mpr (.inl rfl))
      · intro h
        obtain ⟨-, rfl⟩ := (areTwins_iff hS).mp h
        exact left ((isSpecial_concat T "mod").mpr (.inl rfl))
    rw [if_neg left, if_neg right]
    simp only [none.1, none.2, mt top left, false_and, or_false]

/-- Files and modules correspond: the module of `S/mod.rs` is `S`, and so is that of `S.rs` unless the name is special.
Two paths whose names end in `.rs` have one module only if the names are the same, if they are `X.rs` and `X/mod.rs`, or
if both are one of the three files at the top; paths of names alone are then the same. -/
theorem moduleOfRelative_eq_iff :
    (∀ S, S ≠ [] → (∀ s ∈ S, IsComponent s) →
      moduleOfRelative (relative (S ++ ["mod.rs"])) = S ∧
        moduleOfRelative (relative (sourceFile S)) = if IsSpecial S then S.dropLast else S) ∧
      ∀ p q S T, S ≠ [] → T ≠ [] → names (parts p) = sourceFile S → names (parts q) = sourceFile T →
        (moduleOfRelative p = moduleOfRelative q ↔
          S = T ∨ AreTwins S T ∨ AreTwins T S ∨ IsTop S ∧ IsTop T) ∧
          (parts p = (sourceFile S).map .name → parts q = (sourceFile T).map .name → (S = T ↔ parts p = parts q)) := by
  refine ⟨fun S hS components => ?_, fun p q S T hS hT hp hq => ⟨?_, fun plain plain' => ?_⟩⟩
  · have modFile : IsComponent "mod.rs" := by constructor <;> decide
    have below : ∀ s ∈ S ++ ["mod.rs"], IsComponent s :=
      List.forall_mem_append.mpr ⟨components, List.forall_mem_singleton.mpr modFile⟩
    have beside := isComponent_of_mem_sourceFile hS components
    have some_there : sourceFile S ≠ [] := by
      obtain ⟨directories, s, rfl⟩ := exists_eq_concat hS
      rw [sourceFile_concat]
      exact List.append_ne_nil_of_right_ne_nil _ (List.cons_ne_nil _ _)
    rw [moduleOfRelative, moduleOfRelative, parts_relative some_there beside,
      parts_relative (List.append_ne_nil_of_right_ne_nil S (List.cons_ne_nil _ _)) below, names_map_name,
      names_map_name]
    exact ⟨moduleOf_modFile S, moduleOf_sourceFile hS⟩
  · rw [moduleOfRelative, moduleOfRelative, hp, hq, moduleOf_eq_iff hS hT]
  · rw [plain, plain', List.map_inj_right fun _ _ => PathPart.name.inj, sourceFile_inj hS hT]

/-- The file beside the directory `a/b` and the one in it. -/
theorem moduleOfRelative_eq_iff_nestedModule :
    (∀ s ∈ ["a", "b"], IsComponent s) ∧ moduleOfRelative (relative ["a", "b", "mod.rs"]) = ["a", "b"] ∧
      names (parts "a/b.rs") = sourceFile ["a", "b"] ∧ names (parts "a/b/mod.rs") = sourceFile ["a", "b", "mod"] ∧
      AreTwins ["a", "b"] ["a", "b", "mod"] ∧ moduleOfRelative "a/b.rs" = moduleOfRelative "a/b/mod.rs" ∧
      parts "a/b.rs" ≠ parts "a/b/mod.rs" := by
  have components : ∀ s ∈ ["a", "b"], IsComponent s := by
    simp only [List.forall_mem_cons, List.not_mem_nil, false_implies, implies_true, and_true]
    constructor <;> constructor <;> decide
  have twins : AreTwins ["a", "b"] ["a", "b", "mod"] := ⟨by decide, rfl⟩
  have beside : parts "a/b.rs" = (sourceFile ["a", "b"]).map .name := by decide +kernel
  have below : parts "a/b/mod.rs" = (sourceFile ["a", "b", "mod"]).map .name := by decide +kernel
  obtain ⟨files, pairs⟩ := moduleOfRelative_eq_iff
  have name : names (parts "a/b.rs") = sourceFile ["a", "b"] := by rw [beside, names_map_name]
  have name' : names (parts "a/b/mod.rs") = sourceFile ["a", "b", "mod"] := by rw [below, names_map_name]
  obtain ⟨same, different⟩ := pairs "a/b.rs" "a/b/mod.rs" ["a", "b"] ["a", "b", "mod"] (by decide) (by decide) name name'
  refine ⟨components, (files ["a", "b"] (by decide) components).1, name, name', twins, same.mpr (.inr (.inl twins)), ?_⟩
  exact mt (different beside below).mpr (by decide)

end SourcePath

end SourceGen
