import Mathlib.Data.List.Sort
import SourceGen.Proofs.Assembly.Crate
import SourceGen.Proofs.Assembly.Modules
import SourceGen.Proofs.Program.Modules

/-!
# The order of fragments

The modules of a generated crate come in the order of their names, so a tree of modules is known by what there is at
each path (`ModuleTree.Ordered.ext`). What there is at a path is made of the fragments of this path in their order, so
fragments of different modules may come in any order (`Assembly.assemble_of_sameRows`). Different units can have
fragments of one module, though their own modules differ, and then the order of the units is seen in the crate
(`Assembly.not_assemble_eq_sharedModule`).
-/

namespace SourceGen

namespace ModuleContent

lemma addAll_placeless (c : ModuleContent) (fs : List Fragment) : c.addAll (fs.map Fragment.placeless) = c.addAll fs :=
  List.foldl_map

end ModuleContent

namespace ModuleTree

/-! ### Trees by their modules -/

/-- Modules in the order of their names are known by the module of each name. -/
lemma Sorted.ext {ms ms' : List ModuleTree} (sorted : Sorted ms) (sorted' : Sorted ms')
    (same : ∀ step, child? step ms = child? step ms') : ms = ms' := by
  have mem {ms : List ModuleTree} (sorted : Sorted ms) (m : ModuleTree) : m ∈ ms ↔ child? m.name ms = some m :=
    ⟨child?_of_mem sorted, List.mem_of_find?_eq_some⟩
  have irrefl : Std.Irrefl fun m m' : ModuleTree => m.name < m'.name := ⟨fun m => lt_irrefl m.name⟩
  have antisymm : Std.Antisymm fun m m' : ModuleTree => m.name < m'.name :=
    ⟨fun _ _ before after => absurd after before.asymm⟩
  exact List.Pairwise.eq_of_mem_iff sorted sorted' fun m => by rw [mem sorted, mem sorted', same]

lemma name_of_child? {step : String} {ms : List ModuleTree} {m : ModuleTree} (found : child? step ms = some m) :
    m.name = step := by
  have named := List.find?_some found
  exact of_decide_eq_true named

/-- The root of a crate has no name. -/
lemma name_ofFragments (fs : List Fragment) : (ofFragments fs).name = "" := by
  have all (t : ModuleTree) : (fs.foldl (fun t f => t.insert f f.modulePath) t).name = t.name := by
    induction fs generalizing t with
    | nil => rfl
    | cons f fs ih => exact (ih _).trans (name_insert f f.modulePath t)
  exact all (empty "")

/-- Modules in the order of their names, at every depth, are known by what there is at each path. -/
lemma Ordered.ext {t t' : ModuleTree} (ordered : t.Ordered) (ordered' : t'.Ordered) (name : t.name = t'.name)
    (modules : ∀ path, (t.at? path).isSome = (t'.at? path).isSome)
    (contents : ∀ path, t.contentAt path = t'.contentAt path) : t = t' := by
  induction ordered generalizing t' with
  | @mk n content children sorted below ih =>
    obtain @⟨n', content', children', sorted', below'⟩ := ordered'
    obtain rfl : n = n' := name
    obtain rfl : content = content' := contents []
    have same : children = children' := by
      refine sorted.ext sorted' fun step => ?_
      have there := modules [step]
      simp only [at?, ModuleTree.children] at there
      cases found : child? step children with
      | none =>
        rw [found] at there
        cases found' : child? step children' with
        | none => rfl
        | some m' =>
          rw [found'] at there
          cases there
      | some m =>
        rw [found] at there
        cases found' : child? step children' with
        | none =>
          rw [found'] at there
          cases there
        | some m' =>
          -- the two modules of this name have the same at each path, too
          refine congrArg some (ih m (List.mem_of_find?_eq_some found) (below' m' (List.mem_of_find?_eq_some found'))
            ((name_of_child? found).trans (name_of_child? found').symm) (fun path => ?_) fun path => ?_)
          · have deeper := modules (step :: path)
            simp only [at?, ModuleTree.children, found, found', Option.bind_some] at deeper
            exact deeper
          · have deeper := contents (step :: path)
            simp only [contentAt_cons, ModuleTree.children, found, found', Option.getD_some] at deeper
            exact deeper
    rw [same]

end ModuleTree

namespace Assembly

open ModuleTree

/-! ### Rows of fragments -/

/-- The fragments of the module at a path, in their order, without the places where they were taken from. -/
def row (path : List String) (fs : List Fragment) : List Fragment :=
  (fs.filter (·.modulePath = path)).map Fragment.placeless

/-- Whether each module has the same fragments in the same order. -/
def SameRows (fs gs : List Fragment) : Prop := ∀ path, row path fs = row path gs

variable {fs gs : List Fragment}

lemma row_append (path : List String) (fs gs : List Fragment) : row path (fs ++ gs) = row path fs ++ row path gs := by
  rw [row, List.filter_append, List.map_append]
  rfl

lemma row_placeless (path : List String) (fs : List Fragment) : row path (fs.map Fragment.placeless) = row path fs := by
  rw [row, List.filter_map, List.map_map]
  rfl

lemma exists_of_row {path : List String} : row path fs ≠ [] ↔ ∃ f ∈ fs, f.modulePath = path := by
  rw [row, ne_eq, List.map_eq_nil_iff, List.filter_eq_nil_iff]
  simp only [decide_eq_true_eq, not_forall, not_not, exists_prop]

/-- Of the fragments, a module shows no more than its own ones in their order. -/
lemma SameRows.ofFragments_eq (same : SameRows fs gs) : ofFragments fs = ofFragments gs := by
  have reached {fs gs : List Fragment} (same : SameRows fs gs) (path : List String)
      (there : ∃ f ∈ fs, path <+: f.modulePath) : ∃ f ∈ gs, path <+: f.modulePath := by
    obtain ⟨f, hf, below⟩ := there
    have some_there := exists_of_row.mpr ⟨f, hf, rfl⟩
    rw [same] at some_there
    obtain ⟨f', hf', eq⟩ := exists_of_row.mp some_there
    exact ⟨f', hf', eq.symm ▸ below⟩
  refine (ordered_ofFragments fs).ext (ordered_ofFragments gs)
    ((name_ofFragments fs).trans (name_ofFragments gs).symm) (fun path => ?_) fun path => ?_
  · rw [Bool.eq_iff_iff, isSome_at?_ofFragments, isSome_at?_ofFragments]
    exact or_congr_right ⟨reached same path, reached (fun path => (same path).symm) path⟩
  · rw [contentAt_ofFragments, contentAt_ofFragments, ← ModuleContent.addAll_placeless _ (fs.filter _),
      ← ModuleContent.addAll_placeless _ (gs.filter _)]
    exact congrArg _ (same path)

/-! ### The order of units -/

/-- Whether a unit has fragments of the module at a path. -/
def contributes (m : Model) (path : List String) (u : SourceUnit) : Bool :=
  ((Fragment.ofUnit m 0 u).map (·.modulePath)).contains path

/-- The model of the program with given units. -/
def withUnits (m : Model) (units : List SourceUnit) : Model := { m with program := { m.program with units := units } }

lemma ofProgram_withUnits {m : Model} (resolved : Model.ofProgram m.program = .ok m) (units : List SourceUnit) :
    Model.ofProgram (withUnits m units).program = .ok (withUnits m units) := by
  have markers : MarkerTable.ofProgram (withUnits m units).program = MarkerTable.ofProgram m.program := rfl
  rw [Model.ofProgram] at resolved ⊢
  rw [markers]
  cases table : MarkerTable.ofProgram m.program with
  | error e =>
    rw [table] at resolved
    cases resolved
  | ok t =>
    rw [table] at resolved
    have eq := Except.ok.inj resolved
    have markers : t = m.markers := congrArg Model.markers eq
    have crates : builtinCrates ++ m.program.references.map (·.name) = m.externCrates := congrArg Model.externCrates eq
    change Except.ok (Model.mk _ t (builtinCrates ++ m.program.references.map (·.name))) = .ok (.mk _ m.markers _)
    rw [markers, crates]
    rfl

lemma row_ofUnit (m : Model) (path : List String) (u : SourceUnit) (index : Nat) :
    row path (Fragment.ofUnit m index u) = row path (Fragment.ofUnit m 0 u) := by
  rw [← row_placeless, Fragment.ofUnit_placeless rfl rfl rfl rfl index 0, row_placeless]

lemma row_ofModel (m : Model) (path : List String) :
    row path (Fragment.ofModel m) = m.program.units.flatMap fun u => row path (Fragment.ofUnit m 0 u) := by
  have all (us : List SourceUnit) (index : Nat) :
      row path ((us.zipIdx index).flatMap fun x => Fragment.ofUnit m x.2 x.1) =
        us.flatMap fun u => row path (Fragment.ofUnit m 0 u) := by
    induction us generalizing index with
    | nil => rfl
    | cons u us ih =>
      rw [List.zipIdx_cons, List.flatMap_cons, List.flatMap_cons, row_append, row_ofUnit, ih]
  exact all m.program.units 0

/-- Units without fragments of a module have no say in it. -/
lemma flatMap_row (m : Model) (path : List String) (us : List SourceUnit) :
    us.flatMap (fun u => row path (Fragment.ofUnit m 0 u)) =
      (us.filter (contributes m path)).flatMap fun u => row path (Fragment.ofUnit m 0 u) := by
  induction us with
  | nil => rfl
  | cons u us ih =>
    rw [List.flatMap_cons, List.filter_cons, ih]
    split
    case isTrue => rw [List.flatMap_cons]
    case isFalse none =>
      have empty : row path (Fragment.ofUnit m 0 u) = [] := by
        by_contra some_there
        obtain ⟨f, hf, here⟩ := exists_of_row.mp some_there
        exact none (List.contains_iff_mem.mpr (here ▸ List.mem_map_of_mem hf))
      rw [empty, List.nil_append]

lemma sameRows_withUnits {m : Model} {units : List SourceUnit}
    (order : ∀ path, units.filter (contributes m path) = m.program.units.filter (contributes m path)) :
    SameRows (Fragment.ofModel (withUnits m units)) (Fragment.ofModel m) := by
  intro path
  have alike (u : SourceUnit) :
      row path (Fragment.ofUnit (withUnits m units) 0 u) = row path (Fragment.ofUnit m 0 u) := by
    have placeless : (Fragment.ofUnit (withUnits m units) 0 u).map Fragment.placeless =
        (Fragment.ofUnit m 0 u).map Fragment.placeless := by
      refine Fragment.ofUnit_placeless ?_ ?_ ?_ ?_ 0 0 <;> rfl
    rw [← row_placeless, placeless, row_placeless]
  rw [row_ofModel, row_ofModel, List.flatMap_congr fun u _ => alike u, flatMap_row, flatMap_row m path m.program.units]
  exact congrArg (List.flatMap _) (order path)

/-- Only the order of the fragments of each module is seen in a crate. With names that modules can have, the two crates
are there, with one source and the same probes, if there is a layout of the file. So fragments of different modules may
be in any order, and so may units as long as those that have fragments of one module keep theirs. -/
theorem assemble_of_sameRows :
    (∀ fs gs, SameRows fs gs → ∀ g,
      assemble fs g = assemble gs g ∧ file (ofFragments fs) g = file (ofFragments gs) g ∧
        ((∀ f ∈ fs, ∀ step ∈ f.modulePath, isModuleName step = true) →
          ∀ source, (file (ofFragments fs) g).formatted? = some source →
            assemble fs g = .ok ⟨source, (ofFragments fs).labels⟩ ∧
              assemble gs g = .ok ⟨source, (ofFragments fs).labels⟩)) ∧
      (∀ before after : List Fragment, ∀ f f', f.modulePath ≠ f'.modulePath →
        SameRows (before ++ f :: f' :: after) (before ++ f' :: f :: after)) ∧
      ∀ m, Model.ofProgram m.program = .ok m → ∀ units,
        (∀ path, units.filter (contributes m path) = m.program.units.filter (contributes m path)) →
          let m' := withUnits m units
          Model.ofProgram m'.program = .ok m' ∧ SameRows (Fragment.ofModel m') (Fragment.ofModel m) ∧
            ∀ g, assemble (Fragment.ofModel m') g = assemble (Fragment.ofModel m) g := by
  have crates (fs gs : List Fragment) (same : SameRows fs gs) (g : GlobalImports) : assemble fs g = assemble gs g := by
    rw [assemble, assemble, same.ofFragments_eq]
  refine ⟨fun fs gs same g => ?_, fun before after f f' other path => ?_, fun m resolved units order => ?_⟩
  · refine ⟨crates fs gs same g, by rw [same.ofFragments_eq], fun named source formatted => ?_⟩
    rw [← crates fs gs same g, assemble_eq named, formatted]
    exact ⟨rfl, rfl⟩
  · have swapped : row path [f, f'] = row path [f', f] := by
      by_cases here : f.modulePath = path
      · have there : f'.modulePath ≠ path := fun eq => other (here.trans eq.symm)
        simp [row, here, there]
      · simp [row, List.filter_cons, here]
    have split (k k' : Fragment) : before ++ k :: k' :: after = before ++ ([k, k'] ++ after) := rfl
    rw [split f f', split f' f, row_append, row_append, row_append path before, row_append path _ after, swapped]
  · intro m'
    have same := sameRows_withUnits order
    exact ⟨ofProgram_withUnits resolved units, same, crates _ _ same⟩

/-- The model of a program of units with given paths and texts. -/
def ofTexts? (units : List (String × String)) : Option Model :=
  ((units.foldl (fun b u => b.unit u.1 u.2) (ProgramBuilder.new "host" "/sdk")).build.toOption).bind fun p =>
    (Model.ofProgram p).toOption

lemma named_of_paths {paths : List (List String)} (eq : fs.map (·.modulePath) = paths)
    (legal : ∀ path ∈ paths, ∀ step ∈ path, isModuleName step = true) :
    ∀ f ∈ fs, ∀ step ∈ f.modulePath, isModuleName step = true :=
  fun _ hf => legal _ (eq ▸ List.mem_map_of_mem hf)

/-- Two units with a fragment each, in different modules: the crate is the same in both orders. -/
theorem assemble_of_sameRows_twoModules :
    let text (name : String) := "#[microgen_sdk::micro_generator]\npub trait " ++ name ++ " \x7b\x7d\n"
    ∃ m, ofTexts? [("src/a.rs", text "X"), ("src/b.rs", text "Y")] = some m ∧
      let m' := withUnits m m.program.units.reverse
      SameRows (Fragment.ofModel m') (Fragment.ofModel m) ∧
        (Fragment.ofModel m).map (·.modulePath) = [["a"], ["b"]] ∧
        (Fragment.ofModel m').map (·.modulePath) = [["b"], ["a"]] ∧
        ∃ c, assemble (Fragment.ofModel m) ⟨[]⟩ = .ok c ∧ assemble (Fragment.ofModel m') ⟨[]⟩ = .ok c := by
  intro text
  have computed : (ofTexts? [("src/a.rs", text "X"), ("src/b.rs", text "Y")]).any (fun m =>
      let m' := withUnits m m.program.units.reverse
      m.program.units.map (fun u => (Fragment.ofUnit m 0 u).map (·.modulePath)) == [[["a"]], [["b"]]] &&
        (Fragment.ofModel m).map (·.modulePath) == [["a"], ["b"]] &&
        (Fragment.ofModel m').map (·.modulePath) == [["b"], ["a"]] &&
        (file (ofFragments (Fragment.ofModel m')) ⟨[]⟩).formatted?.isSome) = true := by
    decide +kernel
  obtain ⟨m, built, computed⟩ := (Option.any_eq_true _ _).mp computed
  simp only [Bool.and_eq_true, beq_iff_eq, Option.isSome_iff_exists] at computed
  obtain ⟨⟨⟨units, paths⟩, paths'⟩, source, formatted⟩ := computed
  obtain ⟨u, rest, eq, first, others⟩ := List.map_eq_cons_iff.mp units
  obtain ⟨v, _, rfl, second, others⟩ := List.map_eq_cons_iff.mp others
  obtain rfl := List.map_eq_nil_iff.mp others
  have order (path : List String) :
      m.program.units.reverse.filter (contributes m path) = m.program.units.filter (contributes m path) := by
    have left : contributes m path u = (path == ["a"]) := by
      rw [contributes, first, List.contains_cons, List.contains_nil, Bool.or_false]
    have right : contributes m path v = (path == ["b"]) := by
      rw [contributes, second, List.contains_cons, List.contains_nil, Bool.or_false]
    rw [eq]
    by_cases here : path = ["a"]
    · subst here
      simp [left, right]
    · simp [List.filter_cons, left, here]
  have resolved := Model.ofProgram_of_toOption built
  obtain ⟨crates, -, reordered⟩ := assemble_of_sameRows
  obtain ⟨-, same, -⟩ := reordered m resolved m.program.units.reverse order
  have named := named_of_paths paths' (by decide +kernel)
  obtain ⟨ok', ok⟩ := (crates _ _ same ⟨[]⟩).2.2 named source formatted
  exact ⟨m, built, same, paths, paths', _, ok, ok'⟩

/-- The pieces of the text of a file. -/
def piecesOf? (f : SourceFile) : Option (List String) :=
  (f.grouped true).layout.marks?.map fun marks => (Layout.State.start.run marks).pieces.reverse

lemma formatted?_eq (f : SourceFile) : f.formatted? = (piecesOf? f).map String.join := by
  rw [SourceFile.formatted?, piecesOf?, Option.map_map]
  rfl

/-- Texts differ if the first pieces in which they differ are of one length. -/
lemma join_ne_of_pieces {ps qs : List String} {x y : String}
    (first : (ps.zip qs).find? (fun p => p.1 != p.2) = some (x, y)) (size : x.toList.length = y.toList.length) :
    String.join ps ≠ String.join qs := by
  induction ps generalizing qs with
  | nil => cases first
  | cons p ps ih =>
    cases qs with
    | nil => cases first
    | cons q qs =>
      rw [List.zip_cons_cons, List.find?_cons] at first
      rw [String.join_cons, String.join_cons]
      split at first
      case h_1 other =>
        cases first
        intro same
        rw [← String.toList_inj, String.toList_append, String.toList_append] at same
        exact bne_iff_ne.mp other (String.toList_inj.mp (List.append_inj same size).1)
      case h_2 same =>
        obtain rfl : p = q := bne_eq_false_iff_eq.mp same
        rw [ne_eq, String.append_right_inj]
        exact ih first

/-- A file with an inline module, and a file that defines the module of the same path: their own modules differ, and the
crate is another one if the second file comes first. -/
theorem not_assemble_eq_sharedModule :
    let text (name : String) := "#[microgen_sdk::micro_generator]\npub trait " ++ name ++ " \x7b\x7d\n"
    ∃ m, ofTexts? [("src/a.rs", "pub mod b \x7b\n" ++ text "X" ++ "\x7d\n"), ("src/a/b.rs", text "Y")] = some m ∧
      m.program.units.map (·.modulePath) = [["a"], ["a", "b"]] ∧
      ∃ c c', assemble (Fragment.ofModel m) ⟨[]⟩ = .ok c ∧
        assemble (Fragment.ofModel (withUnits m m.program.units.reverse)) ⟨[]⟩ = .ok c' ∧ c.source ≠ c'.source := by
  intro text
  let crate (m : Model) : SourceFile := file (ofFragments (Fragment.ofModel m)) ⟨[]⟩
  have computed : (ofTexts? [("src/a.rs", "pub mod b \x7b\n" ++ text "X" ++ "\x7d\n"),
      ("src/a/b.rs", text "Y")]).any (fun m =>
        let m' := withUnits m m.program.units.reverse
        m.program.units.map (·.modulePath) == [["a"], ["a", "b"]] &&
          (Fragment.ofModel m).map (·.modulePath) == [["a", "b"], ["a", "b"]] &&
          (Fragment.ofModel m').map (·.modulePath) == [["a", "b"], ["a", "b"]] &&
          ((piecesOf? (crate m)).bind fun ps => (piecesOf? (crate m')).bind fun qs =>
            (ps.zip qs).find? (fun p => p.1 != p.2)) == some ("X", "Y")) = true := by
    decide +kernel
  obtain ⟨m, built, computed⟩ := (Option.any_eq_true _ _).mp computed
  simp only [Bool.and_eq_true, beq_iff_eq] at computed
  obtain ⟨⟨⟨units, paths⟩, paths'⟩, differ⟩ := computed
  obtain ⟨ps, pieces, differ⟩ := Option.bind_eq_some_iff.mp differ
  obtain ⟨qs, pieces', differ⟩ := Option.bind_eq_some_iff.mp differ
  have source : (crate m).formatted? = some (String.join ps) := by
    rw [formatted?_eq, pieces, Option.map_some]
  have source' : (crate (withUnits m m.program.units.reverse)).formatted? = some (String.join qs) := by
    rw [formatted?_eq, pieces', Option.map_some]
  have ok := assemble_eq (g := ⟨[]⟩) (named_of_paths paths (by decide +kernel))
  have ok' := assemble_eq (g := ⟨[]⟩) (named_of_paths paths' (by decide +kernel))
  rw [source] at ok
  rw [source'] at ok'
  exact ⟨m, built, units, _, _, ok, ok', join_ne_of_pieces differ (by decide +kernel)⟩

end Assembly

end SourceGen
