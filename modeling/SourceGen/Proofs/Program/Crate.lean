import Mathlib.Data.List.Perm.Basic
import Mathlib.Data.List.Sort
import Mathlib.Data.String.Basic
import SourceGen.Program.Crate
import SourceGen.Proofs.Disk
import SourceGen.Proofs.Program.Fingerprint
import SourceGen.Proofs.Sorting

/-!
# Loading a crate

Files are found in the order in which directories list their entries, but sorting makes that order forgotten, so a crate
is loaded as the same program in any order (`CrateDirectory.load_of_reordered`). The files that are found in a tree are
its source files, each once (`mem_filesIn`, `nodup_filesIn`), of which those that belong to the library become the units.
-/

namespace SourceGen

open SourceGen.Text

namespace CrateDirectory

open Disk SourcePath

variable {d d' : Disk} {entries : List (String × DiskEntry)} {base : String}

/-- What is found under a name in a directory. -/
def visit (d : Disk) (base : String) (fuel : Nat) (above : List String) (name : String) :
    Except HostError (List (List String)) :=
  if d.isDirectory (join (above.foldl join base) name) then sourceFiles d base fuel (above ++ [name])
  else if extension? name = some "rs" then .ok [above ++ [name]]
  else .ok []

lemma sourceFiles_succ {fuel : Nat} {above names : List String} (listed : d.names (above.foldl join base) = .ok names) :
    sourceFiles d base (fuel + 1) above = names.mapM (visit d base fuel above) >>= fun found => .ok found.flatten := by
  rw [sourceFiles, listed]
  rfl

/-! ### The order of entries -/

/-- What is found in a directory is the same, in another order, if entries are. -/
lemma sourceFiles_perm (reordered : Reordered d d') {fuel : Nat} {above : List String}
    {files : List (List String)} (found : sourceFiles d base fuel above = .ok files) :
    ∃ files', sourceFiles d' base fuel above = .ok files' ∧ files.Perm files' := by
  induction fuel generalizing above files with
  | zero => exact ⟨files, found, .refl files⟩
  | succ fuel ih =>
    have steps (name : String) (files : List (List String)) (step : visit d base fuel above name = .ok files) :
        ∃ files', visit d' base fuel above name = .ok files' ∧ files.Perm files' := by
      rw [visit] at step ⊢
      rw [← reordered.isDirectory_eq]
      split at step
      case isTrue isDir => exact if_pos isDir ▸ ih step
      case isFalse notDir =>
        rw [if_neg notDir]
        exact ⟨files, step, .refl files⟩
    cases listed : d.names (above.foldl join base) with
    | error e =>
      rw [sourceFiles, listed] at found
      cases found
    | ok names =>
      obtain ⟨names', listed', perm⟩ := reordered.names_perm listed
      rw [sourceFiles_succ listed] at found
      obtain ⟨found, walk, eq⟩ := ok_of_bind found
      cases eq
      obtain ⟨found', walk', perm⟩ := mapM_perm perm steps walk
      refine ⟨found'.flatten, ?_, perm⟩
      rw [sourceFiles_succ listed', walk']
      rfl

/-- Sorted files are in order. -/
lemma pairwise_sortFiles (files : List (List String)) : (sortFiles files).Pairwise (· ≤ ·) :=
  pairwise_mergeSort (fun file => file) files

/-- Sorted files do not tell the order in which they were found. -/
lemma sortFiles_eq_of_perm {files files' : List (List String)} (perm : files.Perm files') :
    sortFiles files = sortFiles files' := by
  have perm : (sortFiles files).Perm (sortFiles files') :=
    ((List.mergeSort_perm _ _).trans perm).trans (List.mergeSort_perm _ _).symm
  exact perm.eq_of_pairwise (fun _ _ _ _ le ge => le_antisymm le ge) (pairwise_sortFiles files)
    (pairwise_sortFiles files')

/-- Files that are found once are in a strict order when they are sorted. -/
lemma increasing_sortFiles {files : List (List String)} (distinct : files.Nodup) :
    (sortFiles files).Pairwise (· < ·) :=
  ((pairwise_sortFiles files).and ((List.mergeSort_perm files _).symm.pairwise distinct fun ne => ne.symm)).imp
    fun h => lt_of_le_of_ne h.1 h.2

lemma addFile_eq (reordered : Reordered d d') (src : String) : addFile d src = addFile d' src := by
  funext b file
  rw [addFile, addFile, reordered.readText_eq]

/-- The program of a crate does not tell the order of entries. -/
lemma builder_of_reordered (reordered : Reordered d d') {config : Config} {root : String} {b : ProgramBuilder}
    (built : builder d config root = .ok b) : builder d' config root = .ok b := by
  rw [builder] at built ⊢
  dsimp only at built ⊢
  rw [← reordered.isDirectory_eq]
  split at built
  case isFalse => cases built
  case isTrue isSrc =>
    rw [if_pos isSrc]
    have bound : depthBound d' = depthBound d := by rw [depthBound, depthBound, reordered.sizeAll]
    obtain ⟨files, found, built⟩ := ok_of_bind built
    obtain ⟨files', found', perm⟩ := sourceFiles_perm reordered found
    rw [bound, found']
    change (sortFiles _).foldlM _ _ = _ at built ⊢
    rw [← reordered.isFile_eq, ← addFile_eq reordered, ← sortFiles_eq_of_perm (perm.filter _)]
    exact built

/-! ### Files in a tree -/

mutual

/-- The source files under a name. -/
def filesUnder (name : String) : DiskEntry → List (List String)
  | .directory entries => (filesIn entries).map (name :: ·)
  | .file _ => if extension? name = some "rs" then [[name]] else []
  | .link _ => []

/-- The source files in a directory and below it. -/
def filesIn : List (String × DiskEntry) → List (List String)
  | [] => []
  | e :: entries => filesUnder e.1 e.2 ++ filesIn entries

end

lemma filesIn_eq (entries : List (String × DiskEntry)) :
    filesIn entries = entries.flatMap fun e => filesUnder e.1 e.2 := by
  induction entries with
  | nil => rfl
  | cons e entries ih => rw [filesIn, ih, List.flatMap_cons]

/-- Whether names lead to a file whose name is `.rs` behind something. -/
def IsSource (file : List String) : Prop := ∃ stem, stem ≠ "" ∧ file.getLast? = some (stem ++ ".rs")

lemma isSource_singleton {name : String} (hn : IsComponent name) : IsSource [name] ↔ extension? name = some "rs" := by
  simp only [IsSource, List.getLast?_singleton, Option.some.injEq, extension?_eq_rs_iff hn]

lemma isSource_cons {name : String} {file : List String} (more : file ≠ []) :
    IsSource (name :: file) ↔ IsSource file := by
  rw [IsSource, IsSource, List.getLast?_cons_of_ne_nil more]

/-- The files that are found in a tree are those with a name that ends in `.rs`. -/
lemma mem_filesIn (tree : IsTree entries) {file : List String} :
    file ∈ filesIn entries ↔ IsSource file ∧ ∃ content, Holds entries file (.file content) := by
  induction tree generalizing file with
  | @intro entries distinct names noLinks below ih =>
    have component {name : String} {e : DiskEntry} (member : (name, e) ∈ entries) : IsComponent name :=
      (names _ member).toIsComponent
    rw [filesIn_eq, List.mem_flatMap]
    constructor
    · rintro ⟨⟨name, e⟩, member, there⟩
      cases e with
      | file content =>
        rw [filesUnder] at there
        split at there
        case isTrue source =>
          obtain rfl := List.mem_singleton.mp there
          exact ⟨(isSource_singleton (component member)).mpr source, content, .here member⟩
        case isFalse => cases there
      | link target => exact absurd member (noLinks name target)
      | directory es =>
        obtain ⟨file', found, rfl⟩ := List.mem_map.mp there
        obtain ⟨source, content, holds⟩ := (ih name es member).mp found
        exact ⟨(isSource_cons holds.ne_nil).mpr source, content, .inside member holds⟩
    · rintro ⟨source, content, holds⟩
      cases holds with
      | here member =>
        refine ⟨_, member, ?_⟩
        rw [filesUnder, if_pos ((isSource_singleton (component member)).mp source)]
        exact List.mem_singleton_self _
      | inside member holds =>
        have source := (isSource_cons holds.ne_nil).mp source
        exact ⟨_, member, List.mem_map_of_mem ((ih _ _ member).mpr ⟨source, content, holds⟩)⟩

lemma head?_of_mem_filesUnder {name : String} {e : DiskEntry} {file : List String} (there : file ∈ filesUnder name e) :
    file.head? = some name := by
  cases e with
  | file content =>
    rw [filesUnder] at there
    split at there
    case isTrue => rw [List.mem_singleton.mp there, List.head?_cons]
    case isFalse => cases there
  | link target => cases there
  | directory es =>
    obtain ⟨file', -, rfl⟩ := List.mem_map.mp there
    exact List.head?_cons

/-- No file of a tree is found twice. -/
lemma nodup_filesIn (tree : IsTree entries) : (filesIn entries).Nodup := by
  induction tree with
  | @intro entries distinct names noLinks below ih =>
    rw [filesIn_eq, List.nodup_flatMap]
    constructor
    · rintro ⟨name, e⟩ member
      cases e with
      | file content =>
        rw [filesUnder]
        split
        case isTrue => exact List.nodup_singleton _
        case isFalse => exact List.nodup_nil
      | link target => exact List.nodup_nil
      | directory es => exact (ih name es member).map fun _ _ => List.tail_eq_of_cons_eq
    · -- a file tells by its first name under which entry it was found
      refine (List.pairwise_map.mp distinct).imp fun ne file one other => ne ?_
      exact Option.some.inj ((head?_of_mem_filesUnder one).symm.trans (head?_of_mem_filesUnder other))

/-- In a tree whose paths the system takes, the source files of the tree are found. -/
lemma sourceFiles_eq (tree : IsTree entries) {fuel : Nat} {above : List String}
    (there : d.find (above.foldl join base) = .ok (.directory entries)) (inName : EndsInName (above.foldl join base))
    (fits : Fits (above.foldl join base) entries) (enough : DiskEntry.sizeAll entries < fuel) :
    sourceFiles d base fuel above = .ok ((filesIn entries).map (above ++ ·)) := by
  -- the fuel outlasts the tree: a directory in another one is smaller
  induction fuel generalizing entries above with
  | zero => omega
  | succ fuel ih =>
    have steps : ∀ e ∈ entries, visit d base fuel above e.1 = .ok ((filesUnder e.1 e.2).map (above ++ ·)) := by
      rintro ⟨name, e⟩ member
      rw [visit]
      cases e with
      | file content =>
        have notDir : d.isDirectory (join (above.foldl join base) name) = false := by
          rw [isDirectory, tree.find_join_file there inName fits member]
        rw [notDir, if_neg Bool.false_ne_true, filesUnder]
        split
        case isTrue => rfl
        case isFalse => rfl
      | link target =>
        obtain ⟨-, -, noLinks, -⟩ := tree
        exact absurd member (noLinks name target)
      | directory es =>
        have there' := tree.find_join_directory there inName fits member
        have smaller := sizeAll_lt_of_mem member
        obtain ⟨-, fileNames, -, below⟩ := tree
        have inName' := endsInName_join (above.foldl join base) (fileNames _ member).toIsComponent
        have path : (above ++ [name]).foldl join base = join (above.foldl join base) name :=
          List.foldl_concat ..
        rw [isDirectory, there', if_pos rfl, ih (below name es member) (path ▸ there') (path ▸ inName')
          (path ▸ fits.below member) (by omega), filesUnder, List.map_map]
        exact congrArg Except.ok (List.map_congr_left fun file _ => List.append_assoc above [name] file)
    have listed : d.names (above.foldl join base) = .ok (entries.map (·.1)) := by rw [Disk.names, there]
    have walk : (entries.map (·.1)).mapM (visit d base fuel above) =
        .ok (entries.map fun e => (filesUnder e.1 e.2).map (above ++ ·)) := by
      rw [mapM_eq_ok_iff, List.forall₂_map_left_iff, List.forall₂_map_right_iff, List.forall₂_same]
      exact steps
    rw [sourceFiles_succ listed, walk, filesIn_eq, List.map_flatMap]
    rfl

/-! ### Units -/

/-- Whether a file of a tree belongs to the library of the crate: it is a source file outside of the directory `bin` at
the top, and not the `main.rs` beside a `lib.rs`. -/
structure IsUnitFile (entries : List (String × DiskEntry)) (file : List String) : Prop where
  source : IsSource file
  there : ∃ content, Holds entries file (.file content)
  notBinary : file.head? ≠ some "bin"
  notMain : file = ["main.rs"] → ∀ content, ¬ Holds entries ["lib.rs"] (.file content)

/-- Whether a unit was made of a file: it has the text of the file, and defines the module of its path. -/
structure IsUnitOf (entries : List (String × DiskEntry)) (file : List String) (u : SourceUnit) : Prop where
  text : ∃ content, Holds entries file (.file content) ∧ decode content = .ok u.text
  path : u.path = relative ("src" :: file)
  modulePath : u.modulePath = moduleOfRelative (relative file)
  parsed : ParsedText.parse u.text = .ok u.parsed

/-- Whether the files that belong to the library can be read and parsed. -/
def IsReadable (entries : List (String × DiskEntry)) : Prop :=
  ∀ file content, IsUnitFile entries file → Holds entries file (.file content) →
    ∃ text tree, decode content = .ok text ∧ ParsedText.parse text = .ok tree

/-- The files that belong to the library are kept. -/
lemma mem_units (tree : IsTree entries) {hasLib : Bool}
    (lib : hasLib = true ↔ ∃ content, ("lib.rs", .file content) ∈ entries) {file : List String} :
    file ∈ sortFiles ((filesIn entries).filter fun f => !isOtherTarget hasLib f) ↔ IsUnitFile entries file := by
  have lib : hasLib = false ↔ ∀ content, ¬ Holds entries ["lib.rs"] (.file content) := by
    rw [← Bool.not_eq_true, lib, not_exists]
    refine forall_congr' fun content => not_congr ⟨.here, fun holds => ?_⟩
    cases holds with
    | here member => exact member
    | inside member holds => exact absurd rfl holds.ne_nil
  have kept : isOtherTarget hasLib file = false ↔
      file.head? ≠ some "bin" ∧ (file = ["main.rs"] → ∀ content, ¬ Holds entries ["lib.rs"] (.file content)) := by
    rw [isOtherTarget, Bool.or_eq_false_iff, decide_eq_false_iff_not, Bool.and_eq_false_iff, decide_eq_false_iff_not,
      lib]
    exact and_congr_right fun _ => or_iff_not_imp_right.trans (by rw [not_not])
  rw [sortFiles, List.mem_mergeSort, List.mem_filter, mem_filesIn tree, Bool.not_eq_true', kept]
  constructor
  · rintro ⟨⟨source, there⟩, notBinary, notMain⟩
    exact ⟨source, there, notBinary, notMain⟩
  · rintro ⟨source, there, notBinary, notMain⟩
    exact ⟨⟨source, there⟩, notBinary, notMain⟩

/-- The unit of a file with a given text, before it is parsed. -/
def pendingOf (file : List String) (text : String) : PendingUnit := ⟨file.foldl join "src", moduleOf file, text⟩

/-- Files that can be read are added one after the other. -/
lemma foldlM_addFile {src : String} {files : List (List String)} (b : ProgramBuilder)
    (readable : ∀ file ∈ files, ∃ text, d.readText (file.foldl join src) = .ok text) :
    ∃ ws, files.foldlM (addFile d src) b = .ok { b with units := b.units ++ ws } ∧
      List.Forall₂ (fun file w => ∃ text, d.readText (file.foldl join src) = .ok text ∧ w = pendingOf file text)
        files ws := by
  induction files generalizing b with
  | nil => exact ⟨[], by rw [List.append_nil]; rfl, .nil⟩
  | cons file files ih =>
    obtain ⟨⟨text, first⟩, rest⟩ := List.forall_mem_cons.mp readable
    have added : addFile d src b file = .ok { b with units := b.units ++ [pendingOf file text] } := by
      rw [addFile, first]
      rfl
    obtain ⟨ws, walk, rows⟩ := ih { b with units := b.units ++ [pendingOf file text] } rest
    refine ⟨pendingOf file text :: ws, ?_, .cons ⟨text, first, rfl⟩ rows⟩
    rw [List.foldlM_cons, added]
    change files.foldlM _ _ = _
    rw [walk, List.append_assoc, List.singleton_append]

lemma readText_of_find {path : String} {content : List UInt8} {text : String}
    (there : d.find path = .ok (.file content)) (decoded : decode content = .ok text) :
    d.readText path = .ok text := by
  have bytes : d.read path = .ok content := by rw [Disk.read, there]
  rw [readText, bytes]
  dsimp only
  rw [decoded]
  rfl

/-- A file that belongs to the library can be read, and the unit that is made of it can be parsed. -/
lemma exists_isUnitOf (tree : IsTree entries) {directory : String} (there : d.find directory = .ok (.directory entries))
    (inName : EndsInName directory) (fits : Fits directory entries) (readable : IsReadable entries)
    {file : List String} (unit : IsUnitFile entries file) :
    ∃ text, d.readText (file.foldl join directory) = .ok text ∧
      ∃ u, ProgramBuilder.parseUnit (pendingOf file text) = .ok u ∧ IsUnitOf entries file u := by
  obtain ⟨content, holds⟩ := unit.there
  obtain ⟨text, parsed, decoded, parse⟩ := readable file content unit holds
  have components : ∀ s ∈ file, IsComponent s := fun s hs => (IsTree.isFileName_of_holds holds tree s hs).toIsComponent
  have src : EndsInName "src" := ⟨['s', 'r'], 'c', by decide, by decide⟩
  have path : file.foldl join "src" = relative ("src" :: file) := foldl_join src components
  have modulePath : moduleOf file = moduleOfRelative (relative file) := by
    rw [moduleOfRelative, parts_relative holds.ne_nil components, names_map_name]
  refine ⟨text, readText_of_find (IsTree.find_foldl_join holds rfl tree there inName fits) decoded,
    ⟨file.foldl join "src", moduleOf file, text, parsed⟩, ?_, ⟨content, holds, decoded⟩, path, modulePath, parse⟩
  exact ProgramBuilder.parseUnit_eq_ok_iff.mpr ⟨rfl, rfl, rfl, parse⟩

/-- The files of a tree are added to the program in the order of their paths. -/
lemma builder_of_tree {config : Config} {root : String} (tree : IsTree entries)
    (src : d.find (join root "src") = .ok (.directory entries)) (fits : Fits (join root "src") entries)
    (readable : IsReadable entries) :
    ∃ files ws, builder d config root = .ok { ProgramBuilder.new (crateName root) config.sdkPathText with units := ws } ∧
      files.Pairwise (· < ·) ∧ (∀ file, file ∈ files ↔ IsUnitFile entries file) ∧
      List.Forall₂ (fun file w => ∃ u, ProgramBuilder.parseUnit w = .ok u ∧ IsUnitOf entries file u) files ws := by
  have isComponent_src : IsComponent "src" := by constructor <;> decide
  have isFileName_lib : IsFileName "lib.rs" := by decide
  have inName : EndsInName (join root "src") := endsInName_join root isComponent_src
  have isDir : d.isDirectory (join root "src") = true := by rw [isDirectory, src]
  have found : sourceFiles d (join root "src") (depthBound d) [] = .ok (filesIn entries) := by
    have enough : DiskEntry.sizeAll entries < depthBound d := by
      have := sizeAll_le_of_find src
      rw [depthBound, maxLinks]
      omega
    have found : sourceFiles d (join root "src") (depthBound d) [] = .ok ((filesIn entries).map ([] ++ ·)) :=
      sourceFiles_eq tree src inName fits enough
    exact found.trans (congrArg Except.ok (List.map_id _))
  let files := sortFiles ((filesIn entries).filter fun f => !isOtherTarget (d.isFile (join (join root "src") "lib.rs")) f)
  have units (file : List String) : file ∈ files ↔ IsUnitFile entries file :=
    mem_units tree (tree.isFile_join_iff src inName fits isFileName_lib)
  have readable (file : List String) (there : file ∈ files) :=
    exists_isUnitOf tree src inName fits readable ((units file).mp there)
  obtain ⟨ws, added, rows⟩ := foldlM_addFile (.new (crateName root) config.sdkPathText) fun file there =>
    (readable file there).imp fun _ h => h.1
  refine ⟨files, ws, ?_, increasing_sortFiles ((nodup_filesIn tree).filter _), units, ?_⟩
  · rw [builder]
    dsimp only
    rw [if_pos isDir, found]
    exact added
  · have rows := (List.forall₂_and_left _ _).mpr ⟨fun file (there : file ∈ files) => there, rows⟩
    refine rows.imp fun file w row => ?_
    obtain ⟨there, text, first, eq⟩ := row
    obtain ⟨text', second, made⟩ := readable file there
    obtain rfl := Except.ok.inj (first.symm.trans second)
    exact eq ▸ made

/-- The program of a tree has the units of its files in the order of their paths. -/
lemma load_of_tree {config : Config} {root : String} (tree : IsTree entries)
    (src : d.find (join root "src") = .ok (.directory entries)) (fits : Fits (join root "src") entries)
    (readable : IsReadable entries) :
    ∃ p files, load d config root = .ok p ∧ files.Pairwise (· < ·) ∧
      (∀ file, file ∈ files ↔ IsUnitFile entries file) ∧ List.Forall₂ (IsUnitOf entries) files p.units := by
  obtain ⟨files, ws, added, increasing, units, rows⟩ := builder_of_tree tree src fits readable
  obtain ⟨us, unitsOf, parsed⟩ := forall₂_trans (fun _ _ made => made.imp fun _ h => h.symm) rows
  let b : ProgramBuilder := { ProgramBuilder.new (crateName root) config.sdkPathText with units := ws }
  have built : b.build = .ok ⟨b.crateName, us, b.allReferences⟩ :=
    ProgramBuilder.build_eq_ok_iff.mpr ⟨rfl, rfl, parsed⟩
  refine ⟨⟨b.crateName, us, b.allReferences⟩, files, ?_, increasing, units, unitsOf⟩
  rw [load, loadWith, added]
  exact built

/-- A crate is loaded as the same program, whatever the order of the entries in its directories. If the source directory
is a tree whose paths the system takes, and whose library files can be read and parsed, the crate is loaded, with one unit
for each file that belongs to the library, in the order of their paths, and with the module of its path. -/
theorem load_of_reordered (reordered : Reordered d d') (config : Config) (root : String) :
    (∀ customize p, loadWith d config root customize = .ok p → loadWith d' config root customize = .ok p) ∧
    ∀ entries, d.find (join root "src") = .ok (.directory entries) → IsTree entries → Fits (join root "src") entries →
      IsReadable entries →
        ∃ p files, load d config root = .ok p ∧ load d' config root = .ok p ∧ files.Pairwise (· < ·) ∧
          (∀ file, file ∈ files ↔ IsUnitFile entries file) ∧ List.Forall₂ (IsUnitOf entries) files p.units := by
  have same (customize : ProgramBuilder → ProgramBuilder) (p : Program)
      (loaded : loadWith d config root customize = .ok p) : loadWith d' config root customize = .ok p := by
    obtain ⟨b, added, built⟩ := ok_of_bind loaded
    rw [loadWith, builder_of_reordered reordered added]
    exact built
  refine ⟨same, fun entries src tree fits readable => ?_⟩
  obtain ⟨p, files, loaded, units⟩ := load_of_tree tree src fits readable
  exact ⟨p, files, loaded, same id p loaded, units⟩

/-- A library beside other targets and notes, and the same directory listed backwards. -/
theorem load_of_reordered_otherTargets :
    let entries : List (String × DiskEntry) := [("notes", .file []), ("main.rs", .file []), ("lib.rs", .file []),
      ("bin", .directory [("tool.rs", .file [])]), ("a", .directory [("mod.rs", .file [])])]
    let crate (entries : List (String × DiskEntry)) : Disk := [("demo", .directory [("src", .directory entries)])]
    Reordered (crate entries) (crate entries.reverse) ∧ IsTree entries ∧ Fits (join "demo" "src") entries ∧
      IsReadable entries ∧
      ∃ p, load (crate entries) .default "demo" = .ok p ∧ load (crate entries.reverse) .default "demo" = .ok p ∧
        p.units.map (·.path) = ["src/a/mod.rs", "src/lib.rs"] ∧ p.units.map (·.modulePath) = [["a"], []] := by
  intro entries crate
  have distinct : (entries.map (·.1)).Nodup := by decide
  have reordered : Reordered (crate entries) (crate entries.reverse) :=
    .inside "demo" (.inside "src" (.of_perm distinct entries.reverse_perm.symm) .nil) .nil
  have src : (crate entries).find (join "demo" "src") = .ok (.directory entries) := by
    have path : join "demo" "src" = "demo/src" := by decide +kernel
    have short : SystemError.exceedsPath "demo/src" = false := by decide +kernel
    have segments : parts "demo/src" = [.name "demo", .name "src"] := by decide +kernel
    rw [path, find, short, segments]
    simp [follow, entry?, crate]
  have leaf {name : String} (hn : IsFileName name) : IsTree [(name, .file [])] :=
    .of_files (List.nodup_singleton name) (List.forall_mem_singleton.mpr ⟨hn, [], rfl⟩)
  have tree : IsTree entries := by
    refine .intro distinct (by decide) (by simp [entries]) fun name es member => ?_
    simp only [entries, List.mem_cons, Prod.mk.injEq, reduceCtorEq, DiskEntry.directory.injEq, and_false, false_or,
      List.not_mem_nil, or_false] at member
    obtain ⟨-, rfl⟩ | ⟨-, rfl⟩ := member
    · exact leaf (by decide)
    · exact leaf (by decide)
  have holds_cases {names : List String} {e : DiskEntry} (holds : Holds entries names e) :
      names ∈ [["notes"], ["main.rs"], ["lib.rs"], ["bin"], ["bin", "tool.rs"], ["a"], ["a", "mod.rs"]] ∧
        ∀ content, e = .file content → content = [] := by
    cases holds with
    | here member =>
      simp [entries] at member
      obtain ⟨rfl, rfl⟩ | ⟨rfl, rfl⟩ | ⟨rfl, rfl⟩ | ⟨rfl, rfl⟩ | ⟨rfl, rfl⟩ := member <;> simp
    | inside member holds =>
      simp [entries] at member
      obtain ⟨rfl, rfl⟩ | ⟨rfl, rfl⟩ := member
      all_goals
        cases holds with
        | here member =>
          simp at member
          obtain ⟨rfl, rfl⟩ := member
          simp
        | inside member => simp at member
  have fits : Fits (join "demo" "src") entries := by
    have short : ∀ names ∈ [["notes"], ["main.rs"], ["lib.rs"], ["bin"], ["bin", "tool.rs"], ["a"], ["a", "mod.rs"]],
        SystemError.exceedsPath (names.foldl join (join "demo" "src")) = false := by decide +kernel
    exact fun names e holds => short names (holds_cases holds).1
  have readable : IsReadable entries := by
    intro file content _ holds
    obtain rfl := (holds_cases holds).2 content rfl
    have decoded : decode [] = .ok "" := by
      rw [decode, utf8Pieces]
      rfl
    have parsed : (ParsedText.parse "").isOk = true := by decide +kernel
    cases first : ParsedText.parse "" with
    | ok tree => exact ⟨"", tree, decoded, first⟩
    | error position =>
      rw [first] at parsed
      cases parsed
  obtain ⟨p, files, loaded, loaded', increasing, units, rows⟩ :=
    (load_of_reordered reordered .default "demo").2 entries src tree fits readable
  have eq : files = [["a", "mod.rs"], ["lib.rs"]] := by
    have found : filesIn entries = [["main.rs"], ["lib.rs"], ["bin", "tool.rs"], ["a", "mod.rs"]] := by
      decide +kernel
    have increasing' : [["a", "mod.rs"], ["lib.rs"]].Pairwise (· < ·) := by decide
    refine increasing.eq_of_mem_iff increasing' fun file => ?_
    have lib : true = true ↔ ∃ content, ("lib.rs", .file content) ∈ entries := by simp [entries]
    rw [units, ← mem_units tree lib, found, sortFiles, List.mem_mergeSort]
    simp [isOtherTarget, or_comm]
  refine ⟨reordered, tree, fits, readable, p, loaded, loaded', ?_⟩
  subst eq
  obtain ⟨u, us, first, others, eq⟩ := List.forall₂_cons_left_iff.mp rows
  obtain ⟨v, vs, second, none, rfl⟩ := List.forall₂_cons_left_iff.mp others
  obtain rfl := List.forall₂_nil_left_iff.mp none
  rw [eq, List.map_cons, List.map_cons, List.map_cons, List.map_cons, first.path, second.path, first.modulePath,
    second.modulePath]
  exact ⟨rfl, by decide +kernel⟩

end CrateDirectory

end SourceGen
