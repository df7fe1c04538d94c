import SourceGen.Proofs.Assembly.Modules
import SourceGen.Proofs.Pipeline.Stages
import SourceGen.Proofs.Resolution.Paths
import SourceGen.Proofs.Syntax.Printed

/-!
# Where global imports start

An import is global by the first names of its paths: these must not be `self`, `super`, `crate` or `*`. Any other
name passes for that of another crate, also one that the program resolves to a module of its own. So the global
imports all start at crates of the program exactly if no unit has a crate-wide import that starts at a name of neither
kind (`GlobalImports.startsOutside_iff`). One that does stands in the context module of the generated crate, which has
no such name (`GlobalImports.not_startsOutside_ownModule`).
-/

namespace SourceGen

open SourceGen.Text

/-! ### Paths of imports -/

namespace UseTree

mutual

/-- The paths of a use tree, each from its first name to its last. -/
def leaves : UseTree → List (List String)
  | .step name rest => rest.leaves.map (name :: ·)
  | .leaf name => [[name]]
  | .rename name _ => [[name]]
  | .glob => [["*"]]
  | .group trees _ => leavesAll trees

/-- The paths of use trees. -/
def leavesAll : List UseTree → List (List String)
  | [] => []
  | t :: ts => t.leaves ++ leavesAll ts

end

mutual

lemma cons_of_mem_leaves : ∀ (t : UseTree) {path : List String}, path ∈ t.leaves →
    ∃ name rest, path = name :: rest ∧ name ∈ t.roots
  | .step name t, path, there => by
    rw [leaves] at there
    obtain ⟨rest, -, rfl⟩ := List.mem_map.mp there
    exact ⟨name, rest, rfl, List.mem_singleton_self name⟩
  | .leaf name, path, there => ⟨name, [], List.mem_singleton.mp there, List.mem_singleton_self name⟩
  | .rename name other, path, there => ⟨name, [], List.mem_singleton.mp there, List.mem_singleton_self name⟩
  | .glob, path, there => ⟨"*", [], List.mem_singleton.mp there, List.mem_singleton_self "*"⟩
  | .group ts trailing, path, there => cons_of_mem_leavesAll ts there

lemma cons_of_mem_leavesAll : ∀ (ts : List UseTree) {path : List String}, path ∈ leavesAll ts →
    ∃ name rest, path = name :: rest ∧ name ∈ rootsAll ts
  | [], path, there => absurd there List.not_mem_nil
  | t :: ts, path, there => by
    rw [rootsAll]
    cases List.mem_append.mp there with
    | inl here =>
      obtain ⟨name, rest, eq, root⟩ := cons_of_mem_leaves t here
      exact ⟨name, rest, eq, List.mem_append_left _ root⟩
    | inr later =>
      obtain ⟨name, rest, eq, root⟩ := cons_of_mem_leavesAll ts later
      exact ⟨name, rest, eq, List.mem_append_right _ root⟩

end

end UseTree

/-- The names of the crates that a program can name. -/
def Program.crates (p : Program) : List String := builtinCrates ++ p.references.map (·.name)

/-- Whether an item is an import of which every path starts at a crate that a program can name. -/
def Item.StartsOutside (p : Program) (i : Item) : Prop :=
  ∃ rooted tree, i.decl = .useDecl rooted tree ∧
    (rooted = true ∨ ∀ path ∈ tree.leaves, ∃ name ∈ p.crates, path.head? = some name)

/-- A path that starts neither at a crate nor with a word for a place in the program is one below its module. -/
lemma Model.canonical_of_not_mem {m : Model} {name : String} (inside : UseTree.isLocalRoot name = false)
    (unknown : name ∉ m.externCrates) (modulePath rest : List String) :
    m.canonical modulePath (name :: rest) = fromRoot (modulePath ++ name :: rest) := by
  have notWord : name ∉ placeWords := by
    intro place
    simp only [placeWords, List.mem_cons, List.not_mem_nil, or_false] at place
    obtain rfl | rfl | rfl := place <;> cases inside
  apply (canonical_eq_fromRoot_iff notWord modulePath rest).mpr
  rw [isExternCrate, List.contains_eq_mem, decide_eq_false unknown]

namespace GlobalImports

/-! ### What is in the set -/

lemma mem_dedup {i : Item} {is : List Item} : i ∈ dedup is ↔ i ∈ is := by
  induction is with
  | nil => rfl
  | cons j is ih =>
    rw [dedup, List.mem_cons, ← ih]
    cases dedup is with
    | nil => rw [List.mem_singleton, or_iff_left List.not_mem_nil]
    | cons k ks =>
      by_cases same : (j == k) = true
      · -- the second of two equal items is left out
        obtain rfl := eq_of_beq same
        simp only [beq_self_eq_true, if_true, List.mem_cons, or_self_left]
      · simp only [same, if_false, List.mem_cons, Bool.false_eq_true]

lemma mem_ofItems {i : Item} {items : List Item} : i ∈ (ofItems items).imports ↔ i ∈ items := by
  rw [ofItems, mem_dedup, List.mem_map]
  constructor
  · rintro ⟨⟨text, j⟩, there, rfl⟩
    obtain ⟨j', hj', eq⟩ := List.mem_map.mp (List.mem_mergeSort.mp there)
    cases eq
    exact hj'
  · intro hi
    exact ⟨(i.text, i), List.mem_mergeSort.mpr (List.mem_map_of_mem hi), rfl⟩

/-- The set has what the units have at any depth, if it is a global import. -/
lemma mem_ofProgram {p : Program} {i : Item} :
    i ∈ (ofProgram p).imports ↔ i.isGlobalImport = true ∧ ∃ u ∈ p.units, ∃ s ∈ u.sightings, s.item.printed = i := by
  rw [ofProgram, mem_ofItems, List.mem_filter, and_comm, List.mem_flatMap]
  simp only [List.mem_map]

/-- Global imports are crate-wide, and they start at the root of all crates or with names that are no word for a place
in the program. -/
lemma isGlobalImport_iff {i : Item} :
    i.isGlobalImport = true ↔ i.vis.isCrateWide = true ∧ ∃ rooted tree, i.decl = .useDecl rooted tree ∧
      (rooted = true ∨ tree.roots ≠ [] ∧ ∀ name ∈ tree.roots, UseTree.isLocalRoot name = false) := by
  rw [Item.isGlobalImport]
  cases i.decl with
  | useDecl rooted tree =>
    simp only [Bool.and_eq_true, Bool.or_eq_true, Bool.not_eq_true', List.isEmpty_eq_false_iff, List.any_eq_false,
      Decl.useDecl.injEq, Bool.not_eq_true]
    refine and_congr_right fun _ => ⟨fun starts => ⟨rooted, tree, ⟨rfl, rfl⟩, starts⟩, ?_⟩
    rintro ⟨_, _, ⟨rfl, rfl⟩, starts⟩
    exact starts
  | _ =>
    constructor
    · intro isGlobal
      cases isGlobal
    · rintro ⟨-, _, _, eq, -⟩
      cases eq

/-! ### What starts outside -/

/-- What a generated crate puts into its context module are the global imports, behind what fragments of a module of
that name bring along. -/
lemma itemsAt_contextModule {fs : List Fragment} (collected : ∀ f ∈ fs, f.Collected) (p : Program) :
    ∃ before, Item.itemsAt [Assembly.contextModule] (Assembly.file (.ofFragments fs) (ofProgram p)).items =
      before ++ (ofProgram p).imports := by
  have imports : ∀ i ∈ (ofProgram p).imports, i.isImport = true :=
    fun i hi => Item.isImport_of_isGlobalImport (mem_ofProgram.mp hi).1
  rw [Assembly.itemsAt_file collected imports, Assembly.addedAt, if_pos rfl]
  exact ⟨_, rfl⟩

/-- A global import is a crate-wide import of some module, and where it is not written from the root of all crates,
each of its paths starts at a crate that the program can name, or is a path below that module as the program resolves
it. All of them start at such crates exactly if no unit has a crate-wide import, at any depth, that starts at another
name than these and the words for places in the program. Whatever the fragments are, the generated crate has all of
them in its context module. -/
theorem startsOutside_iff (p : Program) :
    (∀ i ∈ (ofProgram p).imports, ∃ u ∈ p.units, ∃ s ∈ u.sightings, s.item.printed = i ∧
        i.vis.isCrateWide = true ∧ ∃ rooted tree, i.decl = .useDecl rooted tree ∧
          (rooted = true ∨ ∀ path ∈ tree.leaves, (∃ name ∈ p.crates, path.head? = some name) ∨
            ∀ m, Model.ofProgram p = .ok m →
              m.canonical s.scope.modulePath path = Model.fromRoot (s.scope.modulePath ++ path))) ∧
      ((∀ i ∈ (ofProgram p).imports, i.StartsOutside p) ↔
        ∀ u ∈ p.units, ∀ s ∈ u.sightings, ∀ tree, s.item.vis.isCrateWide = true → s.item.decl = .useDecl false tree →
          (∀ name ∈ tree.roots, UseTree.isLocalRoot name = false) →
            ∀ path ∈ tree.leaves, ∃ name ∈ p.crates, path.head? = some name) ∧
      ∀ fs : List Fragment, (∀ f ∈ fs, ∃ m index u, f ∈ Fragment.ofUnit m index u) →
        ∃ before, Item.itemsAt [Assembly.contextModule] (Assembly.file (.ofFragments fs) (ofProgram p)).items =
          before ++ (ofProgram p).imports := by
  refine ⟨?origin, ⟨?only, ?always⟩, ?context⟩
  case origin =>
    intro i hi
    obtain ⟨isGlobal, u, hu, s, hs, rfl⟩ := mem_ofProgram.mp hi
    obtain ⟨wide, rooted, tree, decl, starts⟩ := isGlobalImport_iff.mp isGlobal
    refine ⟨u, hu, s, hs, rfl, wide, rooted, tree, decl, starts.imp_right ?_⟩
    rintro ⟨-, roots⟩ path there
    obtain ⟨name, rest, rfl, root⟩ := UseTree.cons_of_mem_leaves tree there
    -- the roots are only checked for the words, so a name that is no crate is one of the program
    by_cases known : name ∈ p.crates
    · exact .inl ⟨name, known, rfl⟩
    · right
      intro m hm
      obtain ⟨markers, -, rfl⟩ := Model.eq_of_ofProgram hm
      exact Model.canonical_of_not_mem (roots name root) known _ rest
  case only =>
    intro outside u hu s hs tree wide decl roots path there
    obtain ⟨name, rest, rfl, root⟩ := UseTree.cons_of_mem_leaves tree there
    have decl' := s.item.decl_printed_eq_useDecl_iff.mpr decl
    have isGlobal : s.item.printed.isGlobalImport = true :=
      isGlobalImport_iff.mpr ⟨s.item.vis_printed ▸ wide, false, tree, decl', .inr ⟨List.ne_nil_of_mem root, roots⟩⟩
    obtain ⟨rooted, tree', eq, starts⟩ := outside _ (mem_ofProgram.mpr ⟨isGlobal, u, hu, s, hs, rfl⟩)
    cases decl'.symm.trans eq
    exact starts.resolve_left nofun _ there
  case always =>
    intro outside i hi
    obtain ⟨isGlobal, u, hu, s, hs, rfl⟩ := mem_ofProgram.mp hi
    obtain ⟨wide, rooted, tree, decl, starts⟩ := isGlobalImport_iff.mp isGlobal
    refine ⟨rooted, tree, decl, ?_⟩
    cases rooted with
    | true => exact .inl rfl
    | false =>
      right
      apply outside u hu s hs tree
      · rwa [Item.vis_printed] at wide
      · exact s.item.decl_printed_eq_useDecl_iff.mp decl
      · exact (starts.resolve_left nofun).2
  case context =>
    intro fs collected
    apply itemsAt_contextModule
    intro f hf
    obtain ⟨m, index, u, there⟩ := collected f hf
    exact Fragment.collected_of_mem_ofUnit there

/-- A re-export from a module of the program: it is a global import that starts at no crate, and the generated crate
has it in its context module, though no module of that crate has the name. -/
theorem not_startsOutside_ownModule :
    let text := "#[microgen_sdk::micro_generator]\npub struct G;\npub mod models \x7b\n    pub struct User;\n\x7d\n" ++
      "pub use models::User;\n"
    let reexport : Item := .mk [] .pub (.useDecl false (.step "models" (.leaf "User")))
    ∃ p, ((ProgramBuilder.new "host" "/sdk").unit "src/lib.rs" text).build = .ok p ∧
      (ofProgram p).imports = [reexport] ∧ ¬ reexport.StartsOutside p ∧
      let items := (Assembly.file (.ofFragments (Assembly.fragmentsOfText text)) (ofProgram p)).items
      Item.itemsAt [Assembly.contextModule] items = [reexport] ∧ Item.itemsAt ["models"] items = [] := by
  intro text reexport
  let build := ((ProgramBuilder.new "host" "/sdk").unit "src/lib.rs" text).build
  have computed : build.isOk = true ∧
      let p := build.toOption.getD ⟨"host", [], []⟩
      let items := (Assembly.file (.ofFragments (Assembly.fragmentsOfText text)) (ofProgram p)).items
      ((ofProgram p).imports == [reexport]) = true ∧ "models" ∉ p.crates ∧
        (Item.itemsAt [Assembly.contextModule] items == [reexport]) = true ∧
        (Item.itemsAt ["models"] items == []) = true := by
    decide +kernel
  change ∃ p, build = .ok p ∧ _
  cases built : build with
  | error e =>
    rw [built] at computed
    cases computed.1
  | ok p =>
    rw [built] at computed
    obtain ⟨-, imports, unknown, context, models⟩ := computed
    refine ⟨p, rfl, eq_of_beq imports, ?_, eq_of_beq context, eq_of_beq models⟩
    rintro ⟨rooted, tree, decl, starts⟩
    cases decl
    obtain ⟨name, known, first⟩ := starts.resolve_left nofun _ (List.mem_singleton_self ["models", "User"])
    cases first
    exact unknown known

end GlobalImports

end SourceGen
