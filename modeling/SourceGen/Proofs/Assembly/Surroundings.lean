import SourceGen.Proofs.GlobalImports
import SourceGen.Proofs.Program.Modules

/-!
# What a generated crate takes over from around its fragments

A fragment brings along the imports of the module that declares it, and the attributes that this module carries. So a
module of the generated crate imports what the modules of its path import that declare a marked type themselves, and a
module around a fragment is rebuilt without its imports if it declares none (`Assembly.imports_kept_iff`,
`Assembly.not_imports_kept_aroundModule`). It is the same with the feature gates and limits of a crate: they are carried
along from the root only, and so they are lost if all marked types are in modules (`Assembly.gates_iff`,
`Assembly.not_gates_aroundModule`).
-/

namespace SourceGen

/-! ### Gates and modules -/

/-- Whether an attribute switches on a language feature or sets a limit for a whole crate. -/
def Attr.isGate (a : Attr) : Bool := a.inner && rootOnlyAttributes.any a.isNamed

namespace SourceUnit

/-- The gates of the file of a unit. -/
def gates (u : SourceUnit) : List Attr := (u.parsed.file.attrs.map Attr.printed).filter Attr.isGate

/-- Whether a type is marked that the file of a unit declares itself, and not in a module. -/
def declaresMarked (u : SourceUnit) (m : Model) : Bool :=
  u.parsed.file.items.any (m.isMarked u.modulePath u.parsed.file.items)

end SourceUnit

/-- Only the root of a crate has its gates carried along. -/
lemma SourceModule.mem_carried_of_isGate {M : SourceModule} {a : Attr} (gate : a.isGate = true) :
    a ∈ M.carried ↔ M.path = [] ∧ a ∈ M.attrs.map Attr.printed := by
  rw [Attr.isGate, Bool.and_eq_true] at gate
  obtain ⟨inner, named⟩ := gate
  -- a gate does not have the name of the attribute that is carried along from everywhere
  have notAllow : a.isNamed "allow" = false := by
    refine Bool.eq_false_iff.mpr fun allow => ?_
    obtain ⟨name, known, isName⟩ := List.any_eq_true.mp named
    have same : (⟨false, ["allow"]⟩ : NamePath) = ⟨false, [name]⟩ := (eq_of_beq allow).symm.trans (eq_of_beq isName)
    cases same
    exact absurd known (by decide)
  rw [carried, carriedAttributes, List.mem_filter, inner, notAllow, named]
  simp only [Bool.true_and, Bool.false_or, Bool.and_true, List.isEmpty_iff, and_comm]

lemma Item.modulesAll_append (path : List String) (is js : List Item) :
    Item.modulesAll path (is ++ js) = Item.modulesAll path is ++ Item.modulesAll path js := by
  induction is with
  | nil => rfl
  | cons i is ih => rw [List.cons_append, Item.modulesAll, Item.modulesAll, ih, List.append_assoc]

lemma Item.modulesAll_of_plain {is : List Item} (plain : ∀ i ∈ is, i.moduleBody? = none) (path : List String) :
    Item.modulesAll path is = [] := by
  induction is with
  | nil => rfl
  | cons i is ih =>
    have first : i.modules path = [] := by
      have notModule := plain i List.mem_cons_self
      obtain ⟨attrs, vis, decl⟩ := i
      cases decl with
      | module _ _ inner =>
        cases inner with
        | none => rfl
        | some inner => cases notModule
      | _ => rfl
    rw [Item.modulesAll, first, ih fun j hj => plain j (List.mem_cons_of_mem i hj)]
    rfl

namespace Assembly

open ModuleTree

variable {fs : List Fragment} {g : GlobalImports} {m : Model}

/-! ### Imports -/

/-- Besides the global ones in their module, no import is among what a crate adds. -/
lemma mem_addedAt_of_isImport {i : Item} (isImport : i.isImport = true) (t : ModuleTree) (path : List String) :
    i ∈ addedAt t g path ↔ path = [contextModule] ∧ i ∈ g.imports := by
  unfold addedAt
  split
  case h_1 =>
    refine iff_of_false (fun there => ?_) fun own => absurd own.1 (List.cons_ne_nil contextModule []).symm
    simp only [List.mem_cons, List.not_mem_nil, or_false] at there
    obtain rfl | rfl | rfl := there <;> cases isImport
  case h_2 name =>
    split
    case isTrue eq => exact ⟨fun there => ⟨by rw [eq], there⟩, And.right⟩
    case isFalse other => exact iff_of_false List.not_mem_nil fun eq => other (List.cons.inj eq.1).1
  case h_3 _ _ other => exact iff_of_false List.not_mem_nil fun eq => other _ eq.1

/-- What follows the imports of a module are types, implementations, a function and modules. -/
lemma mem_items_of_isImport {i : Item} (isImport : i.isImport = true) {t : ModuleTree}
    (own : ∀ j ∈ t.content.items, j.declaresType = true ∨ j.isImpl = true) :
    i ∈ items t ↔ i = contextImport ∨ i ∈ t.content.imports := by
  obtain ⟨-, notType, notImpl⟩ := Item.spec_of_isImport isImport
  have notItem : i ∉ t.content.items := by
    intro there
    obtain type | impl := own i there
    · cases notType.symm.trans type
    · cases notImpl.symm.trans impl
  have notOffer : i ∉ if t.content.offers.isEmpty then [] else [offerItem t.content.offers] := by
    intro there
    split at there
    case isTrue => exact absurd there List.not_mem_nil
    case isFalse =>
      obtain rfl := List.mem_singleton.mp there
      cases isImport
  have notModule : i ∉ moduleItems t.children := by
    intro there
    rw [moduleItems_eq] at there
    obtain ⟨child, -, rfl⟩ := List.mem_map.mp there
    cases isImport
  rw [items_eq, List.mem_append, List.mem_append, List.mem_append, or_iff_left (not_or_intro notOffer notModule),
    or_iff_left notItem, List.mem_cons]

/-- The imports in a module of a crate: the one of the context module, those of the fragments of the path, and in the
context module the global ones. -/
lemma mem_itemsAt_of_isImport (collected : ∀ f ∈ fs, f.Collected) (imports : ∀ i ∈ g.imports, i.isImport = true)
    (path : List String) {i : Item} (isImport : i.isImport = true) :
    i ∈ Item.itemsAt path (file (.ofFragments fs) g).items ↔
      (i = contextImport ∧ ((ofFragments fs).at? path).isSome = true) ∨
        i ∈ ((ofFragments fs).contentAt path).imports ∨ (path = [contextModule] ∧ i ∈ g.imports) := by
  have content := contentAt_ofFragments fs path
  rw [itemsAt_file collected imports path, List.mem_append, mem_addedAt_of_isImport isImport, ← or_assoc]
  apply or_congr_left
  cases found : (ofFragments fs).at? path with
  | none =>
    rw [contentAt, found]
    exact iff_of_false List.not_mem_nil fun there =>
      there.elim (fun own => Bool.false_ne_true own.2) (absurd · List.not_mem_nil)
  | some t =>
    have here : (ofFragments fs).contentAt path = t.content := by rw [contentAt, found]; rfl
    have collected_at : ∀ f ∈ fragmentsAt fs path, f.Collected := fun f hf => collected f (List.mem_filter.mp hf).1
    have own (j : Item) (hj : j ∈ t.content.items) : j.declaresType = true ∨ j.isImpl = true := by
      rw [← here, content] at hj
      exact (isSimple_of_mem_items collected_at hj).2
    rw [Option.map_some, Option.getD_some, mem_items_of_isImport isImport own, here]
    exact or_congr_left (and_iff_left rfl).symm

lemma collected_ofModel (m : Model) : ∀ f ∈ Fragment.ofModel m, f.Collected := by
  intro f hf
  obtain ⟨⟨u, index⟩, -, hf⟩ := List.mem_flatMap.mp hf
  exact Fragment.collected_of_mem_ofUnit hf

/-- A module of the crate has the imports of the modules of its path that declare a fragment. -/
lemma mem_imports_contentAt (m : Model) (path : List String) {i : Item} :
    i ∈ ((ofFragments (Fragment.ofModel m)).contentAt path).imports ↔
      ∃ M ∈ m.program.modules, M.hasMarked m = true ∧ M.path = path ∧ i ∈ M.imports := by
  rw [contentAt_ofFragments, ModuleContent.mem_imports_addAll]
  simp only [List.mem_filter, decide_eq_true_eq, and_assoc]
  exact (or_iff_right List.not_mem_nil).trans
    (Fragment.exists_mem_ofModel_iff fun modulePath imports _ => modulePath = path ∧ i ∈ imports)

/-- A module of the crate has the attributes of the modules of its path that declare a fragment. -/
lemma mem_innerAttrs_contentAt (m : Model) (path : List String) {a : Attr} :
    a ∈ ((ofFragments (Fragment.ofModel m)).contentAt path).innerAttrs ↔
      ∃ M ∈ m.program.modules, M.hasMarked m = true ∧ M.path = path ∧ a ∈ M.carried := by
  rw [contentAt_ofFragments, ModuleContent.mem_innerAttrs_addAll]
  simp only [List.mem_filter, decide_eq_true_eq, and_assoc]
  exact (or_iff_right List.not_mem_nil).trans
    (Fragment.exists_mem_ofModel_iff fun modulePath _ attrs => modulePath = path ∧ a ∈ attrs)

/-- The crate of a program. -/
def crateOf (m : Model) : SourceFile :=
  file (.ofFragments (Fragment.ofModel m)) (.ofProgram m.program)

/-- A module of a crate imports the context, what the modules of its path import that declare a marked type themselves,
and if it is the context module the global imports. So the module that declares a fragment keeps all of its imports, and
one around it keeps those only that are there for one of these reasons. -/
theorem imports_kept_iff (m : Model) :
    let globals := (GlobalImports.ofProgram m.program).imports
    let items := (crateOf m).items
    (∀ path i, i.isImport = true → (i ∈ Item.itemsAt path items ↔
        (i = contextImport ∧ (path = [] ∨ ∃ f ∈ Fragment.ofModel m, path <+: f.modulePath)) ∨
          (∃ M ∈ m.program.modules, M.hasMarked m = true ∧ M.path = path ∧ i ∈ M.imports) ∨
            (path = [contextModule] ∧ i ∈ globals))) ∧
      ∀ u index, (u, index) ∈ m.program.units.zipIdx → ∀ f ∈ Fragment.ofUnit m index u, ∃ N ∈ u.modules,
        f ∈ N.fragments m index u.path ∧ (∀ i ∈ N.imports, i ∈ Item.itemsAt N.path items) ∧
          ∀ M ∈ u.modules, M.Encloses N → ∀ i ∈ M.imports, (i ∈ Item.itemsAt M.path items ↔
            i = contextImport ∨ (∃ K ∈ m.program.modules, K.hasMarked m = true ∧ K.path = M.path ∧ i ∈ K.imports) ∨
              (M.path = [contextModule] ∧ i ∈ globals)) := by
  intro globals items
  have all (path : List String) (i : Item) (isImport : i.isImport = true) : i ∈ Item.itemsAt path items ↔
      (i = contextImport ∧ (path = [] ∨ ∃ f ∈ Fragment.ofModel m, path <+: f.modulePath)) ∨
        (∃ M ∈ m.program.modules, M.hasMarked m = true ∧ M.path = path ∧ i ∈ M.imports) ∨
          (path = [contextModule] ∧ i ∈ globals) := by
    have imports : ∀ j ∈ globals, j.isImport = true :=
      fun j hj => Item.isImport_of_isGlobalImport (GlobalImports.mem_ofProgram.mp hj).1
    rw [← isSome_at?_ofFragments, ← mem_imports_contentAt]
    exact mem_itemsAt_of_isImport (collected_ofModel m) imports path isImport
  refine ⟨all, fun u index hu f hf => ?_⟩
  obtain ⟨N, hN, declares⟩ := Fragment.mem_ofUnit_iff.mp hf
  obtain ⟨marked, path, -, -⟩ := Fragment.spec_of_mem_fragments declares
  have inProgram (M : SourceModule) (hM : M ∈ u.modules) : M ∈ m.program.modules :=
    List.mem_flatMap.mpr ⟨u, List.fst_mem_of_mem_zipIdx hu, hM⟩
  refine ⟨N, hN, declares, fun i hi => ?_, fun M hM around i hi => ?_⟩
  · have isImport : i.isImport = true := (List.mem_filter.mp hi).2
    rw [all N.path i isImport]
    exact .inr (.inl ⟨N, inProgram N hN, marked, rfl, hi⟩)
  · have isImport : i.isImport = true := (List.mem_filter.mp hi).2
    -- the modules around a fragment are all there, so they all import the context
    have there : M.path = [] ∨ ∃ f ∈ Fragment.ofModel m, M.path <+: f.modulePath :=
      .inr ⟨f, List.mem_flatMap.mpr ⟨(u, index), hu, hf⟩, path ▸ around.path⟩
    rw [all M.path i isImport, and_iff_left there]

/-- The crate of a fragment in a module does not have the import around that module. -/
theorem not_imports_kept_aroundModule :
    let text := "use std::fmt;\nmod a \x7b\nuse super::*;\n#[microgen_sdk::micro_generator]\n" ++
      "pub struct G(fmt::Error);\n\x7d\n"
    let fmt : Item := .mk [] .inherited (.useDecl false (.step "std" (.leaf "fmt")))
    ∃ m u M N, Model.ofText? text = some m ∧ m.program.units = [u] ∧ u.modules = [M, N] ∧ M.Encloses N ∧
      (N.fragments m 0 u.path).map (·.path) = ["a::G"] ∧ fmt ∈ M.imports ∧
        fmt ∉ Item.itemsAt M.path (crateOf m).items := by
  intro text fmt
  let around (u : SourceUnit) : SourceModule := ⟨u.modulePath, u.parsed.file.attrs, u.parsed.file.items⟩
  let inside (u : SourceUnit) := Item.modulesAll u.modulePath u.parsed.file.items
  obtain ⟨m, u, built, units, computed⟩ : ∃ m u, Model.ofText? text = some m ∧ m.program.units = [u] ∧
      ((inside u).length == 1 && (inside u).all (fun N => (N.fragments m 0 u.path).map (·.path) == ["a::G"]) &&
        (around u).imports.contains fmt && !(Item.itemsAt u.modulePath (crateOf m).items).contains fmt) = true :=
    Model.exists_of_ofText? (by decide +kernel)
  simp only [Bool.and_eq_true, beq_iff_eq, List.all_eq_true, List.contains_eq_mem, decide_eq_true_eq,
    Bool.not_eq_true', decide_eq_false_iff_not] at computed
  obtain ⟨⟨⟨one, declares⟩, imported⟩, missing⟩ := computed
  obtain ⟨N, only⟩ := List.length_eq_one_iff.mp one
  have isInside : N ∈ inside u := only ▸ List.mem_singleton_self N
  exact ⟨m, u, around u, N, built, units, congrArg (around u :: ·) only, .inr isInside, declares N isInside, imported,
    missing⟩

/-! ### Attributes -/

lemma mem_modulesAll_moduleItems {path : List String} {ms : List ModuleTree} {N : SourceModule} :
    N ∈ Item.modulesAll path (moduleItems ms) ↔ ∃ c ∈ ms, N = ⟨path ++ [c.name], c.content.innerAttrs, items c⟩ ∨
      N ∈ Item.modulesAll (path ++ [c.name]) (items c) := by
  induction ms with
  | nil => exact iff_of_false List.not_mem_nil fun ⟨c, hc, _⟩ => List.not_mem_nil hc
  | cons c ms ih =>
    rw [moduleItems, Item.modulesAll, Item.modules, List.mem_append, List.mem_cons, ih, List.exists_mem_cons_iff]

/-- The attributes of the modules of a tree are those that their fragments carry along. -/
lemma attrs_of_mem_modulesAll {t : ModuleTree} (ordered : t.Ordered)
    (plain : ∀ path, ∀ i ∈ contentItems (t.contentAt path), i.moduleBody? = none) {path : List String}
    {N : SourceModule} (there : N ∈ Item.modulesAll path (items t)) : ∃ q ≠ [], N.attrs = (t.contentAt q).innerAttrs := by
  induction ordered generalizing path with
  | @mk name content children sorted below ih =>
    have content_at {c : ModuleTree} (hc : c ∈ children) (q : List String) :
        (ModuleTree.mk name content children).contentAt (c.name :: q) = c.contentAt q := by
      rw [contentAt, at?_of_mem sorted hc]
      rfl
    have own : Item.modulesAll path (contentItems content) = [] := Item.modulesAll_of_plain (plain []) path
    rw [items, Item.modulesAll_append, own, List.nil_append, mem_modulesAll_moduleItems] at there
    obtain ⟨c, hc, rfl | inside⟩ := there
    · exact ⟨[c.name], List.cons_ne_nil _ _, by rw [content_at hc]; rfl⟩
    · obtain ⟨q, -, attrs⟩ := ih c hc (fun q i hi => plain (c.name :: q) i (content_at hc q ▸ hi)) inside
      exact ⟨c.name :: q, List.cons_ne_nil _ _, by rw [content_at hc, attrs]⟩

/-- A module of a crate below its root is the hidden one of the global imports, or it has the attributes that the
fragments of some path carry along. -/
lemma attrs_of_mem_modules {N : SourceModule} (there : N ∈ (crateOf m).modules []) (below : N.path ≠ []) :
    N.attrs = [hidden] ∨ ∃ q ≠ [], N.attrs = ((ofFragments (Fragment.ofModel m)).contentAt q).innerAttrs := by
  let t := ofFragments (Fragment.ofModel m)
  let g := GlobalImports.ofProgram m.program
  have imports : ∀ i ∈ g.imports, i.moduleBody? = none := fun i hi =>
    (Item.spec_of_isImport (Item.isImport_of_isGlobalImport (GlobalImports.mem_ofProgram.mp hi).1)).1.module
  have plain (q : List String) (i : Item) (hi : i ∈ contentItems (t.contentAt q)) : i.moduleBody? = none := by
    rw [contentAt_ofFragments] at hi
    exact moduleBody?_contentItems (fun f hf => collected_ofModel m f (List.mem_filter.mp hf).1) hi
  have added : Item.modulesAll [] [contextItem g, manifestItem, discoverItem (t.offering [])] =
      [⟨[contextModule], [hidden], g.imports⟩] := by
    change ⟨[contextModule], [hidden], g.imports⟩ :: Item.modulesAll [contextModule] g.imports ++ [] = _
    rw [Item.modulesAll_of_plain imports, List.append_nil]
  change N ∈ _ :: Item.modulesAll [] (items t ++ [contextItem g, manifestItem, discoverItem (t.offering [])]) at there
  rw [Item.modulesAll_append, added, List.mem_cons, List.mem_append, List.mem_singleton] at there
  obtain rfl | inTree | rfl := there
  · exact absurd rfl below
  · exact .inr (attrs_of_mem_modulesAll (ordered_ofFragments _) plain inTree)
  · exact .inl rfl

/-- The content of the root of a crate has the gates of the files at the root of the program that declare a marked type
themselves. -/
lemma gate_mem_innerAttrs_contentAt (m : Model) {a : Attr} (gate : a.isGate = true) :
    a ∈ ((ofFragments (Fragment.ofModel m)).contentAt []).innerAttrs ↔
      ∃ u ∈ m.program.units, u.modulePath = [] ∧ u.declaresMarked m = true ∧ a ∈ u.gates := by
  have own (u : SourceUnit) (path : u.modulePath = []) :
      (⟨[], u.parsed.file.attrs, u.parsed.file.items⟩ : SourceModule).hasMarked m = u.declaresMarked m := by
    rw [SourceUnit.declaresMarked, path]
    rfl
  rw [mem_innerAttrs_contentAt]
  constructor
  · rintro ⟨M, hM, marked, root, carried⟩
    obtain ⟨u, hu, hM⟩ := List.mem_flatMap.mp hM
    obtain ⟨path, rfl⟩ := SourceUnit.eq_of_path_nil hM root
    refine ⟨u, hu, path, own u path ▸ marked, List.mem_filter.mpr ⟨?_, gate⟩⟩
    exact ((SourceModule.mem_carried_of_isGate gate).mp carried).2
  · rintro ⟨u, hu, path, marked, there⟩
    refine ⟨⟨[], u.parsed.file.attrs, u.parsed.file.items⟩, List.mem_flatMap.mpr ⟨u, hu, ?_⟩, (own u path).trans marked,
      rfl, ?_⟩
    · rw [SourceUnit.modules, path]
      exact List.mem_cons_self
    · exact (SourceModule.mem_carried_of_isGate gate).mpr ⟨rfl, (List.mem_filter.mp there).1⟩

/-- The root of a crate has the gates of the files at the root of the program, each once, but of those files only that
declare a marked type themselves. Its other modules have no gates. -/
theorem gates_iff (m : Model) :
    let crate := crateOf m
    let roots := m.program.units.filter (·.modulePath = [])
    (∀ a, a.isGate = true → (a ∈ crate.attrs ↔ ∃ u ∈ roots, u.declaresMarked m = true ∧ a ∈ u.gates)) ∧
      (∀ a, a.isGate = true → crate.attrs.count a ≤ 1) ∧
      (∀ N ∈ crate.modules [], N.path ≠ [] → ∀ a ∈ N.attrs, a.isGate = false) ∧
      ((∀ u ∈ roots, ∀ a ∈ u.gates, crate.attrs.count a = 1) ↔
        ∀ u ∈ roots, ∀ a ∈ u.gates, ∃ v ∈ roots, v.declaresMarked m = true ∧ a ∈ v.gates) := by
  intro crate roots
  let content := (ofFragments (Fragment.ofModel m)).contentAt []
  have other {a : Attr} (gate : a.isGate = true) : a ∉ [admittedLints] := by
    rintro there
    rw [List.mem_singleton.mp there] at gate
    cases gate
  have there (a : Attr) (gate : a.isGate = true) :
      a ∈ crate.attrs ↔ ∃ u ∈ roots, u.declaresMarked m = true ∧ a ∈ u.gates := by
    change a ∈ content.innerAttrs ++ [admittedLints] ↔ _
    rw [List.mem_append, or_iff_left (other gate), gate_mem_innerAttrs_contentAt m gate]
    simp only [roots, List.mem_filter, decide_eq_true_eq, and_assoc]
  have once (a : Attr) (gate : a.isGate = true) : crate.attrs.count a ≤ 1 := by
    have nodup : content.innerAttrs.Nodup := by
      change ((ofFragments (Fragment.ofModel m)).contentAt []).innerAttrs.Nodup
      rw [contentAt_ofFragments]
      exact ModuleContent.nodup_innerAttrs_addAll List.nodup_nil
    change (content.innerAttrs ++ [admittedLints]).count a ≤ 1
    rw [List.count_append, List.count_eq_zero_of_not_mem (other gate), Nat.add_zero]
    exact List.nodup_iff_count_le_one.mp nodup a
  refine ⟨there, once, fun N hN below a ha => ?_, ?_⟩
  · -- a gate below the root would have been carried along by a module below a root
    refine Bool.eq_false_iff.mpr fun gate => ?_
    obtain hiddenOnly | ⟨q, inner, attrs⟩ := attrs_of_mem_modules hN below
    · rw [hiddenOnly] at ha
      rw [List.mem_singleton.mp ha] at gate
      cases gate
    · rw [attrs, mem_innerAttrs_contentAt] at ha
      obtain ⟨M, -, -, path, carried⟩ := ha
      exact inner (path ▸ ((SourceModule.mem_carried_of_isGate gate).mp carried).1)
  · refine forall₂_congr fun u _ => forall₂_congr fun a ha => ?_
    have gate : a.isGate = true := (List.mem_filter.mp ha).2
    rw [← there a gate, ← List.count_pos_iff]
    have atMostOnce := once a gate
    omega

/-- The crate of a fragment in a module does not have the feature gate of the file around that module. -/
theorem not_gates_aroundModule :
    let text := "#![feature(never_type)]\npub mod a \x7b\n#[microgen_sdk::micro_generator]\npub struct G;\n\x7d\n"
    let gate := Attr.ofNames true "feature" ["never_type"]
    ∃ m u, Model.ofText? text = some m ∧ m.program.units = [u] ∧ u.modulePath = [] ∧ u.gates = [gate] ∧
      (Fragment.ofModel m).map (·.path) = ["a::G"] ∧ (crateOf m).attrs.count gate = 0 := by
  intro text gate
  obtain ⟨m, u, built, units, computed⟩ : ∃ m u, Model.ofText? text = some m ∧ m.program.units = [u] ∧
      (u.modulePath == [] && u.gates == [gate] && (Fragment.ofModel m).map (·.path) == ["a::G"] &&
        (crateOf m).attrs.count gate == 0) = true :=
    Model.exists_of_ofText? (by decide +kernel)
  simp only [Bool.and_eq_true, beq_iff_eq] at computed
  obtain ⟨⟨⟨path, gates⟩, declares⟩, missing⟩ := computed
  exact ⟨m, u, built, units, path, gates, declares, missing⟩

end Assembly

end SourceGen
