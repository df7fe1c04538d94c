import Mathlib.Data.List.Chain
import Mathlib.Data.List.Nodup
import Mathlib.Data.List.Pairwise
import Mathlib.Data.String.Basic
import SourceGen.Proofs.GlobalImports
import SourceGen.Proofs.Sorting

/-!
# Names that global imports bind twice

Global imports of all modules meet in one module. Equal ones are kept once, but two of them also clash if they bind the
same name and differ in anything else: in the path behind the name, in the visibility or in how they are grouped. If
the modules of a program bind every name once, clashes like these between imports of different modules are the reason
that the global imports do not, besides imports outside of modules that repeat a name themselves, and imports that are
met on both sides of a different one with the same tokens (`GlobalImports.bindOnce_iff_of_bindsOnce`). They do occur
(`GlobalImports.not_bindOnce_twoVisibilities`).
-/

namespace SourceGen

open SourceGen.Text

namespace Item

/-- The names that a `use` declaration binds. -/
def boundNames (i : Item) : List String :=
  match i.decl with
  | .useDecl _ tree => (tree.bindings.filter fun b => !b.glob && b.name != "_").map (·.name)
  | _ => []

/-- Whether the `use` declarations among items bind every name at most once. -/
def BindOnce (is : List Item) : Prop := (is.flatMap boundNames).Nodup

instance (is : List Item) : Decidable (BindOnce is) := inferInstanceAs (Decidable (List.Nodup _))

lemma boundNames_printed (i : Item) : i.printed.boundNames = i.boundNames := by
  obtain ⟨attrs, vis, decl⟩ := i
  cases decl with
  | module _ _ items => cases items <;> rfl
  | _ => rfl

/-- Items bind every name once if each of them does so, any two different ones have no name in common, and one that
binds a name is not repeated. -/
lemma bindOnce_iff {is : List Item} :
    BindOnce is ↔ (∀ i ∈ is, BindOnce [i]) ∧
      (∀ i ∈ is, ∀ j ∈ is, i ≠ j → i.boundNames.Disjoint j.boundNames) ∧
      ∀ i ∈ is, i.boundNames ≠ [] → is.count i = 1 := by
  have single (i : Item) : BindOnce [i] ↔ i.boundNames.Nodup := by
    rw [BindOnce, List.flatMap_singleton]
  have repeated {i : Item} {n : Nat} : (List.replicate n i).Sublist is ↔ n ≤ is.count i := List.replicate_sublist_iff
  rw [BindOnce, List.nodup_flatMap]
  refine and_congr (forall₂_congr fun i _ => (single i).symm)
    ⟨fun apart => ⟨fun i hi j hj => ?_, fun i hi names => ?_⟩, ?_⟩
  · have symm : Std.Symm (Function.onFun List.Disjoint boundNames) := ⟨fun _ _ => List.disjoint_symm⟩
    exact apart.forall hi hj
  · refine le_antisymm (Nat.le_of_lt_succ (Nat.lt_of_not_le fun twice => ?_)) (List.count_pos_iff.mpr hi)
    have self : i.boundNames.Disjoint i.boundNames := List.pairwise_iff_forall_sublist.mp apart (repeated.mpr twice)
    exact names (List.eq_nil_iff_forall_not_mem.mpr fun name there => self there there)
  · rintro ⟨apart, once⟩
    refine List.pairwise_iff_forall_sublist.mpr fun {i j} two => ?_
    have hi : i ∈ is := two.subset List.mem_cons_self
    have hj : j ∈ is := two.subset (List.mem_cons_of_mem _ List.mem_cons_self)
    by_cases same : i = j
    · subst same
      have twice : 2 ≤ is.count i := repeated.mp two
      have none : i.boundNames = [] := by
        by_contra names
        exact absurd (once i hi names) (by omega)
      change i.boundNames.Disjoint i.boundNames
      rw [none]
      exact List.disjoint_nil_left _
    · exact apart i hi j hj same

end Item

/-- Whether the `use` declarations of each module that a walk meets bind every name at most once. -/
def Program.BindsOnce (p : Program) : Prop :=
  ∀ u ∈ p.units, ∀ x ∈ u.sightings, Item.BindOnce x.scope.imports

instance (p : Program) : Decidable p.BindsOnce := inferInstanceAs (Decidable (∀ u ∈ p.units, _))

/-- Whether printed items are imports of one module that a walk meets. -/
def Program.ImportsTogether (p : Program) (i j : Item) : Prop :=
  ∃ u ∈ p.units, ∃ x ∈ u.sightings, i ∈ x.scope.imports.map Item.printed ∧ j ∈ x.scope.imports.map Item.printed

/-- Imports of one module that binds every name once do so each by itself, and have no name in common. -/
lemma Program.BindsOnce.together {p : Program} (host : p.BindsOnce) {i j : Item} (together : p.ImportsTogether i j) :
    Item.BindOnce [i] ∧ (i ≠ j → i.boundNames.Disjoint j.boundNames) := by
  obtain ⟨u, hu, x, hx, hi, hj⟩ := together
  obtain ⟨a, ha, rfl⟩ := List.mem_map.mp hi
  obtain ⟨b, hb, rfl⟩ := List.mem_map.mp hj
  obtain ⟨single, apart, -⟩ := Item.bindOnce_iff.mp (host u hu x hx)
  have once := single a ha
  rw [Item.BindOnce, List.flatMap_singleton] at once ⊢
  rw [a.boundNames_printed, b.boundNames_printed]
  exact ⟨once, fun other => apart a ha b hb fun eq => other (congrArg Item.printed eq)⟩

namespace GlobalImports

/-! ### Repetitions -/

lemma dedup_sublist (is : List Item) : (dedup is).Sublist is := by
  induction is with
  | nil => exact .slnil
  | cons i is ih =>
    rw [dedup]
    split
    case h_1 empty => exact .cons_cons i (List.nil_sublist is)
    case h_2 j js rest =>
      rw [rest] at ih
      split
      case isTrue same => exact .cons_cons i ((List.sublist_cons_self j js).trans ih)
      case isFalse => exact .cons_cons i ih

/-- No item of the set equals its predecessor. -/
lemma isChain_dedup (is : List Item) : (dedup is).IsChain (· ≠ ·) := by
  induction is with
  | nil => exact .nil
  | cons i is ih =>
    rw [dedup]
    split
    case h_1 empty => exact .singleton i
    case h_2 j js rest =>
      rw [rest] at ih
      split
      case isTrue same => exact eq_of_beq same ▸ ih
      case isFalse other => exact .cons_cons (fun eq => other (beq_iff_eq.mpr eq)) ih

/-- A row without equal neighbours that is in some items is also in what is left of them. -/
lemma sublist_dedup {is row : List Item} (chain : row.IsChain (· ≠ ·)) (inside : row.Sublist is) :
    row.Sublist (dedup is) := by
  induction inside with
  | slnil => exact .slnil
  | @cons row is i inside ih =>
    have shorter : (dedup is).Sublist (dedup (i :: is)) := by
      rw [dedup]
      split
      case h_1 empty => exact empty ▸ List.nil_sublist _
      case h_2 j js rest =>
        rw [rest]
        split
        case isTrue same => exact eq_of_beq same ▸ .refl _
        case isFalse => exact List.sublist_cons_self i _
    exact (ih chain).trans shorter
  | @cons_cons row is i inside ih =>
    have ih := ih chain.tail
    rw [dedup]
    split
    case h_1 empty =>
      rw [empty] at ih
      exact ih.cons_cons i
    case h_2 j js rest =>
      rw [rest] at ih
      split
      case isTrue same =>
        obtain rfl := eq_of_beq same
        -- the row goes on with another item, which stands behind the first one of what is left
        cases ih with
        | cons _ ih => exact ih.cons_cons i
        | cons_cons _ ih => exact absurd rfl (List.isChain_cons_cons.mp chain).1
      case isFalse => exact ih.cons_cons i

/-- What occurs twice in a row without equal neighbours has a different item in between. -/
lemma exists_between_of_one_lt_count {is : List Item} (chain : is.IsChain (· ≠ ·)) {i : Item}
    (repeated : 1 < is.count i) : ∃ j, j ≠ i ∧ [i, j, i].Sublist is := by
  induction is with
  | nil => cases repeated
  | cons k ks ih =>
    by_cases here : k = i
    · subst here
      rw [List.count_cons_self, Nat.lt_add_left_iff_pos] at repeated
      have again : k ∈ ks := List.count_pos_iff.mp repeated
      cases ks with
      | nil => cases again
      | cons j js =>
        -- the neighbour is another one, and the second one of the two comes later
        have other : k ≠ j := (List.isChain_cons_cons.mp chain).1
        have later : k ∈ js := (List.mem_cons.mp again).resolve_left other
        exact ⟨j, other.symm, ((List.singleton_sublist.mpr later).cons_cons j).cons_cons k⟩
    · rw [List.count_cons_of_ne here] at repeated
      obtain ⟨j, other, inside⟩ := ih chain.tail repeated
      exact ⟨j, other, inside.cons k⟩

/-- Whether an item may come before another one in the order of their tokens. -/
def textLe (i j : Item) : Bool := !(j.text < i.text)

lemma textLe_iff {i j : Item} : textLe i j = true ↔ i.text ≤ j.text := keyLe_iff Item.text

lemma textLe_trans : ∀ i j k : Item, textLe i j = true → textLe j k = true → textLe i k = true := keyLe_trans Item.text

lemma textLe_total : ∀ i j : Item, (textLe i j || textLe j i) = true := keyLe_total Item.text

/-- The text beside an item is only there to be computed once. -/
lemma ofItems_eq (items : List Item) : ofItems items = ⟨dedup (items.mergeSort textLe)⟩ := by
  have keyed : (items.mergeSort textLe).map (fun i => (i.text, i)) =
      (items.map fun i => (i.text, i)).mergeSort fun a b => !(b.1 < a.1) :=
    List.map_mergeSort fun _ _ _ _ => rfl
  rw [ofItems, ← keyed, List.map_map]
  exact congrArg (fun is => GlobalImports.mk (dedup is)) (List.map_id _)

lemma pairwise_mergeSort_textLe (items : List Item) :
    (items.mergeSort textLe).Pairwise fun i j => i.text ≤ j.text := pairwise_mergeSort Item.text items

/-- The set is sorted by the tokens of the imports. -/
lemma pairwise_ofItems (items : List Item) : (ofItems items).imports.Pairwise fun i j => i.text ≤ j.text := by
  rw [ofItems_eq]
  exact (pairwise_mergeSort_textLe items).sublist (dedup_sublist _)

/-- The items with given tokens. -/
def withText (t : String) (is : List Item) : List Item := is.filter fun i => i.text == t

lemma mem_withText {t : String} {is : List Item} {i : Item} : i ∈ withText t is ↔ i ∈ is ∧ i.text = t := by
  rw [withText, List.mem_filter, beq_iff_eq]

lemma withText_cons_of_eq {t : String} {i : Item} (same : i.text = t) (is : List Item) :
    withText t (i :: is) = i :: withText t is :=
  List.filter_cons_of_pos (beq_iff_eq.mpr same)

lemma withText_cons_of_ne {t : String} {i : Item} (other : i.text ≠ t) (is : List Item) :
    withText t (i :: is) = withText t is :=
  List.filter_cons_of_neg fun same => other (beq_iff_eq.mp same)

/-- Sorting leaves items with the same tokens in their order. -/
lemma withText_mergeSort (t : String) (is : List Item) : withText t (is.mergeSort textLe) = withText t is := by
  have same : (withText t is).Pairwise fun i j => textLe i j = true :=
    List.pairwise_of_forall_mem_list fun i hi j hj =>
      textLe_iff.mpr (((mem_withText.mp hi).2.trans (mem_withText.mp hj).2.symm).le)
  have kept : (withText t is).Sublist (is.mergeSort textLe) :=
    List.sublist_mergeSort textLe_trans textLe_total same List.filter_sublist
  have inside : (withText t is).Sublist (withText t (is.mergeSort textLe)) := by
    have again := kept.filter fun i => i.text == t
    simp only [withText, List.filter_filter, Bool.and_self] at again
    exact again
  exact (inside.eq_of_length ((List.mergeSort_perm is textLe).filter _).length_eq.symm).symm

/-- An import is repeated in the set exactly if it is given on both sides of a different one with the same tokens. -/
lemma one_lt_count_ofItems {is : List Item} {i : Item} :
    1 < (ofItems is).imports.count i ↔ ∃ j, j ≠ i ∧ j.text = i.text ∧ [i, j, i].Sublist is := by
  constructor
  · intro repeated
    have chain : (ofItems is).imports.IsChain (· ≠ ·) := isChain_dedup _
    obtain ⟨j, other, inside⟩ := exists_between_of_one_lt_count chain repeated
    have ordered := (pairwise_ofItems is).sublist inside
    simp only [List.pairwise_cons, List.mem_cons, List.not_mem_nil, or_false, forall_eq_or_imp, forall_eq] at ordered
    have same : j.text = i.text := ordered.2.1.antisymm ordered.1.1
    refine ⟨j, other, same, ?_⟩
    have own : withText i.text [i, j, i] = [i, j, i] := by simp [withText, same]
    rw [ofItems_eq] at inside
    have sorted : (withText i.text [i, j, i]).Sublist (withText i.text (is.mergeSort textLe)) :=
      (inside.trans (dedup_sublist _)).filter _
    rw [own, withText_mergeSort] at sorted
    exact sorted.trans List.filter_sublist
  · rintro ⟨j, other, same, inside⟩
    have sorted : [i, j, i].Pairwise fun a b => textLe a b = true := by
      simp [textLe_iff, same]
    have chain : [i, j, i].IsChain (· ≠ ·) := by
      simp [other, other.symm]
    have kept := sublist_dedup chain (List.sublist_mergeSort textLe_trans textLe_total sorted inside)
    rw [ofItems_eq]
    have two : 2 ≤ [i, j, i].count i := by simp [other]
    exact two.trans (kept.count_le i)

/-! ### Clashes -/

/-- The global imports that a walk meets in a program, before they are sorted. -/
def unsorted (p : Program) : List Item :=
  (p.units.flatMap (·.sightings.map (·.item.printed))).filter Item.isGlobalImport

/-- Suppose that the modules of a program bind every name once. Then the global imports do so exactly if those that a
walk meets and that are no imports of a module do so each by itself, any two different ones that are not imports of one
module have no name in common, and none that binds a name is met on both sides of a different one with the same tokens.
Imports of one module never clash, and the set repeats an import only around a different one with the same tokens. -/
theorem bindOnce_iff_of_bindsOnce (p : Program) (host : p.BindsOnce) :
    let imports := (ofProgram p).imports
    (Item.BindOnce imports ↔
        (∀ i ∈ unsorted p, ¬ p.ImportsTogether i i → Item.BindOnce [i]) ∧
        (∀ i ∈ unsorted p, ∀ j ∈ unsorted p, i ≠ j → ¬ p.ImportsTogether i j → i.boundNames.Disjoint j.boundNames) ∧
        ∀ i j, j ≠ i → j.text = i.text → [i, j, i].Sublist (unsorted p) → i.boundNames = []) ∧
      (∀ i j, p.ImportsTogether i j → Item.BindOnce [i] ∧ (i ≠ j → i.boundNames.Disjoint j.boundNames)) ∧
      ∀ i ∈ imports, 1 < imports.count i → ∃ j ∈ imports, j ≠ i ∧ j.text = i.text := by
  intro imports
  have met (i : Item) : i ∈ imports ↔ i ∈ unsorted p := mem_ofItems
  have repeated (i : Item) : 1 < imports.count i ↔ ∃ j, j ≠ i ∧ j.text = i.text ∧ [i, j, i].Sublist (unsorted p) :=
    one_lt_count_ofItems
  refine ⟨?_, fun i j => host.together, fun i _ twice => ?_⟩
  · rw [Item.bindOnce_iff]
    constructor
    · rintro ⟨single, apart, once⟩
      refine ⟨fun i hi _ => single i ((met i).mpr hi),
        fun i hi j hj other _ => apart i ((met i).mpr hi) j ((met j).mpr hj) other, fun i j other same inside => ?_⟩
      by_contra names
      have one := once i ((met i).mpr (inside.subset List.mem_cons_self)) names
      exact absurd ((repeated i).mpr ⟨j, other, same, inside⟩) (by omega)
    · rintro ⟨single, apart, once⟩
      refine ⟨fun i hi => ?_, fun i hi j hj other => ?_, fun i hi names => ?_⟩
      · by_cases module : p.ImportsTogether i i
        · exact (host.together module).1
        · exact single i ((met i).mp hi) module
      · by_cases module : p.ImportsTogether i j
        · exact (host.together module).2 other
        · exact apart i ((met i).mp hi) j ((met j).mp hj) other module
      · refine le_antisymm (Nat.le_of_not_lt fun twice => ?_) (List.count_pos_iff.mpr hi)
        obtain ⟨j, other, same, inside⟩ := (repeated i).mp twice
        exact names (once i j other same inside)
  · obtain ⟨j, other, same, inside⟩ := (repeated i).mp twice
    exact ⟨j, (met j).mpr (inside.subset (by simp)), other, same⟩

/-- Imports that are met in the order of their tokens need not be sorted. -/
lemma imports_of_sorted {p : Program} (sorted : (unsorted p).Pairwise fun i j => textLe i j = true) :
    (ofProgram p).imports = dedup (unsorted p) := by
  change (ofItems (unsorted p)).imports = _
  rw [ofItems_eq, List.mergeSort_of_pairwise sorted]

/-- What is computed of a program that can be built. -/
lemma exists_ok_of_computed {ε : Type} {build : Except ε Program} {holds : Program → Prop} (isOk : build.isOk = true)
    (computed : ∀ p ∈ build.toOption, holds p) : ∃ p, build = .ok p ∧ holds p := by
  cases build with
  | error e => cases isOk
  | ok p => exact ⟨p, rfl, computed p rfl⟩

/-- A program of one unit of which the global imports are known. -/
lemma exists_of_unsorted (text : String) (items : List Item)
    (built : let build := ((ProgramBuilder.new "host" "/sdk").unit "src/lib.rs" text).build
      build.isOk = true ∧ ∀ p ∈ build.toOption, p.BindsOnce ∧ (unsorted p == items) = true)
    (sorted : items.Pairwise fun i j => textLe i j = true) :
    ∃ p, ((ProgramBuilder.new "host" "/sdk").unit "src/lib.rs" text).build = .ok p ∧ p.BindsOnce ∧
      (ofProgram p).imports = dedup items := by
  obtain ⟨p, ok, host, found⟩ := exists_ok_of_computed built.1 built.2
  obtain rfl := eq_of_beq found
  exact ⟨p, ok, host, imports_of_sorted sorted⟩

/-- Two modules have the same import: it is kept once. -/
theorem bindOnce_sameImport :
    let text := "pub mod a \x7b\npub use std::fmt;\n\x7d\npub mod b \x7b\npub use std::fmt;\n\x7d\n"
    let fmt : Item := .mk [] .pub (.useDecl false (.step "std" (.leaf "fmt")))
    ∃ p, ((ProgramBuilder.new "host" "/sdk").unit "src/lib.rs" text).build = .ok p ∧ p.BindsOnce ∧
      (ofProgram p).imports = [fmt] ∧ Item.BindOnce (ofProgram p).imports := by
  intro text fmt
  obtain ⟨p, built, host, imports⟩ := exists_of_unsorted text [fmt, fmt] (by decide +kernel) (by decide +kernel)
  have imports : (ofProgram p).imports = [fmt] := imports.trans (eq_of_beq (by decide +kernel))
  have only (i : Item) (hi : i ∈ unsorted p) : i = fmt := by
    have there : i ∈ (ofProgram p).imports := mem_ofItems.mpr hi
    rw [imports] at there
    exact List.mem_singleton.mp there
  refine ⟨p, built, host, imports, (bindOnce_iff_of_bindsOnce p host).1.mpr
    ⟨fun i hi _ => ?_, fun i hi j hj other _ => ?_, fun i j other _ inside => ?_⟩⟩
  · rw [only i hi]
    decide +kernel
  · exact absurd ((only i hi).trans (only j hj).symm) other
  · have hi := only i (inside.subset List.mem_cons_self)
    have hj := only j (inside.subset (List.mem_cons_of_mem i List.mem_cons_self))
    exact absurd (hj.trans hi.symm) other

/-- Two modules have the same import but for its visibility: both are kept, and they bind the same name. -/
theorem not_bindOnce_twoVisibilities :
    let text := "pub mod a \x7b\npub(crate) use std::fmt;\n\x7d\npub mod b \x7b\npub use std::fmt;\n\x7d\n"
    ∃ p, ((ProgramBuilder.new "host" "/sdk").unit "src/lib.rs" text).build = .ok p ∧ p.BindsOnce ∧
      (ofProgram p).imports.map Item.boundNames = [["fmt"], ["fmt"]] ∧ ¬ Item.BindOnce (ofProgram p).imports := by
  intro text
  let fmt : Decl := .useDecl false (.step "std" (.leaf "fmt"))
  let items : List Item := [.mk [] (.restricted false ⟨false, ["crate"]⟩) fmt, .mk [] .pub fmt]
  obtain ⟨p, built, host, imports⟩ := exists_of_unsorted text items (by decide +kernel) (by decide +kernel)
  refine ⟨p, built, host, ?_⟩
  rw [imports]
  decide +kernel

end GlobalImports

end SourceGen
