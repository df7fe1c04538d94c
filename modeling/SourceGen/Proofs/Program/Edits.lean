import Mathlib.Tactic.Lemma
import SourceGen.Proofs.Pipeline.Stages
import SourceGen.Proofs.Syntax.Printed
import SourceGen.Proofs.View.Walk

/-!
# Edits that leave fragments alone

A fragment carries a marked type, its implementations and the imports of their module, and whether a type is marked
is a matter of these imports. So an item of a file, or of a module in it, can be put in, taken out or replaced without
any trace in the fragments, unless it is an import, has a marked type, or is an implementation for one
(`Fragment.ofUnit_of_edited`). If it also keeps its `use` declarations, if it has any, there is no trace in the global
imports either (`GlobalImports.ofProgram_of_edited`).
-/

namespace SourceGen

/-! ### Edits -/

namespace Model

variable (m : Model)

/-- Whether an item is a type that is marked in the module at a path with given items. The carried attributes of the
module have no say in that. -/
def isMarked (path : List String) (items : List Item) (i : Item) : Bool :=
  i.nominal?.isSome && i.attrs.any fun a => (m.markerOf (.ofItems path items []) a).isSome

mutual

/-- Whether an item of the module at a path is a marked type, or a module that has one at any depth. -/
def hasMarked (path : List String) (items : List Item) : Item → Bool
  | .mk _ _ (.module _ name (some inner)) => anyMarked (path ++ [name]) inner inner
  | i => m.isMarked path items i

/-- Whether one of some items of the module at a path has a marked type. -/
def anyMarked (path : List String) (items : List Item) : List Item → Bool
  | [] => false
  | i :: is => hasMarked path items i || anyMarked path items is

end

/-- Whether an item of the module at a path is nothing to the fragments of the module: it is no import, has no marked
type, and is no implementation for one of the other items. -/
structure Unrelated (path : List String) (items : List Item) (i : Item) : Prop where
  notImport : i.isImport = false
  unmarked : m.hasMarked path items i = false
  notImpl : ∀ j ∈ items, m.isMarked path items j = true → ∀ n ∈ j.nominal?, i.printed.isImplFor n.2.1 = false

instance (path : List String) (items : List Item) (i : Item) : Decidable (m.Unrelated path items i) :=
  decidable_of_iff (i.isImport = false ∧ m.hasMarked path items i = false ∧
      ∀ j ∈ items, m.isMarked path items j = true → ∀ n ∈ j.nominal?, i.printed.isImplFor n.2.1 = false)
    ⟨fun ⟨notImport, unmarked, notImpl⟩ => ⟨notImport, unmarked, notImpl⟩,
      fun ⟨notImport, unmarked, notImpl⟩ => ⟨notImport, unmarked, notImpl⟩⟩

/-- Whether the items of the module at a path differ in one item, of the module itself or of one in it: an item was
put in, taken out or replaced that is nothing to the fragments, and its `use` declarations are still there. An edit
inside a function or another item that is no module replaces that item. -/
inductive Edit : List String → List Item → List Item → Prop
  | splice {path : List String} {before after : List Item} {old new : Option Item}
      (gone : ∀ i ∈ old, m.Unrelated path (before ++ old.toList ++ after) i)
      (come : ∀ i ∈ new, m.Unrelated path (before ++ new.toList ++ after) i)
      (uses : old.toList.flatMap Item.uses = new.toList.flatMap Item.uses) :
      Edit path (before ++ old.toList ++ after) (before ++ new.toList ++ after)
  | inside {path : List String} {before after : List Item} {attrs : List Attr} {vis : Visibility} {isUnsafe : Bool}
      {name : String} {inner inner' : List Item} (edit : Edit (path ++ [name]) inner inner') :
      Edit path (before ++ .mk attrs vis (.module isUnsafe name (some inner)) :: after)
        (before ++ .mk attrs vis (.module isUnsafe name (some inner')) :: after)

end Model

/-- Whether units differ in one item. -/
structure SourceUnit.Edited (m : Model) (u v : SourceUnit) : Prop where
  path : u.path = v.path
  modulePath : u.modulePath = v.modulePath
  attrs : u.parsed.file.attrs = v.parsed.file.attrs
  items : m.Edit u.modulePath u.parsed.file.items v.parsed.file.items

/-- Whether programs differ in one item of one unit. -/
structure Program.Edited (m : Model) (p q : Program) : Prop where
  crateName : p.crateName = q.crateName
  references : p.references = q.references
  units : ∃ before u v after, p.units = before ++ u :: after ∧ q.units = before ++ v :: after ∧ u.Edited m v

/-! ### Fragments -/

namespace Scope

variable {path : List String} {before after : List Item}

lemma ofItems_of_not_isImport {i : Item} (notImport : i.isImport = false) (innerAttrs : List Attr) :
    ofItems path (before ++ i :: after) innerAttrs = ofItems path (before ++ after) innerAttrs := by
  have bindings : i.bindings = [] := by
    obtain ⟨attrs, vis, decl⟩ := i
    cases decl with
    | useDecl => cases notImport
    | externCrate => cases notImport
    | _ => rfl
  rw [ofItems, ofItems, List.flatMap_append, List.flatMap_append, List.flatMap_cons, bindings, List.filter_append,
    List.filter_append, List.filter_cons_of_neg (Bool.not_eq_true _ ▸ notImport)]
  rfl

end Scope

/-- Which marker an attribute names is a matter of the path of the module, of its bindings and of the path of the
attribute. -/
lemma Model.markerOf_printed (m : Model) (path : List String) (items : List Item) (innerAttrs : List Attr) (a : Attr) :
    m.markerOf (.ofItems path (items.map Item.printed) innerAttrs) a.printed = m.markerOf (.ofItems path items []) a := by
  have bindings : (items.map Item.printed).flatMap Item.bindings = items.flatMap Item.bindings := by
    simp only [List.flatMap_map, Item.bindings_printed]
  rw [markerOf, markerOf, Attr.path_printed, Scope.ofItems, Scope.ofItems, bindings]
  rfl

lemma Item.exists_nominal?_of_printed {i : Item} {kind : NodeKind} {name : String} {generic : Bool}
    (declares : i.printed.nominal? = some (kind, name, generic)) : ∃ generic', i.nominal? = some (kind, name, generic') := by
  obtain ⟨attrs, vis, decl⟩ := i
  cases decl with
  | data k => cases k <;> cases declares <;> exact ⟨_, rfl⟩
  | trait => cases declares; exact ⟨_, rfl⟩
  | module _ _ items => cases items <;> cases declares
  | _ => cases declares

lemma Item.isSome_nominal?_printed (i : Item) : i.printed.nominal?.isSome = i.nominal?.isSome := by
  obtain ⟨attrs, vis, decl⟩ := i
  cases decl with
  | data kind => cases kind <;> rfl
  | module _ _ items => cases items <;> rfl
  | _ => rfl

namespace Fragment

variable {m : Model} {unit : Nat} {unitPath : String}

lemma isSome_ofItem?_iff {path : List String} {items siblings : List Item} {innerAttrs : List Attr} {i : Item} :
    (ofItem? m unit unitPath (.ofItems path (items.map Item.printed) innerAttrs) siblings i.printed).isSome = true ↔
      m.isMarked path items i = true := by
  rw [isSome_ofItem?_iff_marked, Item.isSome_nominal?_printed, Item.attrs_printed, Model.isMarked, Bool.and_eq_true,
    List.any_eq_true]
  simp only [List.mem_map, exists_exists_and_eq_and, m.markerOf_printed]

lemma isMarked_of_ofItem? {path : List String} {items siblings : List Item} {innerAttrs : List Attr} {i : Item}
    {f : Fragment}
    (taken : ofItem? m unit unitPath (.ofItems path (items.map Item.printed) innerAttrs) siblings i.printed = some f) :
    m.isMarked path items i = true ∧ ∃ kind generic, i.nominal? = some (kind, f.name, generic) := by
  obtain ⟨kind, name, generic, _, _, declares, -, rfl⟩ := exists_of_ofItem? taken
  obtain ⟨generic', named⟩ := Item.exists_nominal?_of_printed declares
  exact ⟨isSome_ofItem?_iff.mp (Option.isSome_of_eq_some taken), kind, generic', named⟩

/-! ### Fragments of items in a row -/

def ofItems (m : Model) (unit : Nat) (unitPath : String) (path : List String) (items : List Item)
    (innerAttrs : List Attr) : List Fragment :=
  belowAll m unit unitPath (.ofItems path items innerAttrs) items items

lemma below_module (s : Scope) (siblings : List Item) (attrs : List Attr) (vis : Visibility) (isUnsafe : Bool)
    (name : String) (items : List Item) :
    below m unit unitPath s siblings (.mk attrs vis (.module isUnsafe name (some items))) =
      ofItems m unit unitPath (s.modulePath ++ [name]) items (carriedAttributes false attrs) := by
  rw [below]
  rfl

/-- An item that is no module has no fragments besides its own. -/
lemma below_of_not_module {s : Scope} {siblings : List Item} {i : Item}
    (other : ∀ attrs vis isUnsafe name items, i = .mk attrs vis (.module isUnsafe name (some items)) → False) :
    below m unit unitPath s siblings i.printed = (ofItem? m unit unitPath s siblings i.printed).toList := by
  obtain ⟨attrs, vis, decl⟩ := i
  cases decl with
  | module isUnsafe name items =>
    cases items with
    | none => rfl
    | some items => exact (other attrs vis isUnsafe name items rfl).elim
  | _ => rfl

/-- An item with fragments is a marked type or a module that has one. -/
lemma hasMarked_of_mem_below {f : Fragment} : ∀ (path : List String) (items : List Item) (i : Item)
    (siblings : List Item) (innerAttrs : List Attr),
    f ∈ below m unit unitPath (.ofItems path (items.map Item.printed) innerAttrs) siblings i.printed →
      m.hasMarked path items i = true := by
  refine Model.hasMarked.induct _ (fun path items is => ∀ siblings innerAttrs,
    f ∈ belowAll m unit unitPath (.ofItems path (items.map Item.printed) innerAttrs) siblings (is.map Item.printed) →
      m.anyMarked path items is = true) ?module ?other ?nil ?cons
  case module =>
    intro path items attrs vis isUnsafe name inner ih siblings innerAttrs there
    rw [Item.printed, Decl.printed, below_module, ofItems, Item.printedEach_eq_map] at there
    exact ih _ _ there
  case other =>
    intro path items i other siblings innerAttrs there
    rw [below_of_not_module other] at there
    rw [Model.hasMarked.eq_2 _ _ _ _ other]
    exact (isMarked_of_ofItem? (Option.mem_toList.mp there)).1
  case nil => exact fun _ _ _ _ there => absurd there List.not_mem_nil
  case cons =>
    intro path items i is ih ihs siblings innerAttrs there
    rw [List.map_cons, belowAll] at there
    rw [Model.anyMarked, Bool.or_eq_true]
    exact (List.mem_append.mp there).imp (ih _ _) (ihs _ _)

lemma belowAll_append (s : Scope) (siblings is js : List Item) :
    belowAll m unit unitPath s siblings (is ++ js) =
      belowAll m unit unitPath s siblings is ++ belowAll m unit unitPath s siblings js := by
  induction is with
  | nil => rfl
  | cons i is ih => rw [List.cons_append, belowAll, belowAll, ih, List.append_assoc]

/-- Of its siblings, an item only has to do with the implementations for it, and only if it is marked. -/
lemma below_congr {s : Scope} {siblings siblings' : List Item} {i : Item}
    (impls : ∀ f, ofItem? m unit unitPath s siblings i = some f →
      siblings.filter (·.isImplFor f.name) = siblings'.filter (·.isImplFor f.name)) :
    below m unit unitPath s siblings i = below m unit unitPath s siblings' i := by
  have same : ofItem? m unit unitPath s siblings i = ofItem? m unit unitPath s siblings' i := by
    unfold ofItem? at impls ⊢
    split
    case h_1 => rfl
    case h_2 kind name generic declares =>
      split
      case h_1 => rfl
      case h_2 index marker first =>
        simp only [declares, first] at impls
        rw [impls _ rfl]
  obtain ⟨attrs, vis, decl⟩ := i
  cases decl with
  | module _ _ inner =>
    cases inner with
    | none => exact congrArg Option.toList same
    | some inner => rfl
  | _ => exact congrArg Option.toList same

lemma belowAll_congr {s : Scope} {siblings siblings' is : List Item}
    (impls : ∀ i ∈ is, ∀ f, ofItem? m unit unitPath s siblings i = some f →
      siblings.filter (·.isImplFor f.name) = siblings'.filter (·.isImplFor f.name)) :
    belowAll m unit unitPath s siblings is = belowAll m unit unitPath s siblings' is := by
  induction is with
  | nil => rfl
  | cons i is ih =>
    rw [belowAll, belowAll, below_congr (impls i List.mem_cons_self),
      ih fun j hj => impls j (List.mem_cons_of_mem i hj)]

section Insertion

variable {path : List String} {before after : List Item} {i : Item} {innerAttrs : List Attr}

lemma scope_of_not_isImport (notImport : i.isImport = false) :
    Scope.ofItems path ((before ++ i :: after).map Item.printed) innerAttrs =
      .ofItems path ((before ++ after).map Item.printed) innerAttrs := by
  rw [List.map_append, List.map_cons, List.map_append]
  exact Scope.ofItems_of_not_isImport (i.isImport_printed ▸ notImport) innerAttrs

/-- What is no import and no implementation for a marked type is no matter of the other items of its module. -/
lemma ofItems_split (notImport : i.isImport = false)
    (notImpl : ∀ j ∈ before ++ i :: after, m.isMarked path (before ++ i :: after) j = true → ∀ n ∈ j.nominal?,
      i.printed.isImplFor n.2.1 = false) :
    let s := Scope.ofItems path ((before ++ after).map Item.printed) innerAttrs
    let siblings := (before ++ after).map Item.printed
    ofItems m unit unitPath path ((before ++ i :: after).map Item.printed) innerAttrs =
      belowAll m unit unitPath s siblings (before.map Item.printed) ++
        (below m unit unitPath s siblings i.printed ++ belowAll m unit unitPath s siblings (after.map Item.printed)) := by
  intro s siblings
  have alone : ofItems m unit unitPath path ((before ++ i :: after).map Item.printed) innerAttrs =
      belowAll m unit unitPath s siblings ((before ++ i :: after).map Item.printed) := by
    rw [ofItems, scope_of_not_isImport notImport]
    -- the list of siblings still has the item: a fragment takes implementations from there, and this is none for it
    apply belowAll_congr
    intro k hk f taken
    obtain ⟨j, hj, rfl⟩ := List.mem_map.mp hk
    rw [← scope_of_not_isImport notImport] at taken
    obtain ⟨marked, kind, generic, declares⟩ := isMarked_of_ofItem? taken
    have other : ¬ i.printed.isImplFor f.name = true :=
      Bool.not_eq_true _ ▸ notImpl j hj marked (kind, f.name, generic) declares
    rw [List.map_append, List.map_cons, List.filter_append, List.filter_cons_of_neg other, ← List.filter_append,
      ← List.map_append]
  rw [alone, List.map_append, List.map_cons, belowAll_append, belowAll]

lemma ofItems_of_unrelated (unrelated : m.Unrelated path (before ++ i :: after) i) (innerAttrs : List Attr) :
    ofItems m unit unitPath path ((before ++ i :: after).map Item.printed) innerAttrs =
      ofItems m unit unitPath path ((before ++ after).map Item.printed) innerAttrs := by
  obtain ⟨notImport, unmarked, notImpl⟩ := unrelated
  have nothing (siblings : List Item) : below m unit unitPath
      (.ofItems path ((before ++ after).map Item.printed) innerAttrs) siblings i.printed = [] := by
    apply List.eq_nil_iff_forall_not_mem.mpr
    intro f there
    rw [← scope_of_not_isImport notImport] at there
    rw [hasMarked_of_mem_below path _ i _ _ there] at unmarked
    cases unmarked
  rw [ofItems_split notImport notImpl, nothing, List.nil_append, ← belowAll_append, ← List.map_append, ofItems]

end Insertion

lemma ofItems_of_splice {path : List String} {before after : List Item} {item : Option Item}
    (unrelated : ∀ i ∈ item, m.Unrelated path (before ++ item.toList ++ after) i) (innerAttrs : List Attr) :
    ofItems m unit unitPath path ((before ++ item.toList ++ after).map Item.printed) innerAttrs =
      ofItems m unit unitPath path ((before ++ after).map Item.printed) innerAttrs := by
  cases item with
  | none => rw [Option.toList_none, List.append_nil]
  | some i =>
    have unrelated := unrelated i rfl
    rw [Option.toList_some, List.append_assoc, List.singleton_append] at unrelated ⊢
    exact ofItems_of_unrelated unrelated innerAttrs

/-- An edit leaves no trace in the fragments. -/
lemma ofItems_of_edit {path : List String} {is js : List Item} (edit : m.Edit path is js) (innerAttrs : List Attr) :
    ofItems m unit unitPath path (is.map Item.printed) innerAttrs =
      ofItems m unit unitPath path (js.map Item.printed) innerAttrs := by
  induction edit generalizing innerAttrs with
  | splice gone come uses =>
    -- both rows are the one without the item
    rw [ofItems_of_splice gone, ofItems_of_splice come]
  | @inside path before after attrs vis isUnsafe name inner inner' edit ih =>
    -- a module is no import and no implementation, so its siblings do not see what is in it
    rw [ofItems_split rfl fun _ _ _ _ _ => rfl, ofItems_split rfl fun _ _ _ _ _ => rfl]
    simp only [Item.printed, Decl.printed, below_module, Item.printedEach_eq_map]
    exact congrArg (fun fs => _ ++ (fs ++ _)) (ih _)

lemma ofUnit_eq (m : Model) (unit : Nat) (u : SourceUnit) :
    ofUnit m unit u = ofItems m unit u.path u.modulePath (u.parsed.file.items.map Item.printed)
      (carriedAttributes u.modulePath.isEmpty (u.parsed.file.attrs.map Attr.printed)) := by
  rw [← Item.printedEach_eq_map, ← Attr.printedEach_eq_map]
  rfl

lemma ofUnit_of_edited {u v : SourceUnit} (edited : u.Edited m v) (unit : Nat) : ofUnit m unit u = ofUnit m unit v := by
  rw [ofUnit_eq, ofUnit_eq, ← edited.path, ← edited.modulePath, ← edited.attrs]
  exact ofItems_of_edit edited.items _

end Fragment

/-! ### Global imports -/

lemma Model.Edit.uses_eq {m : Model} {path : List String} {is js : List Item} (edit : m.Edit path is js) :
    is.flatMap Item.uses = js.flatMap Item.uses := by
  induction edit with
  | splice gone come uses => simp only [List.flatMap_append, uses]
  | @inside path before after attrs vis isUnsafe name inner inner' edit ih =>
    obtain ⟨ahead, uses⟩ := Item.exists_uses_module attrs vis isUnsafe name
    simp only [List.flatMap_append, List.flatMap_cons, uses, ih]

namespace SourceUnit

/-- The `use` declarations that a walk meets in a unit. -/
def uses (u : SourceUnit) : List Item := (u.sightings.map (·.item)).filter Item.isUse

lemma uses_eq (u : SourceUnit) (s : Scope) : u.uses =
    ((Attr.sightingsAll s true 0 u.parsed.file.attrs).map (·.item)).filter Item.isUse ++
      u.parsed.file.items.flatMap Item.uses := by
  rw [uses, sightings, SourceFile.sightings, List.map_append, List.filter_append, Item.map_item_sightingsAll,
    List.filter_flatMap, Attr.map_item_sightingsAll _ _ (Scope.ofUnit u) s 0 0]
  rfl

lemma uses_of_edited {m : Model} {u v : SourceUnit} (edited : u.Edited m v) : u.uses = v.uses := by
  rw [u.uses_eq (Scope.ofUnit u), v.uses_eq (Scope.ofUnit u), edited.attrs, edited.items.uses_eq]

end SourceUnit

namespace GlobalImports

lemma filter_isGlobalImport_eq (p : Program) :
    (p.units.flatMap (·.sightings.map (·.item.printed))).filter Item.isGlobalImport =
      ((p.units.flatMap SourceUnit.uses).filter Item.isGlobalImport).map Item.printed := by
  have use (i : Item) (isGlobal : i.isGlobalImport = true) : i.isUse = true := by
    obtain ⟨attrs, vis, decl⟩ := i
    cases decl with
    | useDecl => rfl
    | _ => cases isGlobal
  have printed : (p.units.flatMap fun u => u.sightings.map fun s => s.item.printed) =
      (p.units.flatMap fun u => u.sightings.map fun s => s.item).map Item.printed := by
    simp only [List.map_flatMap, List.map_map, Function.comp_def]
  have uses : p.units.flatMap SourceUnit.uses =
      (p.units.flatMap fun u => u.sightings.map fun s => s.item).filter Item.isUse := List.filter_flatMap.symm
  rw [printed, uses, List.filter_map, List.filter_filter]
  congr 1
  apply List.filter_congr
  intro i _
  rw [Function.comp_apply, Item.isGlobalImport_printed]
  cases isGlobal : i.isGlobalImport with
  | true => exact (use i isGlobal).symm
  | false => rfl

lemma ofProgram_of_edited {m : Model} {p q : Program} (edited : p.Edited m q) : ofProgram p = ofProgram q := by
  obtain ⟨before, u, v, after, first, second, edited⟩ := edited.units
  rw [ofProgram, ofProgram, filter_isGlobalImport_eq, filter_isGlobalImport_eq, first, second]
  simp only [List.flatMap_append, List.flatMap_cons, SourceUnit.uses_of_edited edited]

end GlobalImports

/-! ### Programs -/

/-- Whether units stand under one path and have fragments that add the same to a crate. -/
structure SourceUnit.SameFragments (m m' : Model) (u v : SourceUnit) : Prop where
  key : Pass.unitKey u = Pass.unitKey v
  fragments : ∀ index index', (Fragment.ofUnit m index u).map Fragment.placeless =
    (Fragment.ofUnit m' index' v).map Fragment.placeless

namespace Program

variable {m m' : Model} {p q : Program}

/-- An edit leaves every unit where it is, with fragments that add the same to a crate. -/
lemma Edited.sameFragments (edited : p.Edited m q) (hm : Model.ofProgram p = .ok m) (hm' : Model.ofProgram q = .ok m') :
    List.Forall₂ (SourceUnit.SameFragments m m') p.units q.units := by
  obtain ⟨markers, crates⟩ := Model.congr_of_ofProgram edited.references.symm hm hm'
  have same (u : SourceUnit) : SourceUnit.SameFragments m m' u u :=
    ⟨rfl, Fragment.ofUnit_placeless markers crates rfl rfl⟩
  obtain ⟨before, u, v, after, first, second, edited⟩ := edited.units
  have other : SourceUnit.SameFragments m m' u v := by
    refine ⟨by rw [Pass.unitKey, Pass.unitKey, edited.path], fun index index' => ?_⟩
    rw [Fragment.ofUnit_of_edited edited index]
    exact (same v).fragments index index'
  rw [first, second]
  exact List.rel_append (List.forall₂_same.mpr fun w _ => same w)
    (.cons other (List.forall₂_same.mpr fun w _ => same w))

end Program

namespace Fragment

variable {m m' : Model}

lemma ofUnits_placeless {us vs : List SourceUnit} (each : List.Forall₂ (SourceUnit.SameFragments m m') us vs)
    (index : Nat) :
    ((us.zipIdx index).flatMap fun (u, i) => ofUnit m i u).map placeless =
      ((vs.zipIdx index).flatMap fun (v, i) => ofUnit m' i v).map placeless := by
  induction each generalizing index with
  | nil => rfl
  | cons first rest ih =>
    rw [List.zipIdx_cons, List.zipIdx_cons, List.flatMap_cons, List.flatMap_cons, List.map_append, List.map_append,
      first.fragments index index, ih]

end Fragment

end SourceGen
