import Mathlib.Tactic.Lemma
import SourceGen.Fragment
import SourceGen.GlobalImports

/-!
# What the printed part of a tree keeps

Leaving out silent parts changes neither what an item imports, nor what it declares, nor how its attributes are called.
-/

namespace SourceGen

lemma Attr.printedEach_eq_map (as : List Attr) : Attr.printedEach as = as.map Attr.printed := by
  induction as with
  | nil => rfl
  | cons a as ih => rw [Attr.printedEach, ih, List.map_cons]

lemma Item.printedEach_eq_map (is : List Item) : Item.printedEach is = is.map Item.printed := by
  induction is with
  | nil => rfl
  | cons i is ih => rw [Item.printedEach, ih, List.map_cons]

@[simp] lemma Attr.path_printed (a : Attr) : a.printed.path = a.path := by
  obtain ⟨inner, path, args⟩ := a
  rfl

namespace Item

variable (i : Item)

@[simp] lemma vis_printed : i.printed.vis = i.vis := by
  obtain ⟨attrs, vis, decl⟩ := i
  rfl

@[simp] lemma attrs_printed : i.printed.attrs = i.attrs.map Attr.printed := by
  obtain ⟨attrs, vis, decl⟩ := i
  exact Attr.printedEach_eq_map attrs

@[simp] lemma decl_printed : i.printed.decl = i.decl.printed := by
  obtain ⟨attrs, vis, decl⟩ := i
  rfl

/-- Nothing of an import is silent. -/
lemma decl_printed_eq_useDecl_iff {rooted : Bool} {tree : UseTree} :
    i.printed.decl = .useDecl rooted tree ↔ i.decl = .useDecl rooted tree := by
  rw [decl_printed]
  cases i.decl with
  | useDecl => rfl
  | module _ _ items => cases items <;> exact ⟨nofun, nofun⟩
  | _ => exact ⟨nofun, nofun⟩

@[simp] lemma bindings_printed : i.printed.bindings = i.bindings := by
  rw [bindings, bindings, decl_printed]
  cases i.decl with
  | module _ _ items => cases items <;> rfl
  | _ => rfl

@[simp] lemma isImport_printed : i.printed.isImport = i.isImport := by
  rw [isImport, isImport, decl_printed]
  cases i.decl with
  | module _ _ items => cases items <;> rfl
  | _ => rfl

@[simp] lemma isGlobalImport_printed : i.printed.isGlobalImport = i.isGlobalImport := by
  rw [isGlobalImport, isGlobalImport, decl_printed, vis_printed]
  cases i.decl with
  | module _ _ items => cases items <;> rfl
  | _ => rfl

end Item

end SourceGen
