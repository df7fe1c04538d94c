import Mathlib.Data.List.Forall2
import SourceGen.Assembly.Crate
import SourceGen.Proofs.Fragment
import SourceGen.Proofs.Layout.Words
import SourceGen.Proofs.Syntax.Equality

/-!
# What a generated crate depends on

A generated crate does not depend on where its fragments were taken from (`assemble_placeless`). Fragments
that compare as equal may differ in their places, but what they add to a crate is the same, because the
name, the kind and the genericity that a fragment carries are read off its declaration
(`Fragment.placeless_eq_of_beq`). The text of a crate is never empty (`assemble_source_ne_empty`), so it
tells a crate from the lack of one.
-/

namespace SourceGen

namespace Model

variable {m m' : Model}

/-- Which marker an attribute names depends on the markers and on the names of the other crates. -/
lemma markerOf_congr (markers : m.markers = m'.markers) (crates : m.externCrates = m'.externCrates)
    (s : Scope) (a : Attr) : m.markerOf s a = m'.markerOf s a := by
  obtain ⟨_, _, _⟩ := m
  obtain ⟨_, _, _⟩ := m'
  subst markers crates
  rfl

end Model

namespace Item

lemma nominal?_withoutAttr (i : Item) (index : Nat) : (i.withoutAttr index).nominal? = i.nominal? := by
  obtain ⟨attrs, vis, decl⟩ := i
  rfl

end Item

namespace Fragment

/-- The fragment without the place where it was taken from, and without what marked it there. -/
def placeless (f : Fragment) : Fragment :=
  { f with unit := 0, unitPath := "", marker := .generator, attributes := [] }

/-- Whether the name of a fragment, its kind and its genericity are those of its declaration. -/
def WellNamed (f : Fragment) : Prop := f.declaration.nominal? = some (f.kind, f.name, f.generic)

lemma placeless_eq_of_beq {f g : Fragment} (hf : f.WellNamed) (hg : g.WellNamed) (eq : (f == g) = true) :
    f.placeless = g.placeless := by
  have parts : Fragment.beq f g = true := eq
  simp only [Fragment.beq, Bool.and_eq_true, beq_iff_eq] at parts
  obtain ⟨⟨⟨⟨path, declaration⟩, impls⟩, imports⟩, attrs⟩ := parts
  obtain ⟨_, _, _, _, _, _, _, _, _, _, _, _⟩ := f
  obtain ⟨_, _, _, _, _, _, _, _, _, _, _, _⟩ := g
  simp only [WellNamed] at hf hg
  subst path declaration impls imports attrs
  rw [hf] at hg
  cases hg
  rfl

/-- Rows of fragments that compare as equal add the same to a crate, one by one. -/
lemma map_placeless_eq_of_beq {fs gs : List Fragment} (hf : ∀ f ∈ fs, f.WellNamed)
    (hg : ∀ g ∈ gs, g.WellNamed) (eq : (fs == gs) = true) : fs.map placeless = gs.map placeless := by
  induction fs generalizing gs with
  | nil =>
    cases gs with
    | nil => rfl
    | cons g gs => cases eq
  | cons f fs ih =>
    cases gs with
    | nil => cases eq
    | cons g gs =>
      rw [List.cons_beq_cons, Bool.and_eq_true] at eq
      have first := placeless_eq_of_beq (hf f List.mem_cons_self) (hg g List.mem_cons_self) eq.1
      have hf_rest : ∀ f ∈ fs, f.WellNamed := fun f h => hf f (List.mem_cons_of_mem _ h)
      have hg_rest : ∀ g ∈ gs, g.WellNamed := fun g h => hg g (List.mem_cons_of_mem _ h)
      have rest := ih hf_rest hg_rest eq.2
      rw [List.map_cons, List.map_cons, first, rest]

/-! ### Taking fragments out of a unit -/

section Items

variable {m m' : Model} {unit unit' : Nat} {unitPath unitPath' : String}

/-- The fragment of an item is named after its declaration. -/
lemma wellNamed_of_ofItem? {s : Scope} {siblings : List Item} {i : Item} {f : Fragment}
    (h : ofItem? m unit unitPath s siblings i = some f) : f.WellNamed := by
  obtain ⟨kind, name, generic, index, marker, declares, -, rfl⟩ := exists_of_ofItem? h
  exact (Item.nominal?_withoutAttr i index).trans declares

/-- What the fragment of an item adds to a crate does not depend on the position of its unit. -/
lemma ofItem?_placeless (markers : m.markers = m'.markers) (crates : m.externCrates = m'.externCrates)
    (s : Scope) (siblings : List Item) (i : Item) :
    (ofItem? m unit unitPath s siblings i).map placeless =
      (ofItem? m' unit' unitPath' s siblings i).map placeless := by
  have marked : firstMarker? m s i.attrs = firstMarker? m' s i.attrs := by
    simp only [firstMarker?, Model.markerOf_congr markers crates]
  unfold ofItem?
  rw [marked]
  split
  · rfl
  · split <;> rfl

/-- What the fragments of items in a row add to a crate does not depend on the position of their unit. -/
lemma belowAll_placeless (markers : m.markers = m'.markers) (crates : m.externCrates = m'.externCrates)
    (s : Scope) (siblings is : List Item) :
    (belowAll m unit unitPath s siblings is).map placeless =
      (belowAll m' unit' unitPath' s siblings is).map placeless := by
  refine belowAll.induct
    (fun s siblings i => (below m unit unitPath s siblings i).map placeless =
      (below m' unit' unitPath' s siblings i).map placeless)
    (fun s siblings is => (belowAll m unit unitPath s siblings is).map placeless =
      (belowAll m' unit' unitPath' s siblings is).map placeless) ?_ ?_ ?_ ?_ s siblings is
  case refine_1 =>
    intro s siblings attrs vis isUnsafe name items ih
    rw [below, below]
    exact ih
  case refine_2 =>
    intro s siblings i other
    rw [below.eq_2 _ _ _ _ _ _ other, below.eq_2 _ _ _ _ _ _ other, ← Option.toList_map,
      ← Option.toList_map, ofItem?_placeless markers crates]
  case refine_3 => exact fun _ _ => rfl
  case refine_4 =>
    intro s siblings i is ih ihs
    rw [belowAll, belowAll, List.map_append, List.map_append, ih, ihs]

end Items

variable {m m' : Model} {u u' : SourceUnit}

lemma wellNamed_of_mem_ofUnit {index : Nat} {f : Fragment} (h : f ∈ ofUnit m index u) : f.WellNamed := by
  obtain ⟨s, siblings, i, taken, -⟩ := exists_of_mem_belowAll _ _ _ h
  exact wellNamed_of_ofItem? taken

/-- What the fragments of a unit add to a crate is a matter of its module and of its printed tree. -/
lemma ofUnit_placeless (markers : m.markers = m'.markers) (crates : m.externCrates = m'.externCrates)
    (place : u.modulePath = u'.modulePath) (tree : u.parsed.file.printed = u'.parsed.file.printed)
    (index index' : Nat) : (ofUnit m index u).map placeless = (ofUnit m' index' u').map placeless := by
  simp only [ofUnit, place, tree]
  exact belowAll_placeless markers crates _ _ _

/-- Rows of fragments that add the same to a crate as those of units, one row a unit, add the same all together. -/
lemma map_placeless_flatten {R : SourceUnit → List Fragment → Prop} {us : List SourceUnit}
    {parts : List (List Fragment)} (each : List.Forall₂ R us parts)
    (own : ∀ u ∈ us, ∀ fs, R u fs → ∀ index, fs.map placeless = (ofUnit m index u).map placeless)
    (index : Nat) :
    parts.flatten.map placeless = ((us.zipIdx index).flatMap fun (u, i) => ofUnit m i u).map placeless := by
  induction each generalizing index with
  | nil => rfl
  | @cons u fs us parts h _ ih =>
    rw [List.flatten_cons, List.zipIdx_cons, List.flatMap_cons, List.map_append, List.map_append,
      own u List.mem_cons_self fs h index, ih (fun v hv => own v (List.mem_cons_of_mem u hv)) (index + 1)]

end Fragment

namespace ModuleTree

/-- A module takes no notice of the place of a fragment. -/
lemma insert_placeless (f : Fragment) (path : List String) : insert f.placeless path = insert f path := by
  induction path with
  | nil =>
    funext t
    obtain ⟨name, content, children⟩ := t
    rfl
  | cons step path ih =>
    funext t
    obtain ⟨name, content, children⟩ := t
    rw [insert, insert, ih]

lemma ofFragments_placeless (fs : List Fragment) :
    ofFragments (fs.map Fragment.placeless) = ofFragments fs := by
  have step : ∀ (t : ModuleTree) (f : Fragment),
      t.insert f.placeless f.placeless.modulePath = t.insert f f.modulePath :=
    fun t f => congrFun (insert_placeless f f.modulePath) t
  simp only [ofFragments, List.foldl_map, step]

end ModuleTree

variable {fs gs : List Fragment} {g : GlobalImports} {crate : AssembledCrate}

lemma assemble_placeless (eq : fs.map Fragment.placeless = gs.map Fragment.placeless) :
    assemble fs g = assemble gs g := by
  have trees : ModuleTree.ofFragments fs = ModuleTree.ofFragments gs := by
    rw [← ModuleTree.ofFragments_placeless fs, eq, ModuleTree.ofFragments_placeless]
  rw [assemble, assemble, trees]

/-- The text of a crate is not empty: it ends with an entry point. -/
lemma assemble_source_ne_empty (h : assemble fs g = .ok crate) : crate.source ≠ "" := by
  rw [assemble] at h
  split at h
  · cases h
  · split at h
    case h_1 _ source formatted =>
      cases h
      exact SourceFile.formatted_ne_empty formatted (List.append_assoc _ [_, _] [_]).symm
    case h_2 => cases h

end SourceGen
