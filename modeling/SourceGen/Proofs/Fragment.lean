import Mathlib.Tactic.Lemma
import SourceGen.Fragment

/-!
# Taking fragments

An item has a fragment exactly if it declares a type and one of its attributes names a marker
(`Fragment.isSome_ofItem?_iff_marked`), and what is in the fragment is said once (`Fragment.exists_of_ofItem?`). What
all fragments of items in a row have in common comes down to this, as each of them is the fragment of an item, in the
scope of the items or in that of a module below (`Fragment.exists_of_mem_belowAll`).
-/

namespace SourceGen

namespace Fragment

variable {m : Model} {unit : Nat} {unitPath : String} {s : Scope} {siblings : List Item} {i : Item} {f : Fragment}

/-! ### The marker -/

lemma split_of_zipIdx {α : Type} {xs : List α} {before after : List (α × Nat)} {x : α} {k : Nat}
    (split : xs.zipIdx = before ++ (x, k) :: after) :
    xs = before.map (·.1) ++ x :: after.map (·.1) ∧ before.length = k := by
  constructor
  · rw [← List.zipIdx_map_fst 0 xs, split, List.map_append, List.map_cons]
  · have here : xs.zipIdx[before.length]? = some (x, k) := by
      rw [split, List.getElem?_append_right (Nat.le_refl _), Nat.sub_self, List.getElem?_cons_zero]
    rw [List.getElem?_zipIdx, Nat.zero_add] at here
    obtain ⟨_, -, same⟩ := Option.map_eq_some_iff.mp here
    exact congrArg Prod.snd same

/-- The first marker is at a position before which there is none. -/
lemma spec_of_firstMarker? {attrs : List Attr} {k : Nat} {marker : Marker}
    (first : firstMarker? m s attrs = some (k, marker)) :
    ∃ a, attrs[k]? = some a ∧ m.markerOf s a = some marker ∧ ∀ b ∈ attrs.take k, m.markerOf s b = none := by
  obtain ⟨before, ⟨a, k'⟩, after, split, found, others⟩ := List.findSome?_eq_some_iff.mp first
  obtain ⟨marker', named, same⟩ := Option.map_eq_some_iff.mp found
  cases same
  obtain ⟨rfl, length⟩ := split_of_zipIdx split
  have length : (before.map (·.1)).length = k := by rw [List.length_map, length]
  refine ⟨a, ?_, named, fun b hb => ?_⟩
  · rw [List.getElem?_append_right (Nat.le_of_eq length), length, Nat.sub_self, List.getElem?_cons_zero]
  · rw [List.take_left' length] at hb
    obtain ⟨⟨b, j⟩, earlier, rfl⟩ := List.mem_map.mp hb
    exact Option.map_eq_none_iff.mp (others (b, j) earlier)

lemma isSome_firstMarker?_iff {attrs : List Attr} :
    (firstMarker? m s attrs).isSome = true ↔ ∃ a ∈ attrs, (m.markerOf s a).isSome = true := by
  constructor
  · intro found
    obtain ⟨⟨k, marker⟩, first⟩ := Option.isSome_iff_exists.mp found
    obtain ⟨a, there, named, -⟩ := spec_of_firstMarker? first
    exact ⟨a, List.mem_of_getElem? there, Option.isSome_iff_exists.mpr ⟨marker, named⟩⟩
  · rintro ⟨a, ha, named⟩
    obtain ⟨k, there⟩ := List.mem_iff_getElem?.mp ha
    rw [firstMarker?, List.findSome?_isSome_iff]
    refine ⟨(a, k), List.mem_zipIdx_iff_getElem?.mpr there, ?_⟩
    rw [Option.isSome_map]
    exact named

/-! ### One item -/

/-- The fragment of an item, in terms of what the item declares and of its first marker. -/
lemma exists_of_ofItem? (taken : ofItem? m unit unitPath s siblings i = some f) :
    ∃ kind name generic index marker, i.nominal? = some (kind, name, generic) ∧
      firstMarker? m s i.attrs = some (index, marker) ∧ f =
        { unit, unitPath, name, kind, modulePath := s.modulePath, marker, attributes := i.attrs,
          declaration := i.withoutAttr index, impls := siblings.filter (·.isImplFor name), imports := s.imports,
          innerAttrs := s.innerAttrs, generic } := by
  unfold ofItem? at taken
  split at taken
  case h_1 => cases taken
  case h_2 kind name generic declares =>
    split at taken
    case h_1 => cases taken
    case h_2 index marker first =>
      cases taken
      exact ⟨kind, name, generic, index, marker, declares, first, rfl⟩

/-- An item has a fragment exactly if it is a marked type. -/
lemma isSome_ofItem?_iff_marked : (ofItem? m unit unitPath s siblings i).isSome = true ↔
    i.nominal?.isSome = true ∧ ∃ a ∈ i.attrs, (m.markerOf s a).isSome = true := by
  rw [← isSome_firstMarker?_iff]
  constructor
  · intro found
    obtain ⟨f, taken⟩ := Option.isSome_iff_exists.mp found
    obtain ⟨kind, name, generic, index, marker, declares, first, -⟩ := exists_of_ofItem? taken
    exact ⟨Option.isSome_iff_exists.mpr ⟨_, declares⟩, Option.isSome_iff_exists.mpr ⟨_, first⟩⟩
  · rintro ⟨type, marked⟩
    obtain ⟨_, declares⟩ := Option.isSome_iff_exists.mp type
    obtain ⟨_, first⟩ := Option.isSome_iff_exists.mp marked
    simp only [ofItem?, declares, first, Option.isSome_some]

/-! ### Items in a row -/

/-- A fragment of items in a row is that of an item, in the scope of the items or in that of a module below. -/
lemma exists_of_mem_belowAll : ∀ (s : Scope) (siblings is : List Item), f ∈ belowAll m unit unitPath s siblings is →
    ∃ s' siblings' i, ofItem? m unit unitPath s' siblings' i = some f ∧
      (s' = s ∨ ∃ path items innerAttrs, s.modulePath <+: path ∧ s' = .ofItems path items innerAttrs) := by
  refine belowAll.induct
    (fun s siblings i => f ∈ below m unit unitPath s siblings i → ∃ s' siblings' i,
      ofItem? m unit unitPath s' siblings' i = some f ∧
        (s' = s ∨ ∃ path items innerAttrs, s.modulePath <+: path ∧ s' = .ofItems path items innerAttrs))
    _ ?module ?other ?nil ?cons
  case module =>
    intro s siblings attrs vis isUnsafe name items ih there
    rw [below] at there
    obtain ⟨s', siblings', i, taken, rfl | ⟨path, items', innerAttrs, inside, rfl⟩⟩ := ih there
    · exact ⟨_, siblings', i, taken, .inr ⟨_, items, _, List.prefix_append s.modulePath [name], rfl⟩⟩
    · exact ⟨_, siblings', i, taken, .inr ⟨path, items', innerAttrs, (List.prefix_append _ _).trans inside, rfl⟩⟩
  case other =>
    intro s siblings i other there
    rw [below.eq_2 _ _ _ _ _ _ other] at there
    exact ⟨s, siblings, i, Option.mem_toList.mp there, .inl rfl⟩
  case nil => exact fun _ _ there => absurd there List.not_mem_nil
  case cons =>
    intro s siblings i is ih ihs there
    rw [belowAll] at there
    exact (List.mem_append.mp there).elim ih ihs

end Fragment

end SourceGen
