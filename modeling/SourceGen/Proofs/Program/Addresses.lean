import Mathlib.Data.List.InsertIdx
import SourceGen.Proofs.View.Fragments

/-!
# The addresses of fragments

An item of a unit is at an address: its position in its module, after those of the modules around it. Addresses are
compared from the left, so they are in the order of the text. Those of the marked types say which fragments a unit has
and where each one is from (`Fragment.exists_collectedAt`), with no word on how the unit is walked.
-/

namespace SourceGen

/-- An item with what stands around it. -/
structure PlacedItem where
  scope : Scope
  /-- The items of its module. -/
  siblings : List Item
  item : Item

/-- The item at an address below a scope with given items. -/
def Scope.itemAt? (s : Scope) (items : List Item) : List Nat → Option PlacedItem
  | [] => none
  | [k] => items[k]?.map (⟨s, items, ·⟩)
  | k :: next :: rest =>
    match items[k]? with
    | some (.mk attrs _ (.module _ name (some inner))) => (s.nested attrs name inner).itemAt? inner (next :: rest)
    | _ => none

/-- The item at an address in a unit, as it is printed. -/
def SourceUnit.itemAt? (u : SourceUnit) (address : List Nat) : Option PlacedItem :=
  let file := u.parsed.file.printed
  (Scope.ofFile u.modulePath file).itemAt? file.items address

/-- Whether an item is a type that is marked. -/
def PlacedItem.IsMarked (m : Model) (x : PlacedItem) : Prop :=
  x.item.kind.declaresType = true ∧ ∃ a ∈ x.item.attrs, (m.markerOf x.scope a).isSome = true

/-! ### The types of implementations -/

/-- Whether a type is a path that ends in a name, with or without arguments after it, in any number of parentheses. -/
inductive Node.IsCalled (name : String) : Node → Prop
  | path {parts : List Node} {last : Node} (ends : parts.getLast? = some last)
      (named : last = .word name ∨ ∃ args, last = .form .segment (.word name :: args)) : IsCalled name (.form .path parts)
  | parens {t : Node} (inside : t.IsCalled name) : IsCalled name t.inParens

lemma lastPathName_eq_some_iff {parts : List Node} {name : String} :
    lastPathName parts = some name ↔ ∃ last, parts.getLast? = some last ∧
      (last = .word name ∨ ∃ args, last = .form .segment (.word name :: args)) := by
  constructor
  · intro named
    unfold lastPathName at named
    split at named
    case h_1 word ends =>
      cases named
      exact ⟨_, ends, .inl rfl⟩
    case h_2 word args ends =>
      cases named
      exact ⟨_, ends, .inr ⟨args, rfl⟩⟩
    case h_3 => cases named
  · rintro ⟨last, ends, rfl | ⟨args, rfl⟩⟩ <;> rw [lastPathName, ends] <;> rfl

lemma Node.typeName?_eq_some_iff {name : String} {t : Node} : t.typeName? = some name ↔ t.IsCalled name := by
  constructor
  · induction t using Node.typeName?.induct with
    | case1 parts =>
      intro called
      obtain ⟨last, ends, named⟩ := lastPathName_eq_some_iff.mp called
      exact .path ends named
    | case2 t ih => exact fun called => .parens (ih called)
    | case3 t notPath notParens =>
      intro called
      rw [Node.typeName?.eq_3 t notPath notParens] at called
      cases called
  · intro called
    induction called with
    | path ends named => exact lastPathName_eq_some_iff.mpr ⟨_, ends, named⟩
    | parens _ ih => exact ih

/-- Whether an item is an implementation for a type that is called by a name. -/
def Item.Implements (name : String) (i : Item) : Prop :=
  ∃ header selfType whereClause members, i.decl = .impl header selfType whereClause members ∧ selfType.IsCalled name

lemma Item.isImplFor_iff {name : String} {i : Item} : i.isImplFor name = true ↔ i.Implements name := by
  unfold isImplFor
  split
  case h_1 header selfType whereClause members implements =>
    rw [beq_iff_eq, Node.typeName?_eq_some_iff]
    constructor
    · exact fun called => ⟨header, selfType, whereClause, members, implements, called⟩
    · rintro ⟨_, _, _, _, same, called⟩
      cases implements.symm.trans same
      exact called
  case h_2 other =>
    constructor
    · exact nofun
    · rintro ⟨_, _, _, _, implements, -⟩
      exact (other _ _ _ _ implements).elim

instance (name : String) : DecidablePred (Item.Implements name) := fun _ => decidable_of_iff _ Item.isImplFor_iff

/-! ### One fragment -/

namespace Fragment

/-- Whether a fragment is that of an item. Its marker is the first one among the attributes of the item, and its
declaration is the item without this attribute. -/
structure IsOf (f : Fragment) (m : Model) (x : PlacedItem) : Prop where
  kind : f.kind = x.item.kind
  name : some f.name = x.item.name?
  modulePath : f.modulePath = x.scope.modulePath
  attributes : f.attributes = x.item.attrs
  marker : ∃ k a, x.item.attrs[k]? = some a ∧ m.markerOf x.scope a = some f.marker ∧
    (∀ b ∈ x.item.attrs.take k, m.markerOf x.scope b = none) ∧
      f.declaration.withAttrs (f.declaration.attrs.insertIdx k a) = x.item
  impls : f.impls = x.siblings.filter (·.Implements f.name)
  imports : f.imports = x.scope.imports
  innerAttrs : f.innerAttrs = x.scope.innerAttrs

variable {m : Model} {unit : Nat} {unitPath : String} {s : Scope} {siblings : List Item} {i : Item}

/-- The attribute at a position, put back there. -/
lemma withAttrs_insertIdx_withoutAttr {k : Nat} {a : Attr} (there : i.attrs[k]? = some a) :
    (i.withoutAttr k).withAttrs ((i.withoutAttr k).attrs.insertIdx k a) = i := by
  obtain ⟨attrs, vis, decl⟩ := i
  obtain ⟨within, rfl⟩ : ∃ within : k < attrs.length, attrs[k] = a := List.getElem?_eq_some_iff.mp there
  exact congrArg (Item.mk · vis decl) (List.insertIdx_eraseIdx_getElem within)

lemma isOf_of_ofItem? {f : Fragment} (taken : ofItem? m unit unitPath s siblings i = some f) :
    (f.unit = unit ∧ f.unitPath = unitPath) ∧ f.IsOf m ⟨s, siblings, i⟩ := by
  obtain ⟨kind, name, generic, k, marker, declares, first, rfl⟩ := exists_of_ofItem? taken
  obtain ⟨kind, named⟩ := Item.spec_of_nominal? declares
  obtain ⟨a, there, marked, unmarked⟩ := spec_of_firstMarker? first
  refine ⟨⟨rfl, rfl⟩, kind, named, rfl, rfl, ?_, ?_, rfl, rfl⟩
  · exact ⟨k, a, there, marked, unmarked, withAttrs_insertIdx_withoutAttr there⟩
  · exact List.filter_congr fun j _ => Bool.eq_iff_iff.mpr (Item.isImplFor_iff.trans decide_eq_true_iff.symm)

lemma isSome_ofItem?_iff_isMarked :
    (ofItem? m unit unitPath s siblings i).isSome = true ↔ (⟨s, siblings, i⟩ : PlacedItem).IsMarked m := by
  rw [PlacedItem.IsMarked, Item.declaresType_kind]
  exact isSome_ofItem?_iff_marked

/-! ### All fragments -/

/-- Whether fragments of a unit are those of the marked types among items, each at its address and all in their order. -/
structure CollectedAt (m : Model) (unit : Nat) (unitPath : String) (found : List Nat → PlacedItem → Prop)
    (fs : List Fragment) (addresses : List (List Nat)) : Prop where
  inOrder : addresses.Pairwise (· < ·)
  all : ∀ address, address ∈ addresses ↔ ∃ x, found address x ∧ x.IsMarked m
  each : List.Forall₂ (fun f address => (f.unit = unit ∧ f.unitPath = unitPath) ∧ ∃ x, found address x ∧ f.IsOf m x)
    fs addresses

namespace CollectedAt

variable {found found₁ found₂ : List Nat → PlacedItem → Prop} {fs fs₁ fs₂ : List Fragment}
  {addresses addresses₁ addresses₂ : List (List Nat)}

lemma of_imp (collected : CollectedAt m unit unitPath found₁ fs addresses)
    (come : ∀ address x, found₁ address x → found₂ address x)
    (back : ∀ address x, x.IsMarked m → found₂ address x → found₁ address x) :
    CollectedAt m unit unitPath found₂ fs addresses where
  inOrder := collected.inOrder
  all address := by
    rw [collected.all]
    constructor
    · exact fun ⟨x, there, marked⟩ => ⟨x, come address x there, marked⟩
    · exact fun ⟨x, there, marked⟩ => ⟨x, back address x marked there, marked⟩
  each := by
    refine collected.each.imp fun f address => ?_
    exact And.imp_right fun ⟨x, there, isOf⟩ => ⟨x, come address x there, isOf⟩

lemma nil (unmarked : ∀ address x, found address x → ¬ x.IsMarked m) :
    CollectedAt m unit unitPath found [] [] where
  inOrder := .nil
  all address := by
    constructor
    · exact nofun
    · exact fun ⟨x, there, marked⟩ => (unmarked address x there marked).elim
  each := .nil

lemma append (first : CollectedAt m unit unitPath found₁ fs₁ addresses₁)
    (second : CollectedAt m unit unitPath found₂ fs₂ addresses₂)
    (before : ∀ a x b y, found₁ a x → found₂ b y → a < b) :
    CollectedAt m unit unitPath (fun address x => found₁ address x ∨ found₂ address x) (fs₁ ++ fs₂)
      (addresses₁ ++ addresses₂) where
  inOrder := by
    refine List.pairwise_append.mpr ⟨first.inOrder, second.inOrder, fun a ha b hb => ?_⟩
    obtain ⟨x, there, -⟩ := (first.all a).mp ha
    obtain ⟨y, there', -⟩ := (second.all b).mp hb
    exact before a x b y there there'
  all address := by
    simp only [List.mem_append, first.all, second.all, or_and_right, exists_or]
  each := by
    apply List.rel_append
    · refine first.each.imp fun f address => ?_
      rintro ⟨same, x, there, isOf⟩
      exact ⟨same, x, .inl there, isOf⟩
    · refine second.each.imp fun f address => ?_
      rintro ⟨same, x, there, isOf⟩
      exact ⟨same, x, .inr there, isOf⟩

/-- Addresses in a module, seen from around it. -/
lemma below (collected : CollectedAt m unit unitPath found fs addresses) (k : Nat) :
    CollectedAt m unit unitPath (fun address x => ∃ rest, address = k :: rest ∧ found rest x) fs
      (addresses.map (k :: ·)) where
  inOrder := List.pairwise_map.mpr (collected.inOrder.imp fun less => List.cons_lt_cons_iff.mpr (.inr ⟨rfl, less⟩))
  all address := by
    rw [List.mem_map]
    constructor
    · rintro ⟨rest, inside, rfl⟩
      obtain ⟨x, there, marked⟩ := (collected.all rest).mp inside
      exact ⟨x, ⟨rest, rfl, there⟩, marked⟩
    · rintro ⟨x, ⟨rest, rfl, there⟩, marked⟩
      exact ⟨rest, (collected.all rest).mpr ⟨x, there, marked⟩, rfl⟩
  each := by
    rw [List.forall₂_map_right_iff]
    refine collected.each.imp fun f rest => ?_
    exact And.imp_right fun ⟨x, there, isOf⟩ => ⟨x, ⟨rest, rfl, there⟩, isOf⟩

end CollectedAt

/-- An item that is no module is the only one at an address that starts with its position. -/
lemma itemAt?_of_not_module {k : Nat} (there : siblings[k]? = some i)
    (other : ∀ attrs vis isUnsafe name items, i = .mk attrs vis (.module isUnsafe name (some items)) → False)
    (rest : List Nat) : s.itemAt? siblings (k :: rest) = if rest = [] then some ⟨s, siblings, i⟩ else none := by
  cases rest with
  | nil => rw [Scope.itemAt?, there, if_pos rfl, Option.map_some]
  | cons next rest =>
    rw [Scope.itemAt?, there, if_neg (List.cons_ne_nil _ _)]
    split
    case h_1 same => exact (other _ _ _ _ _ (Option.some.inj same)).elim
    case h_2 => rfl

lemma exists_collectedAt_ofItem? (unit : Nat) (unitPath : String) {k : Nat} (there : siblings[k]? = some i)
    (other : ∀ attrs vis isUnsafe name items, i = .mk attrs vis (.module isUnsafe name (some items)) → False) :
    ∃ rests, CollectedAt m unit unitPath (fun rest x => s.itemAt? siblings (k :: rest) = some x)
      (ofItem? m unit unitPath s siblings i).toList rests := by
  have found_iff (rest : List Nat) (x : PlacedItem) :
      s.itemAt? siblings (k :: rest) = some x ↔ rest = [] ∧ ⟨s, siblings, i⟩ = x := by
    rw [itemAt?_of_not_module there other, Option.ite_none_right_eq_some, Option.some.injEq]
  have marked : (ofItem? m unit unitPath s siblings i).isSome = true ↔ (⟨s, siblings, i⟩ : PlacedItem).IsMarked m :=
    isSome_ofItem?_iff_isMarked
  cases taken : ofItem? m unit unitPath s siblings i with
  | none =>
    rw [taken] at marked
    refine ⟨[], .nil fun rest x found isMarked => ?_⟩
    obtain ⟨-, rfl⟩ := (found_iff rest x).mp found
    cases marked.mpr isMarked
  | some f =>
    rw [taken] at marked
    obtain ⟨ofUnit, isOf⟩ := isOf_of_ofItem? taken
    have found := (found_iff [] _).mpr ⟨rfl, rfl⟩
    refine ⟨[[]], List.pairwise_singleton _ _, fun rest => ?_, .cons ⟨ofUnit, _, found, isOf⟩ .nil⟩
    rw [List.mem_singleton]
    constructor
    · rintro rfl
      exact ⟨_, found, marked.mp rfl⟩
    · exact fun ⟨x, found, _⟩ => ((found_iff rest x).mp found).1

lemma itemAt?_of_length_le {k : Nat} (outside : siblings.length ≤ k) (rest : List Nat) :
    s.itemAt? siblings (k :: rest) = none := by
  cases rest with
  | nil => rw [Scope.itemAt?, List.getElem?_eq_none outside, Option.map_none]
  | cons => rw [Scope.itemAt?, List.getElem?_eq_none outside]

/-- The fragments of items in a row are at the position of the first one or after it. -/
lemma exists_collectedAt_belowAll (m : Model) (unit : Nat) (unitPath : String) :
    ∀ (s : Scope) (siblings is : List Item) (n : Nat), siblings.drop n = is → ∃ addresses,
      CollectedAt m unit unitPath (fun address x => s.itemAt? siblings address = some x ∧ ∀ k ∈ address.head?, n ≤ k)
        (belowAll m unit unitPath s siblings is) addresses := by
  refine belowAll.induct
    (fun s siblings i => ∀ n, siblings[n]? = some i → ∃ rests,
      CollectedAt m unit unitPath (fun rest x => s.itemAt? siblings (n :: rest) = some x)
        (Fragment.below m unit unitPath s siblings i) rests)
    _ ?module ?other ?nil ?cons
  case module =>
    intro s siblings attrs vis isUnsafe name items ih n there
    obtain ⟨rests, collected⟩ := ih 0 rfl
    have inside (next : Nat) (rest : List Nat) : s.itemAt? siblings (n :: next :: rest) =
        (s.nested attrs name items).itemAt? items (next :: rest) := by
      rw [Scope.itemAt?, there]
    refine ⟨rests, collected.of_imp (fun rest x found => ?_) fun rest x marked found => ?_⟩
    · cases rest with
      | nil => cases found.1
      | cons next rest => exact (inside next rest).trans found.1
    · cases rest with
      | nil =>
        -- the module itself is no type
        rw [Scope.itemAt?, there, Option.map_some] at found
        cases found
        cases marked.1
      | cons next rest => exact ⟨(inside next rest).symm.trans found, fun k _ => k.zero_le⟩
  case other =>
    intro s siblings i other n there
    rw [below.eq_2 _ _ _ _ _ _ other]
    exact exists_collectedAt_ofItem? unit unitPath there other
  case nil =>
    intro s siblings n all
    refine ⟨[], .nil fun address x found _ => ?_⟩
    cases address with
    | nil => cases found.1
    | cons k rest =>
      have outside : siblings.length ≤ k := (List.drop_eq_nil_iff.mp all).trans (found.2 k rfl)
      cases (itemAt?_of_length_le outside rest).symm.trans found.1
  case cons =>
    intro s siblings i is ih ihs n split
    have there : siblings[n]? = some i := by
      rw [← Nat.add_zero n, ← List.getElem?_drop, split, List.getElem?_cons_zero]
    have after : siblings.drop (n + 1) = is := by rw [← List.drop_drop, split, List.drop_one, List.tail_cons]
    obtain ⟨rests, first⟩ := ih n there
    obtain ⟨addresses, others⟩ := ihs (n + 1) after
    have both := (first.below n).append others ?_
    · refine ⟨_, both.of_imp (fun address x found => ?_) fun address x _ found => ?_⟩
      · obtain ⟨rest, rfl, there⟩ | ⟨there, later⟩ := found
        · exact ⟨there, fun k hk => (Option.some.inj hk).le⟩
        · exact ⟨there, fun k hk => (Nat.le_succ n).trans (later k hk)⟩
      · cases address with
        | nil => cases found.1
        | cons k rest =>
          obtain rfl | later := (found.2 k rfl).eq_or_lt
          · exact .inl ⟨rest, rfl, found.1⟩
          · exact .inr ⟨found.1, fun k' hk' => Option.some.inj hk' ▸ later⟩
    · rintro a x b y ⟨rest, rfl, -⟩ ⟨there, later⟩
      cases b with
      | nil => cases there
      | cons k more => exact List.cons_lt_cons_iff.mpr (.inl (later k rfl))

/-- The fragments of a unit are those of the marked types of its file and of the modules in it, one for each and in their
order. -/
theorem exists_collectedAt (m : Model) (index : Nat) (u : SourceUnit) :
    ∃ addresses, CollectedAt m index u.path (fun address x => u.itemAt? address = some x) (ofUnit m index u) addresses := by
  let file := u.parsed.file.printed
  obtain ⟨addresses, collected⟩ :=
    exists_collectedAt_belowAll m index u.path (.ofFile u.modulePath file) file.items file.items 0 rfl
  exact ⟨addresses, collected.of_imp (fun _ _ found => found.1) fun _ _ _ found => ⟨found, fun k _ => k.zero_le⟩⟩

end Fragment

end SourceGen
