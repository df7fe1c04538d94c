import Mathlib.Data.List.Forall2
import Mathlib.Data.List.NodupEquivFin
import SourceGen.Proofs.Program.Modules
import SourceGen.View.Index

/-!
# Fragments among the nodes

Fragments and nodes come from walks of their own. The one for fragments enters modules only, and the one for nodes
enters everything. Where both of them are, they meet the same items in the same order and know the same names, so
fragments are nodes in their order, and a marked type of a file or of a module in it is one of them
(`Fragment.exists_orderEmbedding_nodes`).
-/

namespace SourceGen

namespace Item

mutual

/-- What a walk meets at an item of a file or of a module that is reached through modules only, with whether it is such
an item itself. -/
def placed (s : Scope) (start : Nat) : Item → List (Sighting × Bool)
  | .mk attrs vis (.module isUnsafe name (some items)) =>
    let inside := s.nested attrs name items
    let innerStart :=
      start + Attr.sizeAll false attrs + vis.size + (Decl.module isUnsafe name (some items)).headSize
    let ofAttrs := Attr.sightingsAll inside false start attrs ++ Attr.sightingsAll inside true innerStart attrs
    (⟨s, start, .mk attrs vis (.module isUnsafe name (some items))⟩, true) ::
      ofAttrs.map (·, false) ++ placedAll inside (innerStart + Attr.sizeAll true attrs) items
  | i => (⟨s, start, i⟩, true) :: (i.sightings s start).tail.map (·, false)

/-- What a walk meets at such items in a row. -/
def placedAll (s : Scope) (start : Nat) : List Item → List (Sighting × Bool)
  | [] => []
  | i :: is => i.placed s start ++ placedAll s (start + i.size) is

end

end Item

/-- What a walk meets in a unit, with whether it is an item of the file or of a module that is reached through modules
only. -/
def SourceUnit.placed (u : SourceUnit) : List (Sighting × Bool) :=
  let f := u.parsed.file
  let s := Scope.ofUnit u
  (Attr.sightingsAll s true 0 f.attrs).map (·, false) ++ Item.placedAll s (Attr.sizeAll true f.attrs) f.items

namespace Program

/-- What a walk meets in the units of a program, with the unit. -/
def placed (p : Program) : List (SourceUnit × Sighting × Bool) :=
  p.units.flatMap fun u => u.placed.map fun x => (u, x)

/-- Which of the nodes of a program are items of files or of modules that are reached through modules only. -/
def direct (p : Program) : List Bool := p.placed.map (·.2.2)

end Program

/-! ### The walk -/

/-- An item is met before what is in it. -/
lemma Item.sightings_eq_cons (i : Item) (s : Scope) (start : Nat) :
    i.sightings s start = ⟨s, start, i⟩ :: (i.sightings s start).tail := by
  obtain ⟨attrs, vis, decl⟩ := i
  rfl

/-- With each item it is said where it stands, and that is all. -/
lemma Item.map_fst_placedAll : ∀ (s : Scope) (start : Nat) (is : List Item),
    (Item.placedAll s start is).map (·.1) = Item.sightingsAll s start is := by
  have fst (ss : List Sighting) : (ss.map (·, false)).map (·.1) = ss := by
    rw [List.map_map]
    exact List.map_id ss
  refine Item.placedAll.induct (fun s start i => (i.placed s start).map (·.1) = i.sightings s start) _ ?_ ?_ ?_ ?_
  case refine_1 =>
    intro s start attrs vis isUnsafe name items inside innerStart ih
    rw [Item.placed, Item.sightings, Decl.sightings]
    simp only [List.cons_append, List.map_cons, List.map_append, fst]
    exact congrArg (fun rest => _ :: (_ ++ rest)) ih
  case refine_2 =>
    intro s start i other
    rw [Item.placed.eq_2 _ _ _ other, List.map_cons, fst, ← Item.sightings_eq_cons]
  case refine_3 => exact fun _ _ => rfl
  case refine_4 =>
    intro s start i is ih ihs
    rw [Item.placedAll, Item.sightingsAll, List.map_append, ih, ihs]

lemma SourceUnit.map_fst_placed (u : SourceUnit) : u.placed.map (·.1) = u.sightings := by
  rw [placed, List.map_append, Item.map_fst_placedAll, List.map_map]
  exact congrArg (· ++ _) (List.map_id _)

/-- The nodes of a program are what a walk meets, in this order. -/
lemma NodeIndex.nodesOf_eq (m : Model) :
    nodesOf m = m.program.placed.zipIdx.map fun x => nodeOf m x.1.1 x.2 x.1.2.1 := by
  have met : (m.program.units.flatMap fun u => u.sightings.map fun s => (u, s)) =
      m.program.placed.map fun x => (x.1, x.2.1) := by
    rw [Program.placed, List.map_flatMap]
    refine List.flatMap_congr fun u _ => ?_
    rw [← u.map_fst_placed, List.map_map, List.map_map]
    rfl
  rw [nodesOf, met, List.zipIdx_map, List.map_map]
  rfl

/-! ### Positions in a list -/

/-- If a list is related to the wanted entries of another one, entry by entry, then it is embedded into that list, and
onto all of them. -/
lemma exists_orderEmbedding {α β : Type} {R : α → β → Prop} {p : β → Bool} {as : List α} {bs : List β}
    (related : List.Forall₂ R as (bs.filter p)) :
    ∃ e : Fin as.length ↪o Fin bs.length,
      (∀ i, R as[i] bs[e i] ∧ p bs[e i] = true) ∧ ∀ k : Fin bs.length, p bs[k] = true → ∃ i, e i = k := by
  let chosen := bs.zipIdx.filter fun b => p b.1
  have values : chosen.map (·.1) = bs.filter p := by
    conv_rhs => rw [← List.zipIdx_map_fst 0 bs]
    rw [List.filter_map]
    rfl
  have length : as.length = chosen.length := by rw [related.length_eq, ← values, List.length_map]
  have length' : bs.zipIdx.length = bs.length := List.length_zipIdx
  obtain ⟨f, places⟩ := List.sublist_iff_exists_fin_orderEmbedding_get_eq.mp
    (List.filter_sublist : chosen.Sublist bs.zipIdx)
  -- the position of a wanted entry is written beside it
  have entry (i : Fin chosen.length) : chosen[i] = (bs[Fin.cast length' (f i)], (f i).val) := by
    refine (places i).trans ?_
    rw [List.get_eq_getElem, List.getElem_zipIdx, Nat.zero_add]
    rfl
  let e : Fin as.length ↪o Fin bs.length :=
    ((Fin.castOrderIso length).toOrderEmbedding.trans f).trans (Fin.castOrderIso length').toOrderEmbedding
  refine ⟨e, fun i => ?_, fun k wanted => ?_⟩
  · have here : chosen[Fin.cast length i] = (bs[e i], (e i).val) := entry (Fin.cast length i)
    have taken : (bs[e i], (e i).val) ∈ chosen := here ▸ List.getElem_mem _
    refine ⟨?_, (List.mem_filter.mp taken).2⟩
    have same := (values ▸ related).get i.isLt (by rw [List.length_map, ← length]; exact i.isLt)
    rw [List.get_eq_getElem, List.get_eq_getElem, List.getElem_map] at same
    change R as[i] chosen[Fin.cast length i].1 at same
    rw [here] at same
    exact same
  · have taken : (bs[k], k.val) ∈ chosen :=
      List.mem_filter.mpr ⟨List.mem_zipIdx_iff_getElem?.mpr (List.getElem?_eq_getElem k.isLt), wanted⟩
    obtain ⟨j, hj, there⟩ := List.mem_iff_getElem.mp taken
    refine ⟨⟨j, length ▸ hj⟩, Fin.ext ?_⟩
    have place := (entry ⟨j, hj⟩).symm.trans there
    exact congrArg Prod.snd place

/-! ### The items that fragments are taken from -/

namespace Model

/-- Whether what a walk meets is a marked type. -/
def marks (m : Model) (x : Sighting) : Bool :=
  x.item.nominal?.isSome && x.item.attrs.any fun a => (m.markerOf x.scope a).isSome

/-- Whether what a walk meets has a fragment: it is a marked type of a file or of a module that is reached through
modules only. -/
def declaresFragment (m : Model) (x : Sighting × Bool) : Bool := x.2 && m.marks x.1

end Model

lemma Item.spec_of_nominal? {i : Item} {kind : NodeKind} {name : String} {generic : Bool}
    (declares : i.nominal? = some (kind, name, generic)) : kind = i.kind ∧ some name = i.name? := by
  obtain ⟨attrs, vis, decl⟩ := i
  cases decl with
  | data k => cases k <;> cases declares <;> exact ⟨rfl, rfl⟩
  | trait => cases declares; exact ⟨rfl, rfl⟩
  | _ => cases declares

lemma Item.declaresType_kind (i : Item) : i.kind.declaresType = i.nominal?.isSome := by
  obtain ⟨attrs, vis, decl⟩ := i
  cases decl with
  | data k => cases k <;> rfl
  | plain k => cases k <;> rfl
  | _ => rfl

/-- A type is marked if an attribute of its node names a marker. This is no equivalence, as a node shows neither inner
attributes nor documentation. -/
lemma Model.marks_of_node {m : Model} {u : SourceUnit} {id : Nat} {x : Sighting}
    (type : (NodeIndex.nodeOf m u id x).kind.declaresType = true)
    (marked : ∃ a ∈ (NodeIndex.nodeOf m u id x).attributes, (m.markers.classify a.resolved).isSome = true) :
    m.marks x = true := by
  obtain ⟨view, there, marked⟩ := marked
  obtain ⟨a, ha, rfl⟩ := List.mem_map.mp there
  rw [marks, ← Item.declaresType_kind, Bool.and_eq_true]
  exact ⟨type, List.any_eq_true.mpr ⟨a, (List.mem_filter.mp ha).1, marked⟩⟩

namespace Fragment

variable {m : Model} {unit : Nat} {unitPath : String}

/-- Whether a fragment has the kind, the name and the module of what a walk meets in a unit. -/
structure TakenFrom (unitPath : String) (f : Fragment) (x : Sighting) : Prop where
  kind : f.kind = x.item.kind
  name : some f.name = x.item.name?
  modulePath : f.modulePath = x.scope.modulePath
  unitPath : f.unitPath = unitPath

lemma takenFrom_of_ofItem? {path : List String} {items siblings : List Item} {innerAttrs innerAttrs' : List Attr}
    {start : Nat} {i : Item} {f : Fragment}
    (taken : ofItem? m unit unitPath (.ofItems path (items.map Item.printed) innerAttrs) siblings i.printed = some f) :
    f.TakenFrom unitPath ⟨.ofItems path items innerAttrs', start, i⟩ := by
  obtain ⟨_, _, _, _, _, declares, -, rfl⟩ := exists_of_ofItem? taken
  obtain ⟨generic', named⟩ := Item.exists_nominal?_of_printed declares
  obtain ⟨kind, name⟩ := Item.spec_of_nominal? named
  exact ⟨kind, name, rfl, rfl⟩

/-- An item gives rise to a fragment of its own if it is marked. -/
lemma forall₂_ofItem? (path : List String) (items siblings : List Item) (innerAttrs innerAttrs' : List Attr)
    (start : Nat) (i : Item) :
    List.Forall₂ (fun f x => TakenFrom unitPath f x.1)
      (ofItem? m unit unitPath (.ofItems path (items.map Item.printed) innerAttrs) siblings i.printed).toList
      ([((⟨.ofItems path items innerAttrs', start, i⟩ : Sighting), true)].filter m.declaresFragment) := by
  let x : Sighting := ⟨.ofItems path items innerAttrs', start, i⟩
  have marked : m.declaresFragment (x, true) = m.isMarked path items i := Bool.true_and _
  change List.Forall₂ _ _ ([(x, true)].filter m.declaresFragment)
  cases taken : ofItem? m unit unitPath (.ofItems path (items.map Item.printed) innerAttrs) siblings i.printed with
  | none =>
    have unmarked : ¬ m.declaresFragment (x, true) = true := by
      rw [marked, ← isSome_ofItem?_iff, taken]
      exact nofun
    rw [List.filter_cons_of_neg unmarked]
    exact .nil
  | some f =>
    have isMarked : m.declaresFragment (x, true) = true := by
      rw [marked]
      exact (isMarked_of_ofItem? taken).1
    rw [List.filter_cons_of_pos isMarked]
    exact .cons (takenFrom_of_ofItem? taken) .nil

lemma filter_declaresFragment_map (ss : List Sighting) : (ss.map (·, false)).filter m.declaresFragment = [] := by
  refine List.filter_eq_nil_iff.mpr fun x hx => ?_
  obtain ⟨x, -, rfl⟩ := List.mem_map.mp hx
  exact Bool.false_ne_true

/-- The walks agree on items in a row: both enter the same modules in the same order, and with the same bindings. -/
lemma forall₂_belowAll : ∀ (s : Scope) (start : Nat) (is : List Item) (path : List String) (items : List Item)
    (innerAttrs' : List Attr), s = .ofItems path items innerAttrs' → ∀ (siblings : List Item) (innerAttrs : List Attr),
      List.Forall₂ (fun f x => TakenFrom unitPath f x.1)
        (belowAll m unit unitPath (.ofItems path (items.map Item.printed) innerAttrs) siblings (is.map Item.printed))
        ((Item.placedAll s start is).filter m.declaresFragment) := by
  refine Item.placedAll.induct
    (fun s start i => ∀ path items innerAttrs', s = Scope.ofItems path items innerAttrs' →
      ∀ siblings innerAttrs, List.Forall₂ (fun f x => TakenFrom unitPath f x.1)
        (below m unit unitPath (.ofItems path (items.map Item.printed) innerAttrs) siblings i.printed)
        ((i.placed s start).filter m.declaresFragment))
    _ ?_ ?_ ?_ ?_
  case refine_1 =>
    rintro s start attrs vis isUnsafe name inner inside innerStart ih path items innerAttrs' rfl siblings innerAttrs
    -- a module has no fragment of its own, and what its attributes have inside is not entered for fragments
    have notType (x : Sighting) (module : x.item.nominal? = none) : ¬ m.declaresFragment (x, true) = true := by
      rw [Model.declaresFragment, Model.marks, module]
      exact Bool.false_ne_true
    rw [Item.placed, List.cons_append, List.filter_cons_of_neg (notType _ rfl), List.filter_append,
      filter_declaresFragment_map, List.nil_append, Item.printed, Decl.printed, below_module, ofItems,
      Item.printedEach_eq_map, Attr.printedEach_eq_map]
    exact ih _ _ _ rfl _ _
  case refine_2 =>
    rintro s start i other path items innerAttrs' rfl siblings innerAttrs
    rw [below_of_not_module other, Item.placed.eq_2 _ _ _ other, ← List.singleton_append, List.filter_append,
      filter_declaresFragment_map, List.append_nil]
    exact forall₂_ofItem? path items siblings innerAttrs innerAttrs' start i
  case refine_3 => exact fun _ _ _ _ _ _ _ _ => .nil
  case refine_4 =>
    rintro s start i is ih ihs path items innerAttrs' rfl siblings innerAttrs
    rw [List.map_cons, belowAll, Item.placedAll, List.filter_append]
    exact List.rel_append (ih _ _ _ rfl _ _) (ihs _ _ _ rfl _ _)

lemma forall₂_ofUnit (m : Model) (unit : Nat) (u : SourceUnit) :
    List.Forall₂ (fun f x => TakenFrom u.path f x.1) (ofUnit m unit u) (u.placed.filter m.declaresFragment) := by
  rw [ofUnit_eq, SourceUnit.placed, List.filter_append, filter_declaresFragment_map, List.nil_append]
  exact forall₂_belowAll _ _ _ _ _ _ rfl _ _

/-- The walks agree on a program. -/
lemma forall₂_ofModel (m : Model) :
    List.Forall₂ (fun f (x : SourceUnit × Sighting × Bool) => TakenFrom x.1.path f x.2.1) (ofModel m)
      (m.program.placed.filter fun x => m.declaresFragment x.2) := by
  have units : m.program.placed =
      m.program.units.zipIdx.flatMap fun u => u.1.placed.map fun x => (u.1, x) := by
    rw [Program.placed]
    conv_lhs => rw [← List.zipIdx_map_fst 0 m.program.units, List.flatMap_map]
  rw [ofModel, units, List.filter_flatMap]
  refine List.rel_flatMap (List.forall₂_eq_eq_eq ▸ rfl) ?_
  rintro ⟨u, index⟩ _ rfl
  change List.Forall₂ _ (ofUnit m index u) ((u.placed.map fun x => (u, x)).filter _)
  rw [List.filter_map, List.forall₂_map_right_iff]
  exact forall₂_ofUnit m index u

/-- Fragments stand among the nodes in their order, each at one of its kind, its name and its module, and there is one
for every type that is marked at its node, if it is an item of a file or of a module that is reached through modules
only. -/
theorem exists_orderEmbedding_nodes (m : Model) :
    let fs := ofModel m
    let nodes := (NodeIndex.ofModel m).nodes
    ∃ e : Fin fs.length ↪o Fin nodes.length,
      (∀ i, nodes[e i].kind = fs[i].kind ∧ nodes[e i].name = some fs[i].name ∧
        nodes[e i].modulePath = fs[i].modulePath ∧ nodes[e i].location.file = fs[i].unitPath ∧
          m.program.direct[(e i).val]? = some true) ∧
      ∀ k : Fin nodes.length, m.program.direct[k.val]? = some true → nodes[k].kind.declaresType = true →
        (∃ a ∈ nodes[k].attributes, (m.markers.classify a.resolved).isSome = true) → ∃! i, e i = k := by
  intro fs nodes
  let placed := m.program.placed
  have length : nodes.length = placed.length := by
    change (NodeIndex.nodesOf m).length = _
    rw [NodeIndex.nodesOf_eq, List.length_map, List.length_zipIdx]
  -- a node and the flag beside it are those of what was met at its position
  have node (k : Fin nodes.length) :
      nodes[k] = NodeIndex.nodeOf m placed[Fin.cast length k].1 k placed[Fin.cast length k].2.1 := by
    refine (List.getElem_of_eq (NodeIndex.nodesOf_eq m) k.isLt).trans ?_
    rw [List.getElem_map, List.getElem_zipIdx, Nat.zero_add]
    rfl
  have direct (k : Fin nodes.length) : m.program.direct[k.val]? = some placed[Fin.cast length k].2.2 := by
    rw [Program.direct, List.getElem?_map, List.getElem?_eq_getElem (length ▸ k.isLt)]
    rfl
  obtain ⟨e, taken, all⟩ := exists_orderEmbedding (forall₂_ofModel m)
  refine ⟨e.trans (Fin.castOrderIso length.symm).toOrderEmbedding, fun i => ?_, fun k isDirect type marked => ?_⟩
  · obtain ⟨⟨kind, name, modulePath, unitPath⟩, declares⟩ := taken i
    let k := Fin.cast length.symm (e i)
    change nodes[k].kind = fs[i].kind ∧ nodes[k].name = some fs[i].name ∧ nodes[k].modulePath = fs[i].modulePath ∧
      nodes[k].location.file = fs[i].unitPath ∧ m.program.direct[k.val]? = some true
    rw [node k, direct k]
    exact ⟨kind.symm, name.symm, modulePath.symm, unitPath.symm, congrArg some (Bool.and_eq_true_iff.mp declares).1⟩
  · rw [direct k, Option.some.injEq] at isDirect
    rw [node k] at type marked
    have declares : m.declaresFragment placed[Fin.cast length k].2 = true :=
      Bool.and_eq_true_iff.mpr ⟨isDirect, m.marks_of_node type marked⟩
    obtain ⟨i, there⟩ := all (Fin.cast length k) declares
    refine ⟨i, congrArg (Fin.cast length.symm) there, fun j there' => e.injective ?_⟩
    exact there.trans (congrArg (Fin.cast length) there').symm |>.symm

end Fragment

end SourceGen
