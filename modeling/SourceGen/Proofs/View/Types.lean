import SourceGen.Proofs.Resolution.Paths
import SourceGen.Proofs.View.Fragments

/-!
# Types by their paths

A type is looked up by the path of its module and its name, and the first one of the walk with that path is the answer.
The walk also meets local types, in bodies of functions and of other items, and they are known by the modules around
the body and in it, as if there was no body. So a type that is an item of a module is found exactly if the walk meets no
other type before it that has the same path. Where no module declares two types of one name among its own items, only a
local type can be in the way (`NodeIndex.findType?_eq_iff`, `NodeIndex.not_findType?_localType`).
-/

namespace SourceGen

open SourceGen.Text

/-- Whether two nodes are types of one name in one module. -/
structure NodeView.SameType (a b : NodeView) : Prop where
  type : a.kind.declaresType = true
  type' : b.kind.declaresType = true
  modulePath : a.modulePath = b.modulePath
  name : a.name = b.name

/-- Whether a node is a type that is called by a path. -/
def NodeView.IsType (n : NodeView) (path : String) : Prop := n.kind.declaresType = true ∧ n.qualifiedName = some path

instance (n : NodeView) (path : String) : Decidable (n.IsType path) := inferInstanceAs (Decidable (_ ∧ _))

/-- Whether no module declares two types of one name among its own items. Files for the same module are one. -/
def Program.DeclaresOnce (p : Program) : Prop :=
  (p.modules.flatMap fun M => (M.items.filter fun i => i.kind.declaresType).map fun i => (M.path, i.name?)).Nodup

instance (p : Program) : Decidable p.DeclaresOnce := inferInstanceAs (Decidable (List.Nodup _))

/-- Whether the names of types and of the modules around them have no colon, which separates them in a path. -/
def Model.NamesPlainly (m : Model) : Prop :=
  ∀ n ∈ (NodeIndex.ofModel m).nodes, n.kind.declaresType = true →
    ∀ name ∈ n.modulePath ++ n.name.toList, ':' ∉ name.toList

instance (m : Model) : Decidable m.NamesPlainly := inferInstanceAs (Decidable (∀ n ∈ (NodeIndex.ofModel m).nodes, _))

/-! ### Texts of paths -/

lemma qualify_eq (modulePath : List String) (name : String) :
    qualify modulePath name = joinPath (modulePath ++ [name]) := by
  cases modulePath with
  | nil => rfl
  | cons n ns =>
    change joinPath (n :: ns) ++ "::" ++ name = joinPath (n :: (ns ++ [name]))
    rw [← String.toList_inj, String.toList_append, String.toList_append, Model.toList_joinPath, Model.toList_joinPath,
      List.flatMap_append, List.flatMap_singleton, List.append_assoc, List.append_assoc]
    rfl

/-- Module and name are read off the path of a type, if they have no colons. -/
lemma eq_of_qualify {modulePath modulePath' : List String} {name name' : String}
    (plain : ∀ x ∈ modulePath ++ [name], ':' ∉ x.toList) (plain' : ∀ x ∈ modulePath' ++ [name'], ':' ∉ x.toList)
    (same : qualify modulePath name = qualify modulePath' name') : modulePath = modulePath' ∧ name = name' := by
  rw [qualify_eq, qualify_eq] at same
  obtain ⟨n, ns, eq⟩ :=
    List.exists_cons_of_ne_nil (List.append_ne_nil_of_right_ne_nil modulePath (List.cons_ne_nil name []))
  obtain ⟨n', ns', eq'⟩ :=
    List.exists_cons_of_ne_nil (List.append_ne_nil_of_right_ne_nil modulePath' (List.cons_ne_nil name' []))
  rw [eq] at plain same
  rw [eq'] at plain' same
  have names : modulePath ++ [name] = modulePath' ++ [name'] := by rw [eq, eq', Model.eq_of_joinPath plain plain' same]
  obtain ⟨modules, last⟩ := List.append_inj' names rfl
  exact ⟨modules, List.singleton_inj.mp last⟩

lemma withoutStart_append (start s : String) : withoutStart start (start ++ s) = s := by
  have isPrefix : start.toList.isPrefixOf (start ++ s).toList = true := by
    rw [String.toList_append]
    exact List.isPrefixOf_iff_prefix.mpr (List.prefix_append _ _)
  rw [withoutStart, if_pos isPrefix, String.toList_append, List.drop_left, String.ofList_toList]

/-- The path of a type starts with `crate::` only if the module is called so. -/
lemma withoutStart_qualify {modulePath : List String} {name : String}
    (plain : ∀ x ∈ modulePath ++ [name], ':' ∉ x.toList) (other : modulePath.head? ≠ some "crate") :
    withoutStart "crate::" (qualify modulePath name) = qualify modulePath name := by
  rw [withoutStart, if_neg]
  intro isPrefix
  obtain ⟨rest, eq⟩ := List.isPrefixOf_iff_prefix.mp isPrefix
  cases modulePath with
  | nil =>
    apply plain name (List.mem_singleton_self name)
    change "crate::".toList ++ rest = name.toList at eq
    rw [← eq]
    exact List.mem_append_left _ (by decide)
  | cons n ns =>
    rw [qualify_eq] at eq
    have first := Model.takeWhile_joinPath (plain n List.mem_cons_self) (ns ++ [name])
    rw [← List.cons_append, ← eq] at first
    have crate : "crate".toList = n.toList := first
    exact other (congrArg some (String.toList_inj.mp crate.symm))

/-! ### Own types -/

/-- What is not an item of a module is no own item. -/
lemma filter_map_false (ss : List Sighting) : (ss.map (·, false)).filter (·.2) = [] := by
  refine List.filter_eq_nil_iff.mpr fun x hx => ?_
  obtain ⟨x, -, rfl⟩ := List.mem_map.mp hx
  exact Bool.false_ne_true

/-- What a walk meets as items of modules are the items of the modules in a row of items. -/
lemma Item.perm_placedAll : ∀ (s : Scope) (start : Nat) (is : List Item),
    (((placedAll s start is).filter (·.2)).map fun x => (x.1.scope.modulePath, x.1.item)).Perm
      (is.map (s.modulePath, ·) ++ (modulesAll s.modulePath is).flatMap fun M => M.items.map (M.path, ·)) := by
  refine placedAll.induct
    (fun s start i => (((i.placed s start).filter (·.2)).map fun x => (x.1.scope.modulePath, x.1.item)).Perm
      ((s.modulePath, i) :: (i.modules s.modulePath).flatMap fun M => M.items.map (M.path, ·)))
    _ ?module ?other ?nil ?cons
  case module =>
    intro s start attrs vis isUnsafe name items inside innerStart ih
    rw [placed, modules, List.cons_append, List.filter_cons_of_pos rfl, List.filter_append, filter_map_false,
      List.nil_append, List.map_cons, List.flatMap_cons]
    exact ih.cons _
  case other =>
    intro s start i other
    rw [placed.eq_2 _ _ _ other, modules.eq_2 _ _ other, List.filter_cons_of_pos rfl, filter_map_false]
    exact .refl _
  case nil => exact fun _ _ => .nil
  case cons =>
    intro s start i is ih ihs
    rw [placedAll, modulesAll, List.filter_append, List.map_append, List.map_cons, List.flatMap_append]
    refine (ih.append ihs).trans ?_
    rw [List.cons_append, List.cons_append]
    exact (List.perm_append_comm_assoc _ _ _).cons _

/-- What a walk meets as items of modules in a unit are the items of its modules. -/
lemma SourceUnit.perm_placed (u : SourceUnit) :
    ((u.placed.filter (·.2)).map fun x => (x.1.scope.modulePath, x.1.item)).Perm
      (u.modules.flatMap fun M => M.items.map (M.path, ·)) := by
  rw [placed, List.filter_append, filter_map_false, List.nil_append]
  exact Item.perm_placedAll _ _ _

namespace Program

/-- What a walk meets as items of modules are the items of the modules of a program. -/
lemma perm_placed (p : Program) :
    ((p.placed.filter (·.2.2)).map fun x => (x.2.1.scope.modulePath, x.2.1.item)).Perm
      (p.modules.flatMap fun M => M.items.map (M.path, ·)) := by
  rw [placed, modules, List.filter_flatMap, List.map_flatMap, List.flatMap_assoc]
  refine List.Perm.flatMap_left _ fun u _ => ?_
  rw [List.filter_map, List.map_map]
  exact u.perm_placed

/-- Of two own types of one name in one module, one would be declared a second time. -/
lemma DeclaresOnce.pairwise {p : Program} (once : p.DeclaresOnce) :
    p.placed.Pairwise fun x y => x.2.2 = true → y.2.2 = true →
      x.2.1.item.kind.declaresType = true → y.2.1.item.kind.declaresType = true →
        (x.2.1.scope.modulePath, x.2.1.item.name?) ≠ (y.2.1.scope.modulePath, y.2.1.item.name?) := by
  have types : (((p.placed.filter (·.2.2)).map fun x => (x.2.1.scope.modulePath, x.2.1.item)).filter
      (·.2.kind.declaresType)).map (fun y => (y.1, y.2.name?)) |>.Nodup := by
    refine ((p.perm_placed.filter _).map _).nodup_iff.mpr ?_
    rw [List.filter_flatMap, List.map_flatMap]
    simp only [List.filter_map, List.map_map]
    exact once
  rw [List.Nodup, List.pairwise_map, List.pairwise_filter, List.pairwise_map, List.pairwise_filter] at types
  exact types.imp fun ne own own' type type' => ne own own' type type'

end Program

/-! ### Nodes -/

/-- The first entry of a list that satisfies a condition which a given one satisfies. -/
lemma exists_first {α : Type} {xs : List α} {p : α → Bool} {k : Fin xs.length} (there : p (xs.get k) = true) :
    ∃ j ≤ k, p (xs.get j) = true ∧ xs.find? p = some (xs.get j) ∧ ∀ i < j, p (xs.get i) = false := by
  obtain ⟨x, found⟩ := Option.isSome_iff_exists.mp (List.find?_isSome.mpr ⟨xs.get k, List.get_mem _ _, there⟩)
  obtain ⟨holds, j, hj, rfl, before⟩ := List.find?_eq_some_iff_getElem.mp found
  refine ⟨⟨j, hj⟩, ?_, holds, found, fun i hi => ?_⟩
  · by_contra later
    have none : (!p (xs.get k)) = true := before k (not_le.mp later)
    rw [there] at none
    cases none
  · exact Bool.not_eq_true' _ |>.mp (before i hi)

lemma NodeKind.declaresSymbol_of_type {kind : NodeKind} (type : kind.declaresType = true) :
    kind.declaresSymbol = true := by
  cases kind with
  | struct | enum | union | trait => rfl
  | _ => cases type

namespace NodeIndex

variable {m : Model}

lemma getElem?_nodes (m : Model) (k : Nat) :
    (ofModel m).nodes[k]? = m.program.placed[k]?.map fun x => nodeOf m x.1 k x.2.1 := by
  change (nodesOf m)[k]? = _
  rw [nodesOf_eq, List.getElem?_map, List.getElem?_zipIdx, Option.map_map, Nat.zero_add]
  rfl

lemma getElem?_direct (p : Program) (k : Nat) : p.direct[k]? = p.placed[k]?.map (·.2.2) := List.getElem?_map

/-- What is at the position of a node. -/
lemma exists_placed (k : Fin (ofModel m).nodes.length) : ∃ x, m.program.placed[k.val]? = some x ∧
    (ofModel m).nodes.get k = nodeOf m x.1 k x.2.1 ∧ m.program.direct[k.val]? = some x.2.2 := by
  have there : (ofModel m).nodes[k.val]? = some ((ofModel m).nodes.get k) := List.getElem?_eq_getElem k.isLt
  rw [getElem?_nodes] at there
  obtain ⟨x, placed, node⟩ := Option.map_eq_some_iff.mp there
  exact ⟨x, placed, node.symm, by rw [getElem?_direct, placed]; rfl⟩

/-- A symbol says what its node says. -/
lemma spec_of_symbolOf {n : NodeView} {t : Symbol} (symbol : symbolOf n = some t) :
    t.node = n.id ∧ t.kind = n.kind ∧ n.qualifiedName = some t.path := by
  cases named : n.name with
  | none =>
    rw [symbolOf, named] at symbol
    cases symbol
  | some name =>
    rw [symbolOf, named] at symbol
    obtain ⟨-, same⟩ := Option.ite_none_right_eq_some.mp symbol
    cases same
    refine ⟨rfl, rfl, ?_⟩
    rw [NodeView.qualifiedName, named]
    rfl

lemma exists_symbolOf_of_name {n : NodeView} {name : String} (named : n.name = some name)
    (type : n.kind.declaresType = true) : ∃ t, symbolOf n = some t := by
  rw [symbolOf, named]
  exact ⟨_, if_pos (NodeKind.declaresSymbol_of_type type)⟩

/-- A type has a symbol. -/
lemma exists_symbolOf {k : Fin (ofModel m).nodes.length} (type : ((ofModel m).nodes.get k).kind.declaresType = true) :
    ∃ t, symbolOf ((ofModel m).nodes.get k) = some t ∧ t.node = k := by
  obtain ⟨⟨u, x, own⟩, -, node, -⟩ := exists_placed k
  rw [node] at type ⊢
  have type' : x.item.kind.declaresType = true := type
  rw [Item.declaresType_kind] at type'
  obtain ⟨⟨kind, name, generic⟩, declares⟩ := Option.isSome_iff_exists.mp type'
  have named : (nodeOf m u k x).name = some name := (Item.spec_of_nominal? declares).2.symm
  obtain ⟨t, symbol⟩ := exists_symbolOf_of_name named type
  exact ⟨t, symbol, (spec_of_symbolOf symbol).1⟩

/-- A type is called by a path if its symbol is. -/
lemma any_symbolOf_iff {n : NodeView} {path : String} :
    (symbolOf n).any (fun t => t.kind.declaresType && t.path == path) = true ↔ n.IsType path := by
  rw [Option.any_eq_true]
  constructor
  · rintro ⟨t, symbol, is⟩
    obtain ⟨type, path⟩ := Bool.and_eq_true_iff.mp is
    obtain ⟨-, kind, qualified⟩ := spec_of_symbolOf symbol
    exact ⟨kind ▸ type, eq_of_beq path ▸ qualified⟩
  · rintro ⟨type, qualified⟩
    obtain ⟨name, named, -⟩ := Option.map_eq_some_iff.mp qualified
    obtain ⟨t, symbol⟩ := exists_symbolOf_of_name named type
    obtain ⟨-, kind, qualified'⟩ := spec_of_symbolOf symbol
    refine ⟨t, symbol, Bool.and_eq_true_iff.mpr ⟨kind.symm ▸ type, ?_⟩⟩
    exact beq_iff_eq.mpr (Option.some.inj (qualified'.symm.trans qualified))

/-- The type that is found is that of the first node which is called by the path. -/
lemma findType?_eq (m : Model) (written : String) :
    (ofModel m).context.findType? written =
      ((ofModel m).nodes.find? fun n => decide (n.IsType (withoutStart "crate::" written))).bind symbolOf := by
  change ((ofModel m).nodes.filterMap symbolOf).find? _ = _
  rw [List.find?_filterMap]
  congr 2
  funext n
  exact Bool.eq_iff_iff.mpr (any_symbolOf_iff.trans decide_eq_true_iff.symm)

/-- A type is found unless another one is met before it that is called by its path, and otherwise the first one of them
is. -/
lemma findType?_spec {k : Fin (ofModel m).nodes.length} {t : Symbol}
    (type : ((ofModel m).nodes.get k).kind.declaresType = true) (symbol : symbolOf ((ofModel m).nodes.get k) = some t)
    {written : String} (names : withoutStart "crate::" written = t.path) :
    (∃ j ≤ k, ((ofModel m).nodes.get j).IsType t.path ∧
      (ofModel m).context.findType? written = symbolOf ((ofModel m).nodes.get j)) ∧
    ((ofModel m).context.findType? written = some t ↔ ∀ j < k, ¬ ((ofModel m).nodes.get j).IsType t.path) := by
  have there : ((ofModel m).nodes.get k).IsType t.path := ⟨type, (spec_of_symbolOf symbol).2.2⟩
  obtain ⟨j, before, isType, found, first⟩ :=
    @exists_first _ (ofModel m).nodes (fun n => decide (n.IsType t.path)) k (decide_eq_true there)
  have found' : (ofModel m).context.findType? written = symbolOf ((ofModel m).nodes.get j) := by
    rw [findType?_eq, names, found]
    rfl
  refine ⟨⟨j, before, of_decide_eq_true isType, found'⟩, ?_⟩
  rw [found']
  constructor
  · intro same
    -- a symbol says at which position its node is
    obtain ⟨t', symbol', place'⟩ := exists_symbolOf (of_decide_eq_true isType).1
    obtain ⟨t'', symbol'', place⟩ := exists_symbolOf type
    have eq : t' = t'' := Option.some.inj (symbol'.symm.trans (same.trans (symbol.symm.trans symbol'')))
    obtain rfl : j = k := Fin.ext (place'.symm.trans (eq ▸ place))
    exact fun i less => of_decide_eq_false (first i less)
  · intro none
    obtain rfl : j = k := before.antisymm (not_lt.mp fun less => none j less (of_decide_eq_true isType))
    exact symbol

section

variable {n n' : NodeView} {t : Symbol}

/-- The names in the path of a type have no colons. -/
lemma plain_of_name (plain : m.NamesPlainly) (there : n ∈ (ofModel m).nodes) (type : n.kind.declaresType = true)
    {name : String} (named : n.name = some name) : ∀ x ∈ n.modulePath ++ [name], ':' ∉ x.toList := by
  have all := plain n there type
  rw [named] at all
  exact all

/-- The path of a type may be written with `crate::` or without. -/
lemma withoutStart_of_written (plain : m.NamesPlainly) (there : n ∈ (ofModel m).nodes)
    (type : n.kind.declaresType = true) (symbol : symbolOf n = some t) (other : n.modulePath.head? ≠ some "crate")
    {written : String} (isPath : written ∈ [t.path, "crate::" ++ t.path]) :
    withoutStart "crate::" written = t.path := by
  obtain ⟨name, named, path⟩ := Option.map_eq_some_iff.mp (spec_of_symbolOf symbol).2.2
  obtain rfl | rfl := List.mem_pair.mp isPath
  · rw [← path]
    exact withoutStart_qualify (plain_of_name plain there type named) other
  · exact withoutStart_append _ _

/-- A node is called by the path of a type if it is a type of this name in this module, as names have no colons. -/
lemma isType_iff_sameType (plain : m.NamesPlainly) (there : n ∈ (ofModel m).nodes) (there' : n' ∈ (ofModel m).nodes)
    (type : n.kind.declaresType = true) (symbol : symbolOf n = some t) : n'.IsType t.path ↔ n'.SameType n := by
  obtain ⟨name, named, path⟩ := Option.map_eq_some_iff.mp (spec_of_symbolOf symbol).2.2
  constructor
  · rintro ⟨type', qualified⟩
    obtain ⟨name', named', path'⟩ := Option.map_eq_some_iff.mp qualified
    obtain ⟨modulePath, same⟩ := eq_of_qualify (plain_of_name plain there' type' named')
      (plain_of_name plain there type named) (path'.trans path.symm)
    exact ⟨type', type, modulePath, named'.trans (congrArg some same |>.trans named.symm)⟩
  · rintro ⟨type', -, modulePath, same⟩
    refine ⟨type', ?_⟩
    rw [NodeView.qualifiedName, modulePath, same, named]
    exact congrArg some path

end

/-- Of two own types of one name in one module, one would be declared a second time. -/
lemma not_sameType_of_declaresOnce (once : m.program.DeclaresOnce) {j k : Fin (ofModel m).nodes.length} (less : j < k)
    (own : m.program.direct[j.val]? = some true) (own' : m.program.direct[k.val]? = some true) :
    ¬ ((ofModel m).nodes.get j).SameType ((ofModel m).nodes.get k) := by
  obtain ⟨x, there, node, direct⟩ := exists_placed j
  obtain ⟨y, there', node', direct'⟩ := exists_placed k
  rw [node, node']
  rintro ⟨type, type', modulePath, name⟩
  obtain ⟨hj, rfl⟩ := List.getElem?_eq_some_iff.mp there
  obtain ⟨hk, rfl⟩ := List.getElem?_eq_some_iff.mp there'
  have ne := List.pairwise_iff_getElem.mp once.pairwise j k hj hk less
  exact ne (Option.some.inj (direct.symm.trans own)) (Option.some.inj (direct'.symm.trans own')) type type'
    (Prod.ext modulePath name)

/-- An item of a module is among the nodes. -/
lemma exists_node {M : SourceModule} {i : Item} (module : M ∈ m.program.modules) (there : i ∈ M.items) :
    ∃ k : Fin (ofModel m).nodes.length, m.program.direct[k.val]? = some true ∧
      ((ofModel m).nodes.get k).kind = i.kind ∧ ((ofModel m).nodes.get k).name = i.name? ∧
        ((ofModel m).nodes.get k).modulePath = M.path := by
  have listed : (M.path, i) ∈ m.program.modules.flatMap fun M => M.items.map (M.path, ·) :=
    List.mem_flatMap.mpr ⟨M, module, List.mem_map_of_mem there⟩
  obtain ⟨⟨u, x, own⟩, placed, eq⟩ := List.mem_map.mp (m.program.perm_placed.mem_iff.mpr listed)
  obtain ⟨placed, isOwn⟩ := List.mem_filter.mp placed
  obtain ⟨k, at_k⟩ := List.mem_iff_getElem?.mp placed
  have node : (ofModel m).nodes[k]? = some (nodeOf m u k x) := by
    rw [getElem?_nodes, at_k]
    rfl
  obtain ⟨within, node⟩ := List.getElem?_eq_some_iff.mp node
  refine ⟨⟨k, within⟩, ?_, ?_⟩
  · rw [getElem?_direct, at_k]
    exact congrArg some isOwn
  · rw [List.get_eq_getElem, node]
    obtain ⟨modulePath, item⟩ := Prod.mk.inj eq
    exact ⟨congrArg Item.kind item, congrArg Item.name? item, modulePath⟩

/-- Every item of a module has a node, and every one that is a type has a symbol. It is found under its path exactly if
the walk meets no other type before it that is called by the path, and otherwise the first one of them is found. So if
names have no colons and no module declares two types of one name, it is found by its path, with or without `crate::`,
unless the walk meets a local type before it that has its name and the path of its module. -/
theorem findType?_eq_iff (m : Model) :
    let nodes := (ofModel m).nodes
    let find := (ofModel m).context.findType?
    (∀ M ∈ m.program.modules, ∀ i ∈ M.items, ∃ k : Fin nodes.length, m.program.direct[k.val]? = some true ∧
      (nodes.get k).kind = i.kind ∧ (nodes.get k).name = i.name? ∧ (nodes.get k).modulePath = M.path) ∧
    ∀ k : Fin nodes.length, m.program.direct[k.val]? = some true → (nodes.get k).kind.declaresType = true →
      ∃ t, symbolOf (nodes.get k) = some t ∧
        (∀ written, withoutStart "crate::" written = t.path →
          (∃ j ≤ k, (nodes.get j).IsType t.path ∧ find written = symbolOf (nodes.get j)) ∧
          (find written = some t ↔ ∀ j < k, ¬ (nodes.get j).IsType t.path)) ∧
        (m.program.DeclaresOnce → m.NamesPlainly → (nodes.get k).modulePath.head? ≠ some "crate" →
          ∀ written ∈ [t.path, "crate::" ++ t.path], find written = some t ↔
            ∀ j < k, m.program.direct[j.val]? = some false → ¬ (nodes.get j).SameType (nodes.get k)) := by
  intro nodes find
  refine ⟨fun M module i there => exists_node module there, fun k own type => ?_⟩
  obtain ⟨t, symbol, -⟩ := exists_symbolOf type
  refine ⟨t, symbol, fun written names => findType?_spec type symbol names, fun once plain other written there => ?_⟩
  have names := withoutStart_of_written plain (List.get_mem _ _) type symbol other there
  rw [(findType?_spec type symbol names).2]
  refine forall₂_congr fun j less => ?_
  rw [isType_iff_sameType plain (List.get_mem _ _) (List.get_mem _ _) type symbol]
  constructor
  · exact fun none _ => none
  · intro none same
    obtain ⟨x, -, -, direct⟩ := exists_placed j
    cases flag : x.2.2 with
    | true => exact not_sameType_of_declaresOnce once less (flag ▸ direct) own same
    | false => exact none (flag ▸ direct) same

/-- A type of a module is found if a body in the module declares one of its name after it. -/
theorem findType?_eq_iff_laterLocalType :
    let text := "mod a \x7b\n    struct G;\n    fn f() \x7b\n        struct G;\n    \x7d\n\x7d\n"
    ∃ m u t, Model.ofText? text = some m ∧ m.program.units = [u] ∧ m.program.DeclaresOnce ∧ m.NamesPlainly ∧
      m.program.direct = [true, true, true, false] ∧ (ofModel m).nodes[1]?.bind symbolOf = some t ∧ t.path = "a::G" ∧
      (ofModel m).context.findType? "a::G" = some t ∧ (ofModel m).context.findType? "crate::a::G" = some t := by
  intro text
  obtain ⟨m, u, built, units, computed⟩ := @Model.exists_of_ofText? text
    (fun m _ => decide (m.program.DeclaresOnce ∧ m.NamesPlainly ∧ m.program.direct = [true, true, true, false] ∧
      (ofModel m).nodes[1]?.map (fun n => (n.kind.declaresType, n.modulePath, n.name)) = some (true, ["a"], some "G")))
    (by decide +kernel)
  obtain ⟨once, plain, direct, node⟩ := of_decide_eq_true computed
  obtain ⟨n, at_one, eq⟩ := Option.map_eq_some_iff.mp node
  obtain ⟨type, eq⟩ := Prod.mk.inj eq
  obtain ⟨modulePath, named⟩ := Prod.mk.inj eq
  obtain ⟨within, getElem⟩ := List.getElem?_eq_some_iff.mp at_one
  have get : (ofModel m).nodes.get ⟨1, within⟩ = n := getElem
  obtain ⟨-, every⟩ := findType?_eq_iff m
  obtain ⟨t, symbol, -, found⟩ := every ⟨1, within⟩ (by rw [direct]; rfl) (get ▸ type)
  rw [get] at symbol found
  have path : t.path = "a::G" := by
    have qualified := (spec_of_symbolOf symbol).2.2
    rw [NodeView.qualifiedName, modulePath, named] at qualified
    exact (Option.some.inj qualified).symm
  have other : n.modulePath.head? ≠ some "crate" := by
    rw [modulePath]
    decide
  have none : ∀ j < (⟨1, within⟩ : Fin (ofModel m).nodes.length), m.program.direct[j.val]? = some false →
      ¬ ((ofModel m).nodes.get j).SameType n := by
    intro j less isLocal
    have first : j.val = 0 := Nat.lt_one_iff.mp less
    rw [direct, first] at isLocal
    cases isLocal
  have found' (written : String) (there : written ∈ ["a::G", "crate::a::G"]) :
      (ofModel m).context.findType? written = some t :=
    (found once plain other written (path ▸ there)).mpr none
  refine ⟨m, u, t, built, units, once, plain, direct, ?_, path, found' _ List.mem_cons_self, found' _ (by decide)⟩
  rw [at_one]
  exact symbol

/-- A local type hides a type of a module that has its name. -/
theorem not_findType?_localType :
    ∃ m u, Model.ofText? "fn f() \x7b\n    struct G;\n\x7d\nstruct G;\n" = some m ∧ m.program.units = [u] ∧
      m.program.DeclaresOnce ∧ m.NamesPlainly ∧ m.program.direct = [true, false, true] ∧
      ((ofModel m).nodes[2]?.bind symbolOf).map (fun t => (t.path, t.node)) = some ("G", 2) ∧
      ∀ written ∈ ["G", "crate::G"], ((ofModel m).context.findType? written).map Symbol.node = some 1 := by
  obtain ⟨m, u, built, units, computed⟩ := @Model.exists_of_ofText? "fn f() \x7b\n    struct G;\n\x7d\nstruct G;\n"
    (fun m _ => decide (m.program.DeclaresOnce ∧ m.NamesPlainly ∧ m.program.direct = [true, false, true] ∧
      ((ofModel m).nodes[2]?.bind symbolOf).map (fun t => (t.path, t.node)) = some ("G", 2) ∧
      ∀ written ∈ ["G", "crate::G"], ((ofModel m).context.findType? written).map Symbol.node = some 1))
    (by decide +kernel)
  exact ⟨m, u, built, units, of_decide_eq_true computed⟩

end NodeIndex

end SourceGen
