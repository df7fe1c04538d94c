import SourceGen.Assembly.Reading
import SourceGen.Proofs.Assembly.Crate
import SourceGen.Proofs.Assembly.Tree
import SourceGen.Proofs.Text.Quoted

/-!
# What stands in a generated crate

The items of a module of a generated crate are those of the tree of modules at its path (`itemsAt_file`): besides
what the crate adds of its own, the declarations and implementations of the fragments of that path. The
entry point calls the offering modules, in the order in which the tree lists the labels.
`Assembly.file_faithful` puts this together.
-/

namespace SourceGen

/-! ### Kinds of items -/

namespace Item

/-- Whether an item is neither a module with a body nor a function. -/
structure IsSimple (i : Item) : Prop where
  module : i.moduleBody? = none
  function : ∀ name, i.bodyOf? name = none

variable {i : Item}

lemma spec_of_isImport (h : i.isImport = true) :
    i.IsSimple ∧ i.declaresType = false ∧ i.isImpl = false := by
  obtain ⟨attrs, vis, decl⟩ := i
  cases decl with
  | useDecl => exact ⟨⟨rfl, fun _ => rfl⟩, rfl, rfl⟩
  | externCrate => exact ⟨⟨rfl, fun _ => rfl⟩, rfl, rfl⟩
  | _ => cases h

lemma spec_of_isImpl (h : i.isImpl = true) : i.IsSimple ∧ i.declaresType = false := by
  obtain ⟨attrs, vis, decl⟩ := i
  cases decl with
  | impl => exact ⟨⟨rfl, fun _ => rfl⟩, rfl⟩
  | _ => cases h

lemma spec_of_declaresType (h : i.declaresType = true) : i.IsSimple ∧ i.isImpl = false := by
  obtain ⟨attrs, vis, decl⟩ := i
  cases decl with
  | data kind => exact ⟨⟨rfl, fun _ => rfl⟩, rfl⟩
  | trait => exact ⟨⟨rfl, fun _ => rfl⟩, rfl⟩
  | _ => cases h

lemma isImport_of_isGlobalImport (h : i.isGlobalImport = true) : i.isImport = true := by
  obtain ⟨attrs, vis, decl⟩ := i
  cases decl with
  | useDecl => rfl
  | _ => cases h

lemma isImpl_of_isImplFor {name : String} (h : i.isImplFor name = true) : i.isImpl = true := by
  obtain ⟨attrs, vis, decl⟩ := i
  cases decl with
  | impl => rfl
  | _ => cases h

lemma itemsAt_append (step : String) (path : List String) (is js : List Item) :
    itemsAt (step :: path) (is ++ js) = itemsAt (step :: path) is ++ itemsAt (step :: path) js := by
  rw [itemsAt, List.filterMap_append, List.flatMap_append, itemsAt, itemsAt]

lemma itemsAt_of_isSimple {is : List Item} (simple : ∀ i ∈ is, i.IsSimple) (step : String)
    (path : List String) : itemsAt (step :: path) is = [] := by
  rw [itemsAt, List.filterMap_eq_nil_iff.mpr fun i hi => (simple i hi).module]
  rfl

end Item

/-! ### Collected fragments -/

namespace Fragment

/-- What collecting makes sure of. -/
structure Collected (f : Fragment) : Prop where
  named : f.WellNamed
  impls : ∀ i ∈ f.impls, i.isImpl = true
  imports : ∀ i ∈ f.imports, i.isImport = true

lemma Collected.declaresType {f : Fragment} (h : f.Collected) : f.declaration.declaresType = true := by
  rw [Item.declaresType, h.named]
  rfl

variable {m : Model} {unit : Nat} {unitPath : String}

/-- The fragment of an item is collected in a scope whose imports are imports. -/
lemma collected_of_ofItem? {s : Scope} (imports : ∀ i ∈ s.imports, i.isImport = true) {siblings : List Item}
    {i : Item} {f : Fragment} (h : ofItem? m unit unitPath s siblings i = some f) : f.Collected := by
  have named := wellNamed_of_ofItem? h
  obtain ⟨_, name, _, _, _, -, -, rfl⟩ := exists_of_ofItem? h
  exact ⟨named, fun j hj => Item.isImpl_of_isImplFor (List.mem_filter.mp hj).2, imports⟩

lemma imports_ofItems (modulePath : List String) (items : List Item) (innerAttrs : List Attr) :
    ∀ i ∈ (Scope.ofItems modulePath items innerAttrs).imports, i.isImport = true :=
  fun _ hi => (List.mem_filter.mp hi).2

lemma collected_of_mem_ofUnit {index : Nat} {u : SourceUnit} {f : Fragment} (h : f ∈ ofUnit m index u) :
    f.Collected := by
  obtain ⟨_, siblings, i, taken, rfl | ⟨path, items, innerAttrs, -, rfl⟩⟩ := exists_of_mem_belowAll _ _ _ h
  · exact collected_of_ofItem? (imports_ofItems _ _ _) taken
  · exact collected_of_ofItem? (imports_ofItems _ _ _) taken

end Fragment

namespace Assembly

open ModuleTree

/-! ### The items of modules -/

lemma moduleItems_eq (ms : List ModuleTree) :
    moduleItems ms =
      ms.map fun m => .mk m.content.innerAttrs .pub (.module false m.name (some (items m))) := by
  induction ms with
  | nil => rfl
  | cons m ms ih => rw [moduleItems, ih, List.map_cons]

/-- A search by name among modules in the order of their names finds one module. -/
lemma flatMap_child {α : Type} {ms : List ModuleTree} (sorted : Sorted ms) (step : String)
    (f : ModuleTree → List α) :
    (ms.flatMap fun m => if m.name = step then f m else []) = ((child? step ms).map f).getD [] := by
  induction sorted with
  | nil => rfl
  | @cons m ms before sorted ih =>
    rw [List.flatMap_cons, ih]
    by_cases here : m.name = step
    · have behind : child? step ms = none := child?_eq_none fun m' hm' => here ▸ before m' hm'
      have found : child? step (m :: ms) = some m := List.find?_cons_of_pos (by simpa using here)
      rw [if_pos here, behind, found]
      exact List.append_nil _
    · have skip : child? step (m :: ms) = child? step ms := List.find?_cons_of_neg (by simpa using here)
      rw [if_neg here, skip]
      rfl

/-- The items at a path of a tree are those of its module there. -/
lemma itemsAt_items {t : ModuleTree} (ordered : t.Ordered)
    (simple : ∀ path, ∀ i ∈ contentItems (t.contentAt path), i.moduleBody? = none) (path : List String) :
    Item.itemsAt path (items t) = ((t.at? path).map items).getD [] := by
  induction path generalizing t with
  | nil => rfl
  | cons step path ih =>
    obtain @⟨name, content, children, sorted, below⟩ := ordered
    have own : (contentItems content).filterMap Item.moduleBody? = [] :=
      List.filterMap_eq_nil_iff.mpr (simple [])
    have modules : (moduleItems children).filterMap Item.moduleBody? = children.map fun m => (m.name, items m) := by
      rw [moduleItems_eq, List.filterMap_map]
      change children.filterMap (some ∘ fun m => (m.name, items m)) = _
      rw [List.filterMap_eq_map]
    rw [items, Item.itemsAt, List.filterMap_append, own, modules, List.nil_append, List.flatMap_map,
      flatMap_child sorted step fun m => Item.itemsAt path (items m), at?, ModuleTree.children]
    cases found : child? step children with
    | none => rfl
    | some m =>
      have hm := List.mem_of_find?_eq_some found
      have named : m.name = step := by simpa using List.find?_some found
      refine ih (below m hm) fun q i hi => ?_
      have same : (ModuleTree.mk name content children).contentAt (m.name :: q) = m.contentAt q := by
        rw [contentAt, at?_of_mem sorted hm]
        rfl
      exact simple (m.name :: q) i (same ▸ hi)

/-! ### The items of a crate -/

variable {fs : List Fragment} {g : GlobalImports}

/-- The fragments of a module. -/
abbrev fragmentsAt (fs : List Fragment) (path : List String) : List Fragment :=
  fs.filter (·.modulePath = path)

lemma isSimple_of_mem_items (collected : ∀ f ∈ fs, f.Collected) {i : Item}
    (hi : i ∈ (ModuleContent.empty.addAll fs).items) : i.IsSimple ∧ (i.declaresType = true ∨ i.isImpl = true) := by
  obtain there | ⟨f, hf, rfl | there⟩ := ModuleContent.mem_items_addAll.mp hi
  · exact absurd there List.not_mem_nil
  · have type := (collected f hf).declaresType
    exact ⟨(Item.spec_of_declaresType type).1, .inl type⟩
  · have impl := (collected f hf).impls i there
    exact ⟨(Item.spec_of_isImpl impl).1, .inr impl⟩

lemma isImport_of_mem_imports (collected : ∀ f ∈ fs, f.Collected) {i : Item}
    (hi : i ∈ (ModuleContent.empty.addAll fs).imports) : i.isImport = true := by
  obtain there | ⟨f, hf, there⟩ := ModuleContent.mem_imports_addAll.mp hi
  · exact absurd there List.not_mem_nil
  · exact (collected f hf).imports i there

/-- What a crate adds to the end of the items of a module: the module of the global imports and the entry points
to the root, the global imports to their module. -/
def addedAt (t : ModuleTree) (g : GlobalImports) : List String → List Item
  | [] => [contextItem g, manifestItem, discoverItem (t.offering [])]
  | [name] => if name = contextModule then g.imports else []
  | _ => []

/-- The items of a module are those that it adds of its own around what its fragments bring along, and the modules
below it. -/
lemma items_eq (t : ModuleTree) :
    items t = (contextImport :: t.content.imports) ++ t.content.items ++
      ((if t.content.offers.isEmpty then [] else [offerItem t.content.offers]) ++ moduleItems t.children) := by
  obtain ⟨name, content, children⟩ := t
  rw [items, contentItems, ← List.append_assoc]
  rfl

/-- What a module adds of its own is no module. -/
lemma moduleBody?_contentItems (collected : ∀ f ∈ fs, f.Collected) {i : Item}
    (hi : i ∈ contentItems (ModuleContent.empty.addAll fs)) : i.moduleBody? = none := by
  rw [contentItems, List.append_assoc, List.cons_append] at hi
  cases List.mem_cons.mp hi with
  | inl context => exact context ▸ rfl
  | inr hi =>
    cases List.mem_append.mp hi with
    | inl import_ => exact (Item.spec_of_isImport (isImport_of_mem_imports collected import_)).1.module
    | inr hi =>
      cases List.mem_append.mp hi with
      | inl own => exact (isSimple_of_mem_items collected own).1.module
      | inr offer =>
        split at offer
        case isTrue => exact absurd offer List.not_mem_nil
        case isFalse => exact List.mem_singleton.mp offer ▸ rfl

/-- The items at a path of a crate are those of the tree, and what the crate adds. -/
lemma itemsAt_file (collected : ∀ f ∈ fs, f.Collected) (imports : ∀ i ∈ g.imports, i.isImport = true)
    (path : List String) :
    let t := ModuleTree.ofFragments fs
    Item.itemsAt path (file t g).items = ((t.at? path).map items).getD [] ++ addedAt t g path := by
  intro t
  have simple (q : List String) (i : Item) (hi : i ∈ contentItems (t.contentAt q)) : i.moduleBody? = none := by
    rw [contentAt_ofFragments] at hi
    exact moduleBody?_contentItems (fun f hf => collected f (List.mem_filter.mp hf).1) hi
  have tree := itemsAt_items (ordered_ofFragments fs) simple path
  cases path with
  | nil => rfl
  | cons step path =>
    change Item.itemsAt (step :: path) (items t ++ [contextItem g, manifestItem, discoverItem (t.offering [])]) = _
    rw [Item.itemsAt_append, tree]
    congr 1
    have modules : [contextItem g, manifestItem, discoverItem (t.offering [])].filterMap Item.moduleBody? =
        [(contextModule, g.imports)] := rfl
    rw [Item.itemsAt, modules, List.flatMap_singleton]
    cases path with
    | nil =>
      change (if contextModule = step then g.imports else []) = if step = contextModule then g.imports else []
      simp only [eq_comm]
    | cons step' path =>
      change (if contextModule = step then _ else []) = []
      rw [Item.itemsAt_of_isSimple fun i hi => (Item.spec_of_isImport (imports i hi)).1, ite_self]

/-- The items at a path of a crate: what the fragments of the path bring along, between items that are neither types
nor implementations. -/
lemma itemsAt_file_parts (collected : ∀ f ∈ fs, f.Collected) (imports : ∀ i ∈ g.imports, i.isImport = true)
    (path : List String) :
    ∃ before after, Item.itemsAt path (file (ModuleTree.ofFragments fs) g).items =
        before ++ (ModuleContent.empty.addAll (fragmentsAt fs path)).items ++ after ∧
      ∀ i ∈ before ++ after, i.declaresType = false ∧ i.isImpl = false := by
  have added : ∀ i ∈ addedAt (ModuleTree.ofFragments fs) g path, i.declaresType = false ∧ i.isImpl = false := by
    intro i hi
    unfold addedAt at hi
    split at hi
    case h_1 =>
      simp only [List.mem_cons, List.not_mem_nil, or_false] at hi
      obtain rfl | rfl | rfl := hi <;> exact ⟨rfl, rfl⟩
    case h_2 =>
      split at hi
      case isTrue => exact (Item.spec_of_isImport (imports i hi)).2
      case isFalse => exact absurd hi List.not_mem_nil
    case h_3 => exact absurd hi List.not_mem_nil
  -- where the tree has no module, there is only what the crate adds
  have content := contentAt_ofFragments fs path
  rw [itemsAt_file collected imports path, ← content]
  cases found : (ModuleTree.ofFragments fs).at? path with
  | none =>
    rw [contentAt, found]
    exact ⟨[], _, rfl, added⟩
  | some m =>
    have here : (ModuleTree.ofFragments fs).contentAt path = m.content := by rw [contentAt, found]; rfl
    rw [here, Option.map_some, Option.getD_some, items_eq, List.append_assoc]
    refine ⟨_, _, rfl, ?_⟩
    intro i hi
    rw [List.mem_append, List.mem_append, List.mem_append] at hi
    obtain own | (offer | module) | last := hi
    · cases List.mem_cons.mp own with
      | inl context => exact context ▸ ⟨rfl, rfl⟩
      | inr import_ =>
        rw [← here, content] at import_
        have collected_at : ∀ f ∈ fragmentsAt fs path, f.Collected := fun f hf => collected f (List.mem_filter.mp hf).1
        exact (Item.spec_of_isImport (isImport_of_mem_imports collected_at import_)).2
    · split at offer
      case isTrue => exact absurd offer List.not_mem_nil
      case isFalse => exact List.mem_singleton.mp offer ▸ ⟨rfl, rfl⟩
    · rw [moduleItems_eq] at module
      obtain ⟨m', -, rfl⟩ := List.mem_map.mp module
      exact ⟨rfl, rfl⟩
    · exact added i last

/-! ### The functions of a crate -/

/-- The functions at a path of a crate are among the offering function of the module and what the crate adds. -/
lemma bodiesAt_file (collected : ∀ f ∈ fs, f.Collected) (imports : ∀ i ∈ g.imports, i.isImport = true)
    (path : List String) (name : String) :
    let t := ModuleTree.ofFragments fs
    let offers := (t.contentAt path).offers
    bodiesAt (file t g).items path name =
      (if offers.isEmpty then [] else [offerItem offers]).filterMap (Item.bodyOf? name) ++
        (addedAt t g path).filterMap (Item.bodyOf? name) := by
  intro t offers
  have content := contentAt_ofFragments fs path
  rw [bodiesAt, itemsAt_file collected imports path, List.filterMap_append]
  congr 1
  cases found : t.at? path with
  | none =>
    have none_offered : offers = [] := by
      change (t.contentAt path).offers = []
      rw [contentAt, found]
      rfl
    rw [none_offered]
    rfl
  | some m =>
    have here : t.contentAt path = m.content := by rw [contentAt, found]; rfl
    have collected_at : ∀ f ∈ fragmentsAt fs path, f.Collected := fun f hf => collected f (List.mem_filter.mp hf).1
    -- imports, what fragments bring along and modules have no bodies
    have before : (contextImport :: m.content.imports).filterMap (Item.bodyOf? name) = [] := by
      refine List.filterMap_eq_nil_iff.mpr fun i hi => ?_
      cases List.mem_cons.mp hi with
      | inl context => exact context ▸ rfl
      | inr import_ =>
        rw [← here, content] at import_
        exact (Item.spec_of_isImport (isImport_of_mem_imports collected_at import_)).1.function name
    have own : m.content.items.filterMap (Item.bodyOf? name) = [] := by
      refine List.filterMap_eq_nil_iff.mpr fun i hi => ?_
      rw [← here, content] at hi
      exact (isSimple_of_mem_items collected_at hi).1.function name
    have modules : (moduleItems m.children).filterMap (Item.bodyOf? name) = [] := by
      refine List.filterMap_eq_nil_iff.mpr fun i hi => ?_
      rw [moduleItems_eq] at hi
      obtain ⟨m', -, rfl⟩ := List.mem_map.mp hi
      rfl
    rw [Option.map_some, Option.getD_some, items_eq, List.filterMap_append, List.filterMap_append,
      List.filterMap_append, before, own, modules, List.nil_append, List.nil_append, List.append_nil, ← here]

lemma bodyOf?_function (attrs : List Attr) (vis : Visibility) (convention : Option String) (n : String)
    (params : List (String × Node)) (returns : Option Node) (body : List Node) (name : String) :
    (Item.mk attrs vis (.function convention n params returns body)).bodyOf? name =
      if n = name then some body else none := rfl

/-- What the crate adds to a module has no function of the name of those that offer. -/
lemma filterMap_addedAt (imports : ∀ i ∈ g.imports, i.isImport = true) (t : ModuleTree) (path : List String) :
    (addedAt t g path).filterMap (Item.bodyOf? offerFunction) = [] := by
  unfold addedAt
  split
  case h_1 =>
    have manifest : manifestItem.bodyOf? offerFunction = none :=
      (bodyOf?_function ..).trans (if_neg (by decide))
    have discover : (discoverItem (t.offering [])).bodyOf? offerFunction = none :=
      (bodyOf?_function ..).trans (if_neg (by decide))
    have context : (contextItem g).bodyOf? offerFunction = none := rfl
    simp only [List.filterMap_cons, manifest, discover, context, List.filterMap_nil]
  case h_2 =>
    split
    case isTrue =>
      exact List.filterMap_eq_nil_iff.mpr fun i hi => (Item.spec_of_isImport (imports i hi)).1.function _
    case isFalse => rfl
  case h_3 => rfl

lemma namesOf?_names {ns : List String} (some_name : ns ≠ []) : Node.namesOf? (Node.names ns) = some ns := by
  induction ns with
  | nil => exact absurd rfl some_name
  | cons n ns ih =>
    cases ns with
    | nil => rfl
    | cons n' ns =>
      have rest := ih (List.cons_ne_nil n' ns)
      change (Node.namesOf? (Node.names (n' :: ns))).map (n :: ·) = _
      rw [rest]
      rfl

lemma crateCall?_offerCall (path : List String) : (offerCall path).crateCall? = some (path, offerFunction) := by
  have names : Node.names (["crate"] ++ path ++ [offerFunction]) =
      .leaf (.word "crate") :: .leaf (.op "::") :: Node.names (path ++ [offerFunction]) := by
    cases path with
    | nil => rfl
    | cons => rfl
  change (Node.statement (.call (.form .path (Node.names (["crate"] ++ path ++ [offerFunction]))) _)).crateCall? = _
  rw [names]
  change (Node.namesOf? (Node.names (path ++ [offerFunction]))).bind _ = _
  rw [namesOf?_names (by simp), Option.bind_some, List.getLast?_concat, List.dropLast_concat]
  rfl

/-- The entry point calls what the list of offering modules says. -/
lemma crateCalls_discoverItem (offering : List (List String)) :
    ∃ body, (discoverItem offering).bodyOf? discoverEntryPoint = some body ∧
      body.filterMap Node.crateCall? = offering.map (·, offerFunction) := by
  obtain ⟨first, last, discover, silent, silent'⟩ : ∃ first last,
      (discoverItem offering).bodyOf? discoverEntryPoint =
        some (first :: offering.map offerCall ++ [last]) ∧
      first.crateCall? = none ∧ last.crateCall? = none :=
    ⟨_, _, (bodyOf?_function ..).trans (if_pos rfl), rfl, rfl⟩
  refine ⟨_, discover, ?_⟩
  rw [List.filterMap_append, List.filterMap_cons_none silent, List.filterMap_cons_none silent',
    List.filterMap_nil, List.append_nil, List.filterMap_map]
  exact List.filterMap_eq_map_iff_forall_eq_some.mpr fun path _ => crateCall?_offerCall path

lemma calls_file (collected : ∀ f ∈ fs, f.Collected) (imports : ∀ i ∈ g.imports, i.isImport = true) :
    calls (file (ofFragments fs) g).items = ((ofFragments fs).offering []).map (·, offerFunction) := by
  have offer (offers : List Offer) : (offerItem offers).bodyOf? discoverEntryPoint = none :=
    (bodyOf?_function ..).trans (if_neg (by decide))
  have offers (offers : List Offer) :
      (if offers.isEmpty then [] else [offerItem offers]).filterMap (Item.bodyOf? discoverEntryPoint) = [] := by
    split
    case isTrue => rfl
    case isFalse => rw [List.filterMap_cons_none (offer offers), List.filterMap_nil]
  have manifest : manifestItem.bodyOf? discoverEntryPoint = none :=
    (bodyOf?_function ..).trans (if_neg (by decide))
  have context : (contextItem g).bodyOf? discoverEntryPoint = none := rfl
  obtain ⟨body, discover, called⟩ := crateCalls_discoverItem ((ofFragments fs).offering [])
  rw [calls, bodiesAt_file collected imports, offers, addedAt, List.filterMap_cons_none context,
    List.filterMap_cons_none manifest, List.filterMap_cons_some discover, List.filterMap_nil, List.nil_append,
    List.flatMap_singleton, called]

lemma offeredLabel?_offerStatement (o : Offer) : (offerStatement o).offeredLabel? = some o.label := by
  change Text.unquoted? (Text.stringLiteral o.label.toList) = _
  rw [Text.unquoted?_stringLiteral, String.ofList_toList]

/-- The offering function of a module offers the labels of the module. -/
lemma offeredLabels_bodiesAt (collected : ∀ f ∈ fs, f.Collected) (imports : ∀ i ∈ g.imports, i.isImport = true)
    (path : List String) :
    (bodiesAt (file (ofFragments fs) g).items path offerFunction).flatMap (·.filterMap Node.offeredLabel?) =
      ((ofFragments fs).contentAt path).offers.map (·.label) := by
  rw [bodiesAt_file collected imports, filterMap_addedAt imports, List.append_nil]
  generalize ((ofFragments fs).contentAt path).offers = offers
  have labels : (offers.map offerStatement).filterMap Node.offeredLabel? = offers.map (·.label) := by
    rw [List.filterMap_map]
    exact List.filterMap_eq_map_iff_forall_eq_some.mpr fun o _ => offeredLabel?_offerStatement o
  split
  case isTrue none_offered => rw [List.isEmpty_iff.mp none_offered]; rfl
  case isFalse =>
    have body : (offerItem offers).bodyOf? offerFunction = some (.item offerImports :: offers.map offerStatement) :=
      (bodyOf?_function ..).trans (if_pos rfl)
    rw [List.filterMap_cons_some body, List.filterMap_nil, List.flatMap_singleton, List.filterMap_cons_none rfl, labels]

/-- The labels are offered in the order in which the tree lists them. -/
lemma offered_file (collected : ∀ f ∈ fs, f.Collected) (imports : ∀ i ∈ g.imports, i.isImport = true) :
    offered (file (ofFragments fs) g).items = (ofFragments fs).labels := by
  rw [offered, calls_file collected imports, List.flatMap_map, labels_eq (ordered_ofFragments fs)]
  exact List.flatMap_congr fun path _ => offeredLabels_bodiesAt collected imports path

/-! ### The crate -/

/-- Whether items are those of a module with given fragments: their declarations in their order, and between them and
behind them each of their implementations once, and nothing else in between. -/
structure IsModuleOf (fs : List Fragment) (items : List Item) : Prop where
  declarations : items.filter (·.declaresType) = fs.map (·.declaration)
  impls : ∀ i, i ∈ items.filter (·.isImpl) ↔ ∃ f ∈ fs, i ∈ f.impls
  once : (items.filter (·.isImpl)).Nodup
  together : ∃ before own after, items = before ++ own ++ after ∧
    (∀ i ∈ own, i.declaresType = true ∨ i.isImpl = true) ∧
    ∀ i ∈ before ++ after, i.declaresType = false ∧ i.isImpl = false

/-- The items at a path of a crate are those of a module with the fragments of that path. -/
lemma isModuleOf_itemsAt (collected : ∀ f ∈ fs, f.Collected) (imports : ∀ i ∈ g.imports, i.isImport = true)
    (path : List String) :
    IsModuleOf (fragmentsAt fs path) (Item.itemsAt path (file (ofFragments fs) g).items) := by
  have collected_at : ∀ f ∈ fragmentsAt fs path, f.Collected := fun f hf => collected f (List.mem_filter.mp hf).1
  obtain ⟨before, after, parts, others⟩ := itemsAt_file_parts collected imports path
  -- items of a kind are all in the middle
  have middle (p : Item → Bool) (none_other : ∀ i ∈ before ++ after, p i = false) :
      (Item.itemsAt path (file (ofFragments fs) g).items).filter p =
        (ModuleContent.empty.addAll (fragmentsAt fs path)).items.filter p := by
    have none_before : before.filter p = [] := List.filter_eq_nil_iff.mpr fun i hi =>
      Bool.eq_false_iff.mp (none_other i (List.mem_append_left _ hi))
    have none_after : after.filter p = [] := List.filter_eq_nil_iff.mpr fun i hi =>
      Bool.eq_false_iff.mp (none_other i (List.mem_append_right _ hi))
    rw [parts, List.filter_append, List.filter_append, none_before, none_after, List.nil_append, List.append_nil]
  have types := middle (·.declaresType) fun i hi => (others i hi).1
  have impls := middle (·.isImpl) fun i hi => (others i hi).2
  constructor
  case declarations =>
    rw [types]
    exact ModuleContent.filter_declarations_addAll (fun f hf => (collected_at f hf).declaresType)
      fun f hf i hi => (Item.spec_of_isImpl ((collected_at f hf).impls i hi)).2
  case impls =>
    intro i
    rw [impls, List.mem_filter, ModuleContent.mem_items_addAll]
    constructor
    · rintro ⟨there | ⟨f, hf, rfl | there⟩, impl⟩
      · exact absurd there List.not_mem_nil
      · rw [(Item.spec_of_declaresType (collected_at f hf).declaresType).2] at impl
        cases impl
      · exact ⟨f, hf, there⟩
    · rintro ⟨f, hf, there⟩
      exact ⟨.inr ⟨f, hf, .inr there⟩, (collected_at f hf).impls i there⟩
  case once =>
    rw [impls]
    exact ModuleContent.nodup_filter_addAll
      (fun f hf => (Item.spec_of_declaresType (collected_at f hf).declaresType).2) .nil
  case together =>
    exact ⟨before, _, after, parts, fun i hi => (isSimple_of_mem_items collected_at hi).2, others⟩

lemma mem_calls_file (collected : ∀ f ∈ fs, f.Collected) (imports : ∀ i ∈ g.imports, i.isImport = true)
    (path : List String) (name : String) :
    (path, name) ∈ calls (file (ofFragments fs) g).items ↔
      name = offerFunction ∧ ∃ f ∈ fs, f.modulePath = path ∧ f.isCandidate = true := by
  rw [calls_file collected imports]
  have offers : ((ofFragments fs).contentAt path).offers ≠ [] ↔
      ∃ f ∈ fs, f.modulePath = path ∧ f.isCandidate = true := by
    rw [contentAt_ofFragments, ModuleContent.offers_addAll]
    change ([] : List Offer) ++ _ ≠ [] ↔ _
    rw [List.nil_append, ne_eq, List.map_eq_nil_iff, List.filter_eq_nil_iff]
    simp only [List.mem_filter, decide_eq_true_eq, not_forall, not_not, exists_prop, and_assoc]
  rw [← offers, ← mem_offering (ordered_ofFragments fs)]
  constructor
  · intro there
    obtain ⟨q, hq, eq⟩ := List.mem_map.mp there
    cases eq
    exact ⟨rfl, hq⟩
  · rintro ⟨rfl, there⟩
    exact List.mem_map_of_mem there

/-- With names that modules can have, only printing can fail. -/
lemma assemble_eq (named : ∀ f ∈ fs, ∀ step ∈ f.modulePath, isModuleName step = true) :
    assemble fs g = match (file (ofFragments fs) g).formatted? with
      | some source => .ok ⟨source, (ofFragments fs).labels⟩
      | none => .error .unformatted := by
  have legal : (ofFragments fs).namesBelow.find? (!isModuleName ·) = none := by
    refine List.find?_eq_none.mpr fun n hn => ?_
    obtain ⟨f, hf, step⟩ := mem_namesBelow_ofFragments hn
    simp only [named f hf n step, Bool.not_true, Bool.false_eq_true, not_false_eq_true]
  cases printed : (file (ofFragments fs) g).formatted? with
  | none => simp only [assemble, legal, printed]
  | some source => simp only [assemble, legal, printed]

/-- There is no text of a crate if a module cannot be declared under its name, or if the file has no layout. -/
lemma exists_fault_iff : (∃ f, assemble fs g = .error f) ↔
    (∃ f ∈ fs, ∃ step ∈ f.modulePath, isModuleName step = false) ∨
      (file (ofFragments fs) g).formatted? = none := by
  by_cases named : ∀ f ∈ fs, ∀ step ∈ f.modulePath, isModuleName step = true
  · rw [assemble_eq named]
    cases (file (ofFragments fs) g).formatted? with
    | none => exact ⟨fun _ => .inr rfl, fun _ => ⟨_, rfl⟩⟩
    | some source =>
      refine ⟨nofun, fun fails => ?_⟩
      obtain ⟨f, hf, step, hs, bad⟩ | none := fails
      · rw [named f hf step hs] at bad
        cases bad
      · cases none
  · simp only [not_forall, Bool.not_eq_true] at named
    obtain ⟨f, hf, step, hs, bad⟩ := named
    refine ⟨fun _ => .inl ⟨f, hf, step, hs, bad⟩, fun _ => ?_⟩
    have illegal : ((ofFragments fs).namesBelow.find? (!isModuleName ·)).isSome = true := by
      rw [List.find?_isSome]
      exact ⟨step, mem_namesBelow_ofFragments_iff.mpr ⟨f, hf, hs⟩, by rw [bad]; rfl⟩
    obtain ⟨name, found⟩ := Option.isSome_iff_exists.mp illegal
    exact ⟨.moduleName name, by simp only [assemble, found]⟩

/-- Nothing is lost and nothing doubled when a crate is assembled: every module declares the types of exactly its
fragments, the entry point calls exactly the modules with a candidate, each once, and the labels that are offered
when these calls run are those that the crate advertises, which are the paths of the candidates. -/
theorem file_faithful (collected : ∀ f ∈ fs, ∃ m index u, f ∈ Fragment.ofUnit m index u)
    (imports : ∀ i ∈ g.imports, i.isGlobalImport = true)
    (named : ∀ f ∈ fs, ∀ step ∈ f.modulePath, isModuleName step = true) :
    let t := ofFragments fs
    let items := (file t g).items
    (assemble fs g = match (file t g).formatted? with
        | some source => .ok ⟨source, t.labels⟩
        | none => .error .unformatted) ∧
      (∀ path, IsModuleOf (fragmentsAt fs path) (Item.itemsAt path items)) ∧
      (calls items).Nodup ∧
      (∀ path name, (path, name) ∈ calls items ↔
        name = offerFunction ∧ ∃ f ∈ fs, f.modulePath = path ∧ f.isCandidate = true) ∧
      offered items = t.labels ∧ t.labels.Perm ((fs.filter (·.isCandidate)).map (·.path)) := by
  have collected : ∀ f ∈ fs, f.Collected := by
    intro f hf
    obtain ⟨m, index, u, there⟩ := collected f hf
    exact Fragment.collected_of_mem_ofUnit there
  have imports : ∀ i ∈ g.imports, i.isImport = true := fun i hi => Item.isImport_of_isGlobalImport (imports i hi)
  refine ⟨assemble_eq named, isModuleOf_itemsAt collected imports, ?_, mem_calls_file collected imports,
    offered_file collected imports, labels_ofFragments fs⟩
  rw [calls_file collected imports]
  exact (nodup_offering (ordered_ofFragments fs)).map fun p q eq => (Prod.mk.inj eq).1

/-- The fragments of a program of one unit, without any if the text cannot be parsed or its markers are unknown. -/
def fragmentsOfText (text : String) : List Fragment :=
  let program := ((ProgramBuilder.new "host" "/sdk").unit "src/lib.rs" text).build.toOption
  ((program.bind fun p => (Model.ofProgram p).toOption).map Fragment.ofModel).getD []

/-- The fragments of a program are those of its units. -/
lemma exists_of_mem_fragmentsOfText {text : String} {f : Fragment} (hf : f ∈ fragmentsOfText text) :
    ∃ m index u, f ∈ Fragment.ofUnit m index u := by
  unfold fragmentsOfText at hf
  dsimp only at hf
  generalize (Option.bind _ _ : Option Model) = model at hf
  cases model with
  | none => exact absurd hf List.not_mem_nil
  | some m =>
    obtain ⟨⟨u, index⟩, -, hf⟩ := List.mem_flatMap.mp hf
    exact ⟨m, index, u, hf⟩

/-- A type in a module, a type at the root and a trait: the root comes first, and the trait is not offered. -/
theorem file_faithful_nestedModule :
    let inner := "mod a \x7b\nuse microgen_sdk::*;\n#[micro_generator]\nstruct A;\nimpl A {}\n\x7d\n"
    let fs := fragmentsOfText
      ("use microgen_sdk::micro_generator as g;\n" ++ inner ++ "#[g]\nstruct B;\n#[g]\ntrait C {}\n")
    let items := (file (ofFragments fs) ⟨[]⟩).items
    fs.map (·.path) = ["a::A", "B", "C"] ∧ (∀ f ∈ fs, ∀ step ∈ f.modulePath, isModuleName step = true) ∧
      (∀ path, IsModuleOf (fragmentsAt fs path) (Item.itemsAt path items)) ∧
      calls items = [([], offerFunction), (["a"], offerFunction)] ∧ offered items = ["B", "a::A"] := by
  intro inner fs items
  have computed : (fs.map (·.path) = ["a::A", "B", "C"] ∧
      calls items = [([], offerFunction), (["a"], offerFunction)]) ∧
      (∀ f ∈ fs, ∀ step ∈ f.modulePath, isModuleName step = true) ∧ (ofFragments fs).labels = ["B", "a::A"] := by
    decide +kernel
  obtain ⟨⟨paths, called⟩, named, labels⟩ := computed
  obtain ⟨-, modules, -, -, offered, -⟩ :=
    file_faithful (g := ⟨[]⟩) (fun _ => exists_of_mem_fragmentsOfText) (fun _ hi => absurd hi List.not_mem_nil) named
  exact ⟨paths, named, modules, called, offered.trans labels⟩

end Assembly

end SourceGen
