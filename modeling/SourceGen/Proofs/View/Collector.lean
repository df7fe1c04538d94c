import Mathlib.Data.List.Infix
import SourceGen.Proofs.View.Types
import SourceGen.View.Collector

/-!
# Numbers and symbols of nodes

A walk through a unit enters and leaves inline modules in pairs, so it never looks at an empty stack of scopes, and in
the end only the scope of the unit is left (`Visit.Meets`). What it meets on the way is what the index is made of. A
node has the number of its position, and the symbols are those of the nodes that declare one, in their order
(`Collector.index?_dense`).
-/

namespace SourceGen

/-! ### The stack of scopes -/

/-- Whether a walk that is in a scope meets something in a row of steps, and comes back to the scope. -/
inductive Visit.Meets : Scope → List Visit → List Sighting → Prop
  | nil {s : Scope} : Meets s [] []
  | meet {s : Scope} (start : Nat) (item : Item) : Meets s [.meet start item] [⟨s, start, item⟩]
  | inside {s : Scope} {attrs : List Attr} {name : String} {items : List Item} {vs : List Visit} {met : List Sighting}
      (body : Meets (s.nested attrs name items) vs met) : Meets s (.enter attrs name items :: (vs ++ [.leave])) met
  | append {s : Scope} {vs vs' : List Visit} {met met' : List Sighting} (first : Meets s vs met)
      (rest : Meets s vs' met') : Meets s (vs ++ vs') (met ++ met')

/-- Whether a walk meets something in the steps of each turn. -/
def Turn.Meets (s : Scope) : List (Turn × List Visit) → List (Turn × List Sighting) → Prop :=
  List.Forall₂ fun v met => v.1 = met.1 ∧ Visit.Meets s v.2 met.2

namespace Turn

variable {s : Scope} {vs : List (Turn × List Visit)} {met : List (Turn × List Sighting)}

lemma Meets.filter (each : Meets s vs met) (p : Turn → Bool) :
    Meets s (vs.filter fun v => p v.1) (met.filter fun x => p x.1) := by
  refine List.rel_filter ?_ each
  rintro v x ⟨turn, -⟩
  exact iff_of_eq (congrArg (p · = true) turn)

lemma Meets.flatMap (each : Meets s vs met) : Visit.Meets s (vs.flatMap (·.2)) (met.flatMap (·.2)) := by
  induction each with
  | nil => exact .nil
  | cons first _ ih => exact .append first.2 ih

lemma Meets.arrange (each : Meets s vs met) : Visit.Meets s (arrange vs) (arrange met) := by
  have turns (ts : List Turn) : Visit.Meets s (ts.flatMap fun t => (vs.filter (·.1 = t)).flatMap (·.2))
      (ts.flatMap fun t => (met.filter (·.1 = t)).flatMap (·.2)) := by
    induction ts with
    | nil => exact .nil
    | cons t ts ih => exact .append (each.filter (· = t)).flatMap ih
  exact turns all

end Turn

mutual

lemma Node.meets_visits : ∀ (n : Node) (s : Scope) (start : Nat),
    Visit.Meets s (n.visits start) (n.sightings s start)
  | .leaf _, _, _ => .nil
  | .raw _, _, _ => .nil
  | .group _ parts, s, start => (Node.meets_visitsEach parts s (start + 1)).arrange
  | .form f parts, s, start => by
    have met := (Node.meets_visitsEach parts s start).arrange
    cases f with
    | phantom => exact .nil
    | silent => exact .nil
    | _ => exact met
  | .attr a, s, start => Attr.meets_visits a s start
  | .item i, s, start => Item.meets_visits i s start

lemma Node.meets_visitsEach : ∀ (ns : List Node) (s : Scope) (start : Nat),
    Turn.Meets s (Node.visitsEach start ns) (Node.sightingsEach s start ns)
  | [], _, _ => .nil
  | .group d parts :: ns, s, start => by
    have body := Node.meets_visitsEach parts s (start + 1)
    have rest := Node.meets_visitsEach ns s (start + (Node.group d parts).size)
    exact .cons ⟨rfl, (body.filter (· = Turn.attributes)).arrange⟩
      (.cons ⟨rfl, (body.filter (· ≠ Turn.attributes)).arrange⟩ rest)
  | .leaf l :: ns, s, start => .cons ⟨rfl, Node.meets_visits (.leaf l) s start⟩ (Node.meets_visitsEach ns s _)
  | .raw ts :: ns, s, start => .cons ⟨rfl, Node.meets_visits (.raw ts) s start⟩ (Node.meets_visitsEach ns s _)
  | .form f parts :: ns, s, start =>
    .cons ⟨rfl, Node.meets_visits (.form f parts) s start⟩ (Node.meets_visitsEach ns s _)
  | .attr a :: ns, s, start => .cons ⟨rfl, Node.meets_visits (.attr a) s start⟩ (Node.meets_visitsEach ns s _)
  | .item i :: ns, s, start => .cons ⟨rfl, Node.meets_visits (.item i) s start⟩ (Node.meets_visitsEach ns s _)

lemma Attr.meets_visits : ∀ (a : Attr) (s : Scope) (start : Nat),
    Visit.Meets s (a.visits start) (a.sightings s start)
  | .mk _ _ args, s, _ => (Node.meets_visitsEach args s _).arrange

lemma Attr.meets_visitsAll : ∀ (as : List Attr) (inner : Bool) (s : Scope) (start : Nat),
    Visit.Meets s (Attr.visitsAll inner start as) (Attr.sightingsAll s inner start as)
  | [], _, _, _ => .nil
  | a :: as, inner, s, start => by
    rw [Attr.visitsAll, Attr.sightingsAll]
    split
    · exact .append (Attr.meets_visits a s start) (Attr.meets_visitsAll as inner s _)
    · exact Attr.meets_visitsAll as inner s start

lemma Item.meets_visits : ∀ (i : Item) (s : Scope) (start : Nat),
    Visit.Meets s (i.visits start) (i.sightings s start)
  | .mk attrs vis decl, s, start => by
    -- the scope inside is that of the module only if the item is one with a body
    have inside (s' : Scope) := ((Attr.meets_visitsAll attrs false s' start).append
      (Attr.meets_visitsAll attrs true s' (start + Attr.sizeAll false attrs + vis.size + decl.headSize))).append
        (Decl.meets_visits decl s' (start + Attr.sizeAll false attrs + vis.size)
          (start + Attr.sizeAll false attrs + vis.size + decl.headSize + Attr.sizeAll true attrs))
    cases decl with
    | module isUnsafe name items =>
      cases items with
      | none => exact (Visit.Meets.meet start _).append (inside s)
      | some items => exact (Visit.Meets.meet start _).append (.inside (inside _))
    | _ => exact (Visit.Meets.meet start _).append (inside s)

lemma Item.meets_visitsAll : ∀ (is : List Item) (s : Scope) (start : Nat),
    Visit.Meets s (Item.visitsAll start is) (Item.sightingsAll s start is)
  | [], _, _ => .nil
  | i :: is, s, start => .append (Item.meets_visits i s start) (Item.meets_visitsAll is s _)

lemma Decl.meets_visits : ∀ (d : Decl) (s : Scope) (start inside : Nat),
    Visit.Meets s (d.visits start inside) (d.sightings s start inside)
  | .useDecl _ _, _, _, _ => .nil
  | .externCrate _ _, _, _, _ => .nil
  | .module _ _ none, _, _, _ => .nil
  | .module _ _ (some items), s, _, inside => Item.meets_visitsAll items s inside
  | .data _ _ generics body, s, start, _ =>
    Turn.Meets.arrange (.cons ⟨rfl, Node.meets_visits generics s _⟩ (Node.meets_visitsEach body s _))
  | .trait _ _ generics supertraits whereClause members, s, _, inside =>
    (((Node.meets_visits generics s _).append (Node.meets_visits whereClause s _)).append
      (Node.meets_visits supertraits s _)).append (Node.meets_visitsEach members s inside).arrange
  | .impl header selfType whereClause members, s, start, inside => by
    apply Turn.Meets.arrange
    refine List.rel_append (List.rel_append (Node.meets_visitsEach header s start) ?_)
      (Node.meets_visitsEach members s inside)
    exact .cons ⟨rfl, Node.meets_visits selfType s _⟩ (.cons ⟨rfl, Node.meets_visits whereClause s _⟩ .nil)
  | .plain _ _ parts, s, start, _ => (Node.meets_visitsEach parts s start).arrange
  | .verbatim _, _, _, _ => .nil

end

/-- A walk through a unit meets the items of the unit, and comes back to the scope of the unit. -/
lemma SourceUnit.meets_visits (u : SourceUnit) : Visit.Meets (Scope.ofUnit u) u.visits u.sightings :=
  .append (Attr.meets_visitsAll _ _ _ _) (Item.meets_visitsAll _ _ _)

namespace Collector

variable {m : Model} {u : SourceUnit} {c : Collector} {s : Scope} {outer : List Scope} {vs vs' : List Visit}
  {met : List Sighting}

lemma run_append : c.run m u (vs ++ vs') = (c.run m u vs).bind fun c' => c'.run m u vs' :=
  List.foldlM_append

/-- What is taken down does not depend on the scopes that the walk is in. -/
lemma foldl_record_scopes (c : Collector) (scopes : List Scope) (met : List Sighting) :
    met.foldl (record m u) { c with scopes := scopes } = { met.foldl (record m u) c with scopes := scopes } := by
  induction met generalizing c with
  | nil => rfl
  | cons x met ih => exact ih (c.record m u x)

lemma scopes_foldl_record (c : Collector) (met : List Sighting) : (met.foldl (record m u) c).scopes = c.scopes := by
  induction met generalizing c with
  | nil => rfl
  | cons x met ih => exact ih (c.record m u x)

lemma step_enter (c : Collector) (attrs : List Attr) (name : String) (items : List Item)
    (there : c.scopes = s :: outer) :
    c.step m u (.enter attrs name items) = some { c with scopes := s.nested attrs name items :: s :: outer } := by
  rw [step, there]
  rfl

/-- A walk takes down what it meets, and is in the same scopes afterwards. -/
lemma run_of_meets (meets : Visit.Meets s vs met) (there : c.scopes = s :: outer) :
    c.run m u vs = some (met.foldl (record m u) c) := by
  induction meets generalizing c outer with
  | nil => rfl
  | meet start item =>
    change (c.scopes.head?.map _).bind _ = _
    rw [there]
    rfl
  | @inside s attrs name items vs met _ ih =>
    let c' : Collector := { c with scopes := s.nested attrs name items :: s :: outer }
    have body : c'.run m u vs = some (met.foldl (record m u) c') := ih rfl
    have left : some { met.foldl (record m u) c' with scopes := s :: outer } = some (met.foldl (record m u) c) := by
      rw [foldl_record_scopes, ← there, ← scopes_foldl_record (m := m) (u := u) c met]
    change (c.step m u (.enter attrs name items)).bind (fun c => c.run m u (vs ++ [.leave])) = _
    rw [step_enter c attrs name items there, Option.bind_some, run_append, body, Option.bind_some, ← left,
      foldl_record_scopes]
    rfl
  | append _ _ ih ih' =>
    rw [run_append, ih there, Option.bind_some, List.foldl_append]
    exact ih' ((scopes_foldl_record c _).trans there)

/-- After each step of a walk, the scope that it started in is still there, and those below it. -/
lemma exists_run_of_prefix (meets : Visit.Meets s vs met) (there : c.scopes = s :: outer) {before : List Visit}
    (start : before <+: vs) : ∃ c' inner, c.run m u before = some c' ∧ c'.scopes = inner ++ s :: outer := by
  induction meets generalizing c outer before with
  | nil =>
    obtain rfl := List.prefix_nil.mp start
    exact ⟨c, [], rfl, there⟩
  | @meet s start' item =>
    obtain rfl | ⟨rest, rfl, nothing⟩ := List.prefix_cons_iff.mp start
    · exact ⟨c, [], rfl, there⟩
    · obtain rfl := List.prefix_nil.mp nothing
      have met := run_of_meets (m := m) (u := u) (.meet start' item) there
      exact ⟨_, [], met, there⟩
  | @inside s attrs name items vs met body ih =>
    obtain rfl | ⟨rest, rfl, within⟩ := List.prefix_cons_iff.mp start
    · exact ⟨c, [], rfl, there⟩
    have entered := step_enter (m := m) (u := u) c attrs name items there
    obtain rfl | within := List.prefix_concat_iff.mp within
    · have all := run_of_meets (m := m) (u := u) (.inside body) there
      exact ⟨_, [], all, (scopes_foldl_record c met).trans there⟩
    · obtain ⟨c', inner, reached, scopes⟩ := ih (c := { c with scopes := _ }) rfl within
      refine ⟨c', inner ++ [s.nested attrs name items], ?_, ?_⟩
      · change (c.step m u (.enter attrs name items)).bind (fun c => c.run m u rest) = _
        rw [entered]
        exact reached
      · rw [scopes, List.append_assoc]
        rfl
  | @append s vs vs' met met' first _ ih ih' =>
    obtain early | ⟨rest, rfl⟩ := List.prefix_or_prefix_of_prefix start (List.prefix_append vs vs')
    · exact ih there early
    · rw [run_append, run_of_meets first there, Option.bind_some]
      exact ih' ((scopes_foldl_record c met).trans there) ((List.prefix_append_right_inj vs).mp start)

/-! ### What is collected -/

/-- The nodes that are taken down are numbered from the ones that are there, as far as 32 bits go. -/
lemma nodes_foldl_record (c : Collector) (met : List Sighting) :
    (met.foldl (record m u) c).nodes =
      c.nodes ++ (met.zipIdx c.nodes.length).map fun x => NodeIndex.nodeOf m u (x.2 % UInt32.size) x.1 := by
  induction met generalizing c with
  | nil => exact (List.append_nil _).symm
  | cons x met ih =>
    refine (ih (c.record m u x)).trans ?_
    rw [List.zipIdx_cons, List.map_cons, record, List.length_append, List.append_assoc]
    rfl

/-- Whether the symbols that are taken down are those of the nodes. -/
def Agrees (c : Collector) : Prop := c.symbols = c.nodes.filterMap NodeIndex.symbolOf

lemma Agrees.record (agrees : c.Agrees) (x : Sighting) : (c.record m u x).Agrees := by
  rw [Agrees, Collector.record, List.filterMap_append, ← agrees, List.filterMap_cons, List.filterMap_nil]
  cases NodeIndex.symbolOf (NodeIndex.nodeOf m u (c.nodes.length % UInt32.size) x) with
  | none => rfl
  | some t => rfl

lemma Agrees.foldl_record (agrees : c.Agrees) (met : List Sighting) : (met.foldl (Collector.record m u) c).Agrees := by
  induction met generalizing c with
  | nil => exact agrees
  | cons x met ih => exact ih (agrees.record x)

/-- A walk through a unit takes down the items of the unit, and in the end it is in the scope of the unit. -/
lemma run_visits (there : c.scopes = [Scope.ofUnit u]) :
    c.run m u u.visits = some (u.sightings.foldl (record m u) c) :=
  run_of_meets u.meets_visits there

/-- Walks through units take down what the units have inside, one after the other. -/
lemma exists_units (agrees : c.Agrees) (us : List SourceUnit) :
    ∃ c', us.foldlM (unit m) c = some c' ∧ c'.Agrees ∧ c'.nodes = c.nodes ++
      ((us.flatMap fun u => u.sightings.map fun x => (u, x)).zipIdx c.nodes.length).map fun x =>
        NodeIndex.nodeOf m x.1.1 (x.2 % UInt32.size) x.1.2 := by
  induction us generalizing c with
  | nil => exact ⟨c, rfl, agrees, (List.append_nil _).symm⟩
  | cons u us ih =>
    let entered : Collector := { c with scopes := [Scope.ofUnit u] }
    let c₁ := u.sightings.foldl (record m u) entered
    have walked : c.unit m u = some c₁ := run_visits rfl
    have nodes : c₁.nodes = _ := nodes_foldl_record entered u.sightings
    have agrees' : entered.Agrees := agrees
    obtain ⟨c', rest, agrees', nodes'⟩ := ih (agrees'.foldl_record (m := m) (u := u) u.sightings)
    refine ⟨c', ?_, agrees', ?_⟩
    · rw [List.foldlM_cons, walked]
      exact rest
    · have length : c₁.nodes.length = c.nodes.length + u.sightings.length := by
        rw [nodes, List.length_append, List.length_map, List.length_zipIdx]
      change c'.nodes = c₁.nodes ++ _ at nodes'
      rw [nodes', length, nodes, List.flatMap_cons, List.zipIdx_append, List.map_append, List.length_map,
        List.zipIdx_map, List.map_map, List.append_assoc]
      rfl

lemma index?_eq (few : (NodeIndex.ofModel m).nodes.length < UInt32.size) : index? m = some (NodeIndex.ofModel m) := by
  obtain ⟨c, walked, agrees, nodes⟩ := exists_units (m := m) (c := ⟨[], [], []⟩) rfl m.program.units
  have same : c.nodes = NodeIndex.nodesOf m := by
    rw [nodes, NodeIndex.nodesOf, List.nil_append]
    refine List.map_congr_left fun x hx => ?_
    -- with fewer nodes than numbers of 32 bits, none of these overflows
    have small : x.2 < UInt32.size := by
      have within := (List.mem_zipIdx' hx).1
      change (NodeIndex.nodesOf m).length < UInt32.size at few
      rw [NodeIndex.nodesOf, List.length_map, List.length_zipIdx] at few
      exact within.trans few
    rw [Nat.mod_eq_of_lt small]
  rw [index?, walked, Option.map_some, agrees, same]
  rfl

end Collector

/-! ### Numbers and symbols -/

namespace NodeIndex

variable {m : Model} {n : NodeView} {t : Symbol}

lemma isSome_symbolOf_iff : (symbolOf n).isSome = true ↔ n.name.isSome = true ∧ n.kind.declaresSymbol = true := by
  rw [symbolOf]
  cases n.name with
  | none => exact iff_of_false Bool.false_ne_true fun both => Bool.false_ne_true both.1
  | some name =>
    cases n.kind.declaresSymbol with
    | true => exact iff_of_true rfl ⟨rfl, rfl⟩
    | false => exact iff_of_false Bool.false_ne_true fun both => Bool.false_ne_true both.2

/-- A symbol repeats what its node says. -/
lemma repeats_of_symbolOf (symbol : symbolOf n = some t) : n.name = some t.name ∧ t.kind = n.kind ∧
    t.modulePath = n.modulePath ∧ t.attributes = n.attributes ∧ t.location = n.location := by
  cases named : n.name with
  | none =>
    rw [symbolOf, named] at symbol
    cases symbol
  | some name =>
    rw [symbolOf, named] at symbol
    obtain ⟨-, same⟩ := Option.ite_none_right_eq_some.mp symbol
    cases same
    exact ⟨rfl, rfl, rfl, rfl, rfl⟩

lemma id_getElem (k : Nat) (within : k < (ofModel m).nodes.length) : (ofModel m).nodes[k].id = k := by
  obtain ⟨x, -, node, -⟩ := exists_placed ⟨k, within⟩
  exact congrArg NodeView.id node

lemma pairwise_id (m : Model) : (ofModel m).nodes.Pairwise fun n n' => n.id < n'.id := by
  refine List.pairwise_iff_getElem.mpr fun i j hi hj less => ?_
  rw [id_getElem, id_getElem]
  exact less

lemma pairwise_node (m : Model) : (ofModel m).context.symbols.Pairwise fun t t' => t.node < t'.node := by
  refine List.pairwise_filterMap.mpr ((pairwise_id m).imp fun less t ht t' ht' => ?_)
  rw [(spec_of_symbolOf ht).1, (spec_of_symbolOf ht').1]
  exact less

lemma eq_of_id {n' : NodeView} (there : n ∈ (ofModel m).nodes) (there' : n' ∈ (ofModel m).nodes) (same : n.id = n'.id) :
    n = n' := by
  obtain ⟨k, within, rfl⟩ := List.mem_iff_getElem.mp there
  obtain ⟨k', within', rfl⟩ := List.mem_iff_getElem.mp there'
  obtain rfl : k = k' := by rwa [id_getElem, id_getElem] at same
  rfl

/-- The symbol that is found for a node is its own, because no other node has its number. -/
lemma symbolFor?_eq (there : n ∈ (ofModel m).nodes) : (ofModel m).context.symbolFor? n = symbolOf n := by
  have own {t : Symbol} (found : (ofModel m).context.symbolFor? n = some t) : symbolOf n = some t := by
    obtain ⟨n', there', symbol⟩ := List.mem_filterMap.mp (List.mem_of_find?_eq_some found)
    have number : t.node = n.id := by simpa using List.find?_some found
    rwa [eq_of_id there' there ((spec_of_symbolOf symbol).1.symm.trans number)] at symbol
  cases symbol : symbolOf n with
  | none =>
    cases found : (ofModel m).context.symbolFor? n with
    | none => rfl
    | some t => rw [← own found, symbol]
  | some t =>
    have listed : t ∈ (ofModel m).context.symbols := List.mem_filterMap.mpr ⟨n, there, symbol⟩
    have found : ((ofModel m).context.symbolFor? n).isSome = true :=
      List.find?_isSome.mpr ⟨t, listed, decide_eq_true (spec_of_symbolOf symbol).1⟩
    obtain ⟨t', found⟩ := Option.isSome_iff_exists.mp found
    rw [found, ← symbol, own found]

end NodeIndex

namespace Collector

/-- The walks through the units of a program with fewer than `2 ^ 32` nodes collect its index. They are in the scope of
their unit at any time, and in no other one at the end. In the index, a node has the number of its position, symbols
come in the order of their nodes, and what is found for a node is its own symbol: there is one if the node has a name
and a kind with symbols, and it repeats what the node says. -/
theorem index?_dense (m : Model) (few : (NodeIndex.ofModel m).nodes.length < UInt32.size) :
    let index := NodeIndex.ofModel m
    index? m = some index ∧
      (∀ u ∈ m.program.units, ∀ c : Collector, c.scopes = [Scope.ofUnit u] →
        (∀ before, before <+: u.visits →
          ∃ c' inner, c.run m u before = some c' ∧ c'.scopes = inner ++ [Scope.ofUnit u]) ∧
          ∃ c', c.run m u u.visits = some c' ∧ c'.scopes = [Scope.ofUnit u]) ∧
      (∀ k (within : k < index.nodes.length), index.nodes[k].id = k) ∧
      (index.context.symbols.Pairwise fun t t' => t.node < t'.node) ∧
      ∀ n ∈ index.nodes,
        ((index.context.symbolFor? n).isSome = true ↔
          n.name.isSome = true ∧ n.kind ∉ [.impl, .use, .macroCall, .other]) ∧
        ∀ t, index.context.symbolFor? n = some t → n.name = some t.name ∧ t.kind = n.kind ∧
          t.modulePath = n.modulePath ∧ t.attributes = n.attributes ∧ t.location = n.location := by
  intro index
  refine ⟨index?_eq few, fun u _ c there => ⟨fun before start => ?_, ?_⟩, NodeIndex.id_getElem,
    NodeIndex.pairwise_node m, fun n hn => ?_⟩
  · exact exists_run_of_prefix u.meets_visits there start
  · exact ⟨_, run_visits there, (scopes_foldl_record c u.sightings).trans there⟩
  · rw [NodeIndex.symbolFor?_eq hn, NodeIndex.isSome_symbolOf_iff]
    refine ⟨and_congr_right fun _ => ?_, fun t symbol => NodeIndex.repeats_of_symbolOf symbol⟩
    cases n.kind <;> decide

/-- A method in an implementation, two modules down. -/
theorem index?_dense_nestedModule :
    let text := "mod a \x7b\n    mod b \x7b\n        struct G;\n        impl G \x7b\n" ++
      "            fn f() \x7b\x7d\n        \x7d\n    \x7d\n\x7d\nuse a::b;\n"
    ∃ m u n n', Model.ofText? text = some m ∧ m.program.units = [u] ∧ (NodeIndex.ofModel m).nodes.length = 6 ∧
      index? m = some (NodeIndex.ofModel m) ∧
      (∃ c, (⟨[Scope.ofUnit u], [], []⟩ : Collector).run m u u.visits = some c ∧ c.scopes = [Scope.ofUnit u]) ∧
      (NodeIndex.ofModel m).nodes[3]? = some n ∧ n.kind = .impl ∧
      ((NodeIndex.ofModel m).context.symbolFor? n).isSome = false ∧
      (NodeIndex.ofModel m).nodes[4]? = some n' ∧ n'.id = 4 ∧
      ∃ t, (NodeIndex.ofModel m).context.symbolFor? n' = some t ∧ t.path = "a::b::f" := by
  intro text
  obtain ⟨m, u, built, units, computed⟩ := @Model.exists_of_ofText? text
    (fun m _ => decide ((NodeIndex.ofModel m).nodes.length = 6 ∧
      (NodeIndex.ofModel m).nodes[3]?.map NodeView.kind = some NodeKind.impl ∧
      (NodeIndex.ofModel m).nodes[4]?.map (fun n => (n.kind, n.qualifiedName)) =
        some (NodeKind.method, some "a::b::f")))
    (by decide +kernel)
  obtain ⟨length, third, fourth⟩ := of_decide_eq_true computed
  obtain ⟨n, at_three, kind⟩ := Option.map_eq_some_iff.mp third
  obtain ⟨n', at_four, kind'⟩ := Option.map_eq_some_iff.mp fourth
  obtain ⟨method, qualified⟩ := Prod.mk.inj kind'
  obtain ⟨name, named, path⟩ := Option.map_eq_some_iff.mp qualified
  obtain ⟨index, stack, ids, -, symbols⟩ := index?_dense m (length ▸ by decide)
  obtain ⟨isSome, -⟩ := symbols n (List.mem_of_getElem? at_three)
  obtain ⟨isSome', repeats⟩ := symbols n' (List.mem_of_getElem? at_four)
  have none : ((NodeIndex.ofModel m).context.symbolFor? n).isSome = false := by
    rw [Bool.eq_false_iff, ne_eq, isSome, kind]
    exact fun own => own.2 List.mem_cons_self
  have some_there : ((NodeIndex.ofModel m).context.symbolFor? n').isSome = true := by
    rw [isSome', method, named]
    exact ⟨rfl, by decide⟩
  obtain ⟨t, symbol⟩ := Option.isSome_iff_exists.mp some_there
  obtain ⟨same, -, modulePath, -⟩ := repeats t symbol
  obtain ⟨within, rfl⟩ := List.getElem?_eq_some_iff.mp at_four
  have ofUnit : u ∈ m.program.units := units ▸ List.mem_singleton_self u
  refine ⟨m, u, n, _, built, units, length, index, (stack u ofUnit _ rfl).2, at_three, kind, none, at_four,
    ids 4 within, t, symbol, ?_⟩
  rw [Symbol.path, modulePath, ← path]
  exact congrArg _ (Option.some.inj (same.symm.trans named))

end Collector

end SourceGen
