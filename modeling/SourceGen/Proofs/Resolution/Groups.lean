import SourceGen.Proofs.Resolution.Additions
import SourceGen.Syntax.Build

/-!
# Groups of imports

A group is no more than its members, each below the path that leads to the group. So a use tree binds what its single
imports bind, from left to right (`UseTree.bindingsBelow_expanded`), each of them a name or all names of a module
(`UseTree.binds_of_isSingle`), and splitting groups or putting imports into groups leaves the bindings of a module, and
with them the candidates of every path, as they are (`UseTree.bindings_expanded`).
-/

namespace SourceGen

namespace UseTree

mutual

/-- The single imports of a use tree, from left to right, each with its full path. -/
def expanded : UseTree → List UseTree
  | .step name rest => rest.expanded.map (.step name)
  | .leaf name => [.leaf name]
  | .rename name other => [.rename name other]
  | .glob => [.glob]
  | .group trees _ => expandedAll trees

/-- The single imports of use trees. -/
def expandedAll : List UseTree → List UseTree
  | [] => []
  | t :: ts => t.expanded ++ expandedAll ts

end

/-- Whether a use tree has no group. -/
inductive IsSingle : UseTree → Prop
  | leaf (name : String) : IsSingle (.leaf name)
  | rename (name other : String) : IsSingle (.rename name other)
  | glob : IsSingle .glob
  | step {rest : UseTree} (name : String) (single : rest.IsSingle) : IsSingle (.step name rest)

/-- What a single import binds: a path its last name, or the name that it is given instead, and a glob all names of its
path. A `self` at the end stands for the path before it, and without one it binds nothing. -/
inductive Binds : UseTree → List Binding → Prop
  | leaf (path : List String) {name : String} (other : name ≠ "self") :
    Binds (.ofSteps path (.leaf name)) [⟨name, path ++ [name], false⟩]
  | rename (path : List String) {name : String} (visible : String) (other : name ≠ "self") :
    Binds (.ofSteps path (.rename name visible)) [⟨visible, path ++ [name], false⟩]
  | glob (path : List String) : Binds (.ofSteps path .glob) [⟨"*", path, true⟩]
  | self (path : List String) (last : String) :
    Binds (.ofSteps (path ++ [last]) (.leaf "self")) [⟨last, path ++ [last], false⟩]
  | bareSelf : Binds (.leaf "self") []
  | renamedSelf (path : List String) (visible : String) :
    Binds (.ofSteps path (.rename "self" visible)) [⟨visible, path, false⟩]

end UseTree

namespace Item

/-- Whether one group among the imports of items is split: in place of a `use` declaration of a group there is one for
each of its members. -/
inductive Splits : List Item → List Item → Prop
  | group (before after : List Item) (attrs : List Attr) (vis : Visibility) (rooted : Bool) (path : List String)
      (trees : List UseTree) (trailing : Bool) :
      Splits (before ++ .mk attrs vis (.useDecl rooted (.ofSteps path (.group trees trailing))) :: after)
        (before ++ trees.map (fun t => .mk attrs vis (.useDecl rooted (.ofSteps path t))) ++ after)

/-- Whether items differ only in how their imports are grouped. -/
def Regrouped : List Item → List Item → Prop := Relation.EqvGen Splits

end Item

namespace UseTree

/-! ### Bindings of a tree -/

mutual

/-- A tree binds what its single imports bind. -/
lemma bindingsBelow_expanded : ∀ (t : UseTree) (path : List String),
    t.bindingsBelow path = t.expanded.flatMap fun single => single.bindingsBelow path
  | .step name rest, path => by
    rw [bindingsBelow, expanded, bindingsBelow_expanded rest, List.flatMap_map]
    rfl
  | .leaf name, path => (List.flatMap_singleton _ _).symm
  | .rename name other, path => (List.flatMap_singleton _ _).symm
  | .glob, path => (List.flatMap_singleton _ _).symm
  | .group trees trailing, path => bindingsBelowAll_expandedAll trees path

lemma bindingsBelowAll_expandedAll : ∀ (ts : List UseTree) (path : List String),
    bindingsBelowAll path ts = (expandedAll ts).flatMap fun single => single.bindingsBelow path
  | [], _ => rfl
  | t :: ts, path => by
    rw [bindingsBelowAll, expandedAll, List.flatMap_append, bindingsBelow_expanded t, bindingsBelowAll_expandedAll ts]

end

mutual

lemma isSingle_of_mem_expanded : ∀ (t : UseTree), ∀ single ∈ t.expanded, single.IsSingle
  | .step name rest, single, there => by
    rw [expanded] at there
    obtain ⟨inner, inside, rfl⟩ := List.mem_map.mp there
    exact .step name (isSingle_of_mem_expanded rest inner inside)
  | .leaf name, single, there => List.mem_singleton.mp there ▸ .leaf name
  | .rename name other, single, there => List.mem_singleton.mp there ▸ .rename name other
  | .glob, single, there => List.mem_singleton.mp there ▸ .glob
  | .group trees trailing, single, there => isSingle_of_mem_expandedAll trees single there

lemma isSingle_of_mem_expandedAll : ∀ (ts : List UseTree), ∀ single ∈ expandedAll ts, single.IsSingle
  | [], _, there => absurd there List.not_mem_nil
  | t :: ts, single, there =>
    (List.mem_append.mp there).elim (isSingle_of_mem_expanded t single) (isSingle_of_mem_expandedAll ts single)

end

lemma ofSteps_append_singleton (path : List String) (name : String) (t : UseTree) :
    ofSteps (path ++ [name]) t = ofSteps path (.step name t) :=
  List.foldr_append

/-- The path before a tree is the prefix of what it binds. -/
lemma bindings_ofSteps (path : List String) (t : UseTree) : (ofSteps path t).bindings = t.bindingsBelow path := by
  have below (before : List String) : (ofSteps path t).bindingsBelow before = t.bindingsBelow (before ++ path) := by
    induction path generalizing before with
    | nil => rw [List.append_nil]; rfl
    | cons name path ih =>
      change (ofSteps path t).bindingsBelow (before ++ [name]) = _
      rw [ih, List.append_assoc, List.singleton_append]
  exact below []

/-- A leaf `self` stands for the path before it. -/
lemma bindings_self (path : List String) {name : String} (other : name ≠ "self") :
    (ofSteps (path ++ [name]) (.leaf "self")).bindings = (ofSteps path (.leaf name)).bindings := by
  rw [bindings_ofSteps, bindings_ofSteps, bindingsBelow, bindingsBelow, if_pos rfl, if_neg other,
    List.getLast?_append, List.getLast?_singleton]
  rfl

/-- A single import is a path to a name, a new name or a glob. -/
lemma exists_ofSteps_of_isSingle {t : UseTree} (single : t.IsSingle) :
    ∃ path, (∃ name, t = ofSteps path (.leaf name)) ∨ (∃ name visible, t = ofSteps path (.rename name visible)) ∨
      t = ofSteps path .glob := by
  induction single with
  | leaf name => exact ⟨[], .inl ⟨name, rfl⟩⟩
  | rename name other => exact ⟨[], .inr (.inl ⟨name, other, rfl⟩)⟩
  | glob => exact ⟨[], .inr (.inr rfl)⟩
  | step name _ ih =>
    obtain ⟨path, ⟨last, rfl⟩ | ⟨last, visible, rfl⟩ | rfl⟩ := ih
    · exact ⟨name :: path, .inl ⟨last, rfl⟩⟩
    · exact ⟨name :: path, .inr (.inl ⟨last, visible, rfl⟩)⟩
    · exact ⟨name :: path, .inr (.inr rfl)⟩

/-- A leaf binds its name, or the path before it if it is `self`. -/
lemma binds_leaf (path : List String) (name : String) :
    Binds (ofSteps path (.leaf name)) (ofSteps path (.leaf name)).bindings := by
  rw [bindings_ofSteps, bindingsBelow]
  by_cases self : name = "self"
  · subst self
    rw [if_pos rfl]
    obtain rfl | ⟨before, last, rfl⟩ := List.eq_nil_or_concat' path
    · exact .bareSelf
    · rw [List.getLast?_concat]
      exact .self before last
  · rw [if_neg self]
    exact .leaf path self

/-- A single import binds what its form says. -/
lemma binds_of_isSingle {t : UseTree} (single : t.IsSingle) : Binds t t.bindings := by
  obtain ⟨path, ⟨name, rfl⟩ | ⟨name, visible, rfl⟩ | rfl⟩ := exists_ofSteps_of_isSingle single
  · exact binds_leaf path name
  · rw [bindings_ofSteps, bindingsBelow]
    by_cases self : name = "self"
    · subst self
      rw [if_pos rfl]
      exact .renamedSelf path visible
    · rw [if_neg self]
      exact .rename path visible self
  · rw [bindings_ofSteps]
    exact .glob path

lemma bindings_rename_self (path : List String) {name : String} (visible : String) (other : name ≠ "self") :
    (ofSteps (path ++ [name]) (.rename "self" visible)).bindings = (ofSteps path (.rename name visible)).bindings := by
  rw [bindings_ofSteps, bindings_ofSteps, bindingsBelow, bindingsBelow, if_pos rfl, if_neg other]

lemma bindingsBelowAll_eq (path : List String) (ts : List UseTree) :
    bindingsBelowAll path ts = ts.flatMap fun t => (ofSteps path t).bindings := by
  induction ts with
  | nil => rfl
  | cons t ts ih => rw [bindingsBelowAll, ih, List.flatMap_cons, bindings_ofSteps]

end UseTree

namespace Item

/-! ### Bindings of items -/

variable {items items' : List Item}

lemma flatMap_bindings_of_splits (splits : Splits items items') :
    items.flatMap Item.bindings = items'.flatMap Item.bindings := by
  obtain ⟨before, after, attrs, vis, rooted, path, trees, trailing⟩ := splits
  have group : (Item.mk attrs vis (.useDecl rooted (.ofSteps path (.group trees trailing)))).bindings =
      trees.flatMap fun t => (UseTree.ofSteps path t).bindings :=
    (UseTree.bindings_ofSteps path _).trans (UseTree.bindingsBelowAll_eq path trees)
  rw [List.flatMap_append, List.flatMap_append, List.flatMap_append, List.flatMap_cons, group, List.flatMap_map,
    List.append_assoc]
  rfl

lemma flatMap_bindings_of_regrouped (regrouped : Regrouped items items') :
    items.flatMap Item.bindings = items'.flatMap Item.bindings := by
  induction regrouped with
  | rel _ _ splits => exact flatMap_bindings_of_splits splits
  | refl _ => rfl
  | symm _ _ _ ih => exact ih.symm
  | trans _ _ _ _ _ ih ih' => exact ih.trans ih'

lemma regrouped_single (before after : List Item) (i : Item) :
    Regrouped (before ++ i :: after) (before ++ [i] ++ after) := by
  rw [List.append_assoc, List.singleton_append]
  exact .refl _

variable (attrs : List Attr) (vis : Visibility) (rooted : Bool)

mutual

/-- Splitting all groups of an import leads to its single imports. -/
lemma regrouped_expanded : ∀ (t : UseTree) (path : List String) (before after : List Item),
    Regrouped (before ++ .mk attrs vis (.useDecl rooted (.ofSteps path t)) :: after)
      (before ++ t.expanded.map (fun single => .mk attrs vis (.useDecl rooted (.ofSteps path single))) ++ after)
  | .step name rest, path, before, after => by
    have inside := regrouped_expanded rest (path ++ [name]) before after
    simp only [UseTree.ofSteps_append_singleton] at inside
    rw [UseTree.expanded, List.map_map]
    exact inside
  | .leaf _, _, before, after => regrouped_single before after _
  | .rename _ _, _, before, after => regrouped_single before after _
  | .glob, _, before, after => regrouped_single before after _
  | .group trees trailing, path, before, after =>
    .trans _ _ _ (.rel _ _ (.group before after attrs vis rooted path trees trailing))
      (regrouped_expandedAll trees path before after)

lemma regrouped_expandedAll : ∀ (ts : List UseTree) (path : List String) (before after : List Item),
    Regrouped (before ++ ts.map (fun t => .mk attrs vis (.useDecl rooted (.ofSteps path t))) ++ after)
      (before ++ (UseTree.expandedAll ts).map (fun single => .mk attrs vis (.useDecl rooted (.ofSteps path single))) ++
        after)
  | [], _, _, _ => .refl _
  | t :: ts, path, before, after => by
    -- the first tree gives way while the others are behind it, and then they do while its imports are before them
    have first := regrouped_expanded t path before
      (ts.map (fun t => .mk attrs vis (.useDecl rooted (.ofSteps path t))) ++ after)
    have others := regrouped_expandedAll ts path
      (before ++ t.expanded.map fun single => .mk attrs vis (.useDecl rooted (.ofSteps path single))) after
    rw [List.append_assoc (before ++ _)] at others
    rw [UseTree.expandedAll, List.map_cons, List.map_append, List.append_assoc, List.cons_append,
      ← List.append_assoc before]
    exact .trans _ _ _ first others

end

end Item

namespace UseTree

/-- A use tree binds what its single imports bind, from left to right, each of them what its form says. They are what
splitting its groups leads to, where a `self` stands for the path of its group. And however imports are put into groups
or taken out of them, a path in their module has the same candidates. -/
theorem bindings_expanded (t : UseTree) :
    t.bindings = t.expanded.flatMap bindings ∧ (∀ single ∈ t.expanded, single.IsSingle ∧ Binds single single.bindings) ∧
      (∀ attrs vis rooted, Item.Regrouped [.mk attrs vis (.useDecl rooted t)]
        (t.expanded.map fun single => .mk attrs vis (.useDecl rooted single))) ∧
      ((leaf "self").bindings = [] ∧ ∀ path name, name ≠ "self" →
        (ofSteps (path ++ [name]) (.leaf "self")).bindings = (ofSteps path (.leaf name)).bindings ∧
        ∀ visible, (ofSteps (path ++ [name]) (.rename "self" visible)).bindings =
          (ofSteps path (.rename name visible)).bindings) ∧
      ∀ items items', Item.Regrouped items items' → ∀ (m : Model) modulePath innerAttrs innerAttrs' path,
        m.candidates (.ofItems modulePath items innerAttrs) path =
          m.candidates (.ofItems modulePath items' innerAttrs') path := by
  refine ⟨bindingsBelow_expanded t [], fun single there => ?_, fun attrs vis rooted => ?_, ?_, ?_⟩
  · have isSingle := isSingle_of_mem_expanded t single there
    exact ⟨isSingle, binds_of_isSingle isSingle⟩
  · have split := Item.regrouped_expanded attrs vis rooted t [] [] []
    rw [List.append_nil] at split
    exact split
  · refine ⟨rfl, fun path name other => ⟨bindings_self path other, fun visible => ?_⟩⟩
    exact bindings_rename_self path visible other
  · intro items items' regrouped m modulePath innerAttrs innerAttrs' path
    have same := Item.flatMap_bindings_of_regrouped regrouped
    refine Model.candidates_congr rfl (fun _ _ => ?_) (.inr ?_)
    · exact congrArg (List.filter _) same
    · exact congrArg (List.filter _) same

/-- An import with a group in a group, and the candidates of a path that starts with a name from the inner one. -/
theorem bindings_expanded_nestedGroup :
    let t : UseTree :=
      .step "a" (.group [.leaf "self", .rename "b" "c", .step "d" (.group [.leaf "e", .glob] true)] false)
    let singles : List UseTree := [.step "a" (.leaf "self"), .step "a" (.rename "b" "c"),
      .step "a" (.step "d" (.leaf "e")), .step "a" (.step "d" .glob)]
    let item (t : UseTree) : Item := .mk [] .inherited (.useDecl false t)
    let m : Model := ⟨⟨"host", [], []⟩, ⟨[]⟩, builtinCrates⟩
    t.expanded = singles ∧ t.bindings =
      [⟨"a", ["a"], false⟩, ⟨"c", ["a", "b"], false⟩, ⟨"e", ["a", "d", "e"], false⟩, ⟨"*", ["a", "d"], true⟩] ∧
      Item.Regrouped [item t] (singles.map item) ∧
      (ofSteps ["a"] (.leaf "self")).bindings = (leaf "a").bindings ∧
      m.candidates (.ofItems ["x"] [item t] []) ⟨false, ["e", "attr"]⟩ = ["crate::x::a::d::e::attr"] ∧
      m.candidates (.ofItems ["x"] (singles.map item) []) ⟨false, ["e", "attr"]⟩ = ["crate::x::a::d::e::attr"] := by
  intro t singles item m
  obtain ⟨bindings, -, split, self, same⟩ := bindings_expanded t
  have computed : m.candidates (.ofItems ["x"] [item t] []) ⟨false, ["e", "attr"]⟩ = ["crate::x::a::d::e::attr"] := by
    decide
  have regrouped : Item.Regrouped [item t] (singles.map item) := split [] .inherited false
  refine ⟨rfl, bindings.trans rfl, regrouped, (self.2 [] "a" (by decide)).1, computed, ?_⟩
  rw [← same _ _ regrouped m ["x"] [] [], computed]

end UseTree

end SourceGen
